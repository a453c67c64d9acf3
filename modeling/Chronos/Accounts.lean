import Chronos.Auth

/-!
# Users and organizations

A registration creates a user, an organization and the membership that makes
the user its owner, in one transaction; no other step of the authentication
endpoints touches these tables.  So every organization has one member, who
owns it.
-/

namespace Chronos.Auth

/-- What a step does to the accounts: nothing, or one registration. -/
inductive AccountStep (state next : State) : Prop where
  | same :
      next.users = state.users →
      next.organizations = state.organizations →
      next.memberships = state.memberships →
      AccountStep state next
  | registered {body : RegisterBody} {passwordHash : String} {user : UserId}
      {org : OrgId} {created : State} :
      state.createUser body passwordHash user org = some created →
      next.users = created.users →
      next.organizations = created.organizations →
      next.memberships = created.memberships →
      AccountStep state next

namespace AccountStep

variable {state next : State} {input : Input}

private theorem of_register {body : RegisterBody}
    {phase phase' : RegisterPhase}
    (taken : register state body phase input = some (next, phase')) :
    AccountStep state next := by
  unfold register at taken
  split at taken
  · split at taken <;> cases taken <;> exact same rfl rfl rfl
  · cases taken
    exact same rfl rfl rfl
  · split at taken
    · obtain ⟨created, success, isNext⟩ := Option.map_eq_some_iff.mp taken
      cases isNext
      exact registered success rfl rfl rfl
    · cases taken
  · cases taken
    exact same rfl rfl rfl
  · cases taken
  · cases taken
    exact same rfl rfl rfl
  · cases taken

private theorem of_login {body : LoginBody} {phase phase' : LoginPhase}
    (taken : login state body phase input = some (next, phase')) :
    AccountStep state next := by
  unfold login at taken
  split at taken
  · split at taken <;> cases taken <;> exact same rfl rfl rfl
  · cases taken
    exact same rfl rfl rfl
  · split at taken <;> cases taken
    exact same rfl rfl rfl
  · cases taken
    exact same rfl rfl rfl
  · cases taken
  · cases taken
    exact same rfl rfl rfl
  · cases taken

private theorem of_refresh {payload : JwtPayload} {jti : Jti}
    {phase phase' : RefreshPhase}
    (taken : refresh state payload jti phase input = some (next, phase')) :
    AccountStep state next := by
  unfold refresh at taken
  split at taken
  · split at taken <;> cases taken <;> exact same rfl rfl rfl
  · split at taken <;> cases taken <;> exact same rfl rfl rfl
  · split at taken <;> cases taken
    exact same rfl rfl rfl
  · cases taken
    exact same rfl rfl rfl
  · cases taken
  · cases taken
    exact same rfl rfl rfl
  · cases taken

private theorem of_logout {jti : Jti}
    (taken : logout state jti input = some next) : AccountStep state next := by
  unfold logout at taken
  split at taken <;> cases taken <;> exact same rfl rfl rfl

private theorem of_proceed {value value' : Call}
    (taken : proceed state input value = some (next, value')) :
    AccountStep state next := by
  unfold proceed at taken
  cases value with
  | register body phase =>
      obtain ⟨⟨_, _⟩, success, isNext⟩ := Option.map_eq_some_iff.mp taken
      cases isNext
      exact of_register success
  | login body phase =>
      obtain ⟨⟨_, _⟩, success, isNext⟩ := Option.map_eq_some_iff.mp taken
      cases isNext
      exact of_login success
  | refresh payload jti phase =>
      obtain ⟨⟨_, _⟩, success, isNext⟩ := Option.map_eq_some_iff.mp taken
      cases isNext
      exact of_refresh success
  | logout jti =>
      obtain ⟨_, success, isNext⟩ := Option.map_eq_some_iff.mp taken
      cases isNext
      exact of_logout success
  | answered reply => cases taken

private theorem of_start {call : CallId} {value : Call}
    (taken : state.start call value = some next) : AccountStep state next := by
  unfold State.start at taken
  split at taken <;> cases taken
  exact same rfl rfl rfl

theorem of_step {action : Action} (taken : step state action = some next) :
    AccountStep state next := by
  cases action with
  | register call body => exact of_start taken
  | login call body => exact of_start taken
  | refresh call cookie =>
      simp only [step] at taken
      split at taken
      · exact of_start taken
      · cases taken
  | logout call cookie =>
      simp only [step] at taken
      split at taken
      · exact of_start taken
      · cases taken
  | proceed call input =>
      simp only [step] at taken
      split at taken
      · cases taken
      · obtain ⟨⟨_, _⟩, success, isNext⟩ := Option.map_eq_some_iff.mp taken
        cases isNext
        have proceeded := of_proceed success
        cases proceeded with
        | same users organizations memberships =>
            exact same users organizations memberships
        | registered created users organizations memberships =>
            exact registered created users organizations memberships
  | expire jti =>
      cases taken
      exact same rfl rfl rfl

end AccountStep

/-- The user owns the organization. -/
def State.Owns (state : State) (user : UserId) (org : OrgId) : Prop :=
  ∃ row, state.organizations.get? org = some row ∧ row.ownerId = user

/-- Emails name one user each, and the members of an organization are its
owner, who is a user. -/
structure Accounts (state : State) : Prop where
  emails : ∀ user user' row row', state.users.get? user = some row →
    state.users.get? user' = some row' → row.email = row'.email → user = user'
  owners : ∀ user org, state.Owns user org → (state.users.get? user).isSome
  members : ∀ org user role,
    state.memberships.get? (org, user) = some role ↔
      role = .owner ∧ state.Owns user org

/-- The rows that a registration inserts. -/
structure Registered (state next : State) (user : UserId) (org : OrgId)
    (row : User) (organization : Organization) : Prop where
  email : ∀ other otherRow, state.users.get? other = some otherRow →
    otherRow.email ≠ row.email
  newUser : state.users.get? user = none
  newOrg : state.organizations.get? org = none
  newMember : state.memberships.get? (org, user) = none
  owner : organization.ownerId = user
  users : ∀ other, next.users.get? other =
    if other = user then some row else state.users.get? other
  organizations : ∀ other, next.organizations.get? other =
    if other = org then some organization else state.organizations.get? other
  memberships : ∀ key, next.memberships.get? key =
    if key = (org, user) then some .owner else state.memberships.get? key

theorem State.createUser_spec {state next : State} {body : RegisterBody}
    {passwordHash : String} {user : UserId} {org : OrgId}
    (created : state.createUser body passwordHash user org = some next) :
    ∃ row organization, Registered state next user org row organization := by
  unfold State.createUser at created
  split at created
  · cases created
  · rename_i unknown
    obtain ⟨users, insertedUser, created⟩ := Option.bind_eq_some_iff.mp created
    obtain ⟨organizations, insertedOrg, created⟩ :=
      Option.bind_eq_some_iff.mp created
    obtain ⟨memberships, insertedMember, rfl⟩ :=
      Option.map_eq_some_iff.mp created
    refine ⟨_, _, ?_, (Table.insert?_eq_some_iff.mp insertedUser).1,
      (Table.insert?_eq_some_iff.mp insertedOrg).1,
      (Table.insert?_eq_some_iff.mp insertedMember).1, rfl,
      fun other => Table.get?_insert? insertedUser,
      fun other => Table.get?_insert? insertedOrg,
      fun key => Table.get?_insert? insertedMember⟩
    intro other otherRow found same
    apply unknown
    rw [State.findByEmail, List.find?_isSome]
    exact ⟨(other, otherRow), Table.mem_rows_iff.mpr found, by simpa using same⟩

namespace Accounts

variable {state next : State} {action : Action}

theorem initial (users : state.users = .empty)
    (organizations : state.organizations = .empty)
    (memberships : state.memberships = .empty) : Accounts state where
  emails := by
    intro user user' row row' found
    rw [users] at found
    cases found
  owners := by
    intro user org owns
    obtain ⟨row, found, _⟩ := owns
    rw [organizations] at found
    cases found
  members := by
    intro org user role
    rw [memberships]
    constructor
    · intro found
      cases found
    · intro owned
      obtain ⟨_, row, found, _⟩ := owned
      rw [organizations] at found
      cases found

private theorem of_tables (accounts : Accounts state)
    (users : next.users = state.users)
    (organizations : next.organizations = state.organizations)
    (memberships : next.memberships = state.memberships) :
    Accounts next := by
  constructor
  · rw [users]
    exact accounts.emails
  · intro user org
    rw [State.Owns, users, organizations]
    exact accounts.owners user org
  · intro org user role
    rw [State.Owns, memberships, organizations]
    exact accounts.members org user role

private theorem of_registered (accounts : Accounts state) {user : UserId}
    {org : OrgId} {row : User} {organization : Organization}
    (registered : Registered state next user org row organization) :
    Accounts next where
  emails := by
    intro first second firstRow secondRow found found' same
    rw [registered.users] at found found'
    split at found
    · cases found
      split at found'
      · rename_i isFirst isSecond
        exact isFirst.trans isSecond.symm
      · exact absurd same.symm (registered.email second secondRow found')
    · split at found'
      · cases found'
        exact absurd same (registered.email first firstRow found)
      · exact accounts.emails first second firstRow secondRow found found' same
  owners := by
    intro other otherOrg owns
    obtain ⟨otherRow, found, owner⟩ := owns
    rw [registered.users]
    split
    · rfl
    · rename_i different
      rw [registered.organizations] at found
      split at found
      · cases found
        exact absurd (owner.symm.trans registered.owner) different
      · exact accounts.owners other otherOrg ⟨otherRow, found, owner⟩
  members := by
    intro otherOrg other role
    rw [registered.memberships, State.Owns, registered.organizations]
    by_cases sameOrg : otherOrg = org
    · subst sameOrg
      by_cases sameUser : other = user
      · subst sameUser
        simp only [if_true, Option.some.injEq]
        constructor
        · intro isRole
          exact ⟨isRole.symm, organization, rfl, registered.owner⟩
        · intro owned
          exact owned.1.symm
      · have unequal : ¬(otherOrg, other) = (otherOrg, user) := by
          intro same
          exact sameUser (Prod.mk.inj same).2
        simp only [if_neg unequal, if_true]
        constructor
        · intro found
          obtain ⟨_, organizationRow, present, _⟩ :=
            (accounts.members otherOrg other role).mp found
          rw [registered.newOrg] at present
          cases present
        · intro owned
          obtain ⟨_, organizationRow, present, owner⟩ := owned
          cases present
          exact absurd (owner.symm.trans registered.owner) sameUser
    · have unequal : ¬(otherOrg, other) = (org, user) := by
        intro same
        exact sameOrg (Prod.mk.inj same).1
      simp only [if_neg unequal, if_neg sameOrg]
      exact accounts.members otherOrg other role

theorem step (accounts : Accounts state)
    (taken : Auth.step state action = some next) : Accounts next := by
  cases AccountStep.of_step taken with
  | same users organizations memberships =>
      exact accounts.of_tables users organizations memberships
  | registered created users organizations memberships =>
      obtain ⟨row, organization, registered⟩ := State.createUser_spec created
      exact (accounts.of_registered registered).of_tables users organizations
        memberships

end Accounts

end Chronos.Auth
