import Chronos.Auth
import Chronos.Lib.Trace

/-!
# Refresh tokens are single use

A refresh checks that the JTI of its token is in Redis, reads the user and
deletes the JTI, in three steps.  A JTI is stored once, so no check passes
after the deletion; but a second request can pass the check before it.  The
two requests then both exchange the token.
-/

namespace Chronos.Auth

namespace Call

/-- The JTI that the request is about to store. -/
def pending? : Call → Option Jti
  | .register _ (.store _ _ tokens) => some tokens.jti
  | .login _ (.store _ tokens) => some tokens.jti
  | .refresh _ _ (.store tokens) => some tokens.jti
  | _ => none

/-- The JTI of a refresh that has passed the check and has not yet deleted
the JTI. -/
def checked? : Call → Option Jti
  | .refresh _ jti .findUser => some jti
  | .refresh _ jti (.revoke _) => some jti
  | _ => none

/-- The JTI of a refresh that has deleted it and has not failed since. -/
def spent? : Call → Option Jti
  | .refresh _ jti (.store _) => some jti
  | .refresh _ jti (.answered (.ok _)) => some jti
  | _ => none

/-- The JTI of a refresh that has been answered with new tokens. -/
def exchanged? : Call → Option Jti
  | .refresh _ jti (.answered (.ok _)) => some jti
  | _ => none

theorem spent?_of_exchanged? {value : Call} {jti : Jti}
    (exchanged : value.exchanged? = some jti) : value.spent? = some jti := by
  unfold exchanged? at exchanged
  split at exchanged
  · exact exchanged
  · cases exchanged

theorem not_spent?_of_checked? {value : Call} {jti : Jti}
    (checked : value.checked? = some jti) : value.spent? ≠ some jti := by
  unfold checked? at checked
  split at checked
  · intro spent
    cases spent
  · intro spent
    cases spent
  · cases checked

end Call

/-- No two requests have exchanged the same refresh token. -/
def State.SingleUse (state : State) : Prop :=
  ∀ jti first second value value',
    state.calls first = some value → value.exchanged? = some jti →
    state.calls second = some value' → value'.exchanged? = some jti →
    first = second

/-! ## What a step of a request can do -/

theorem State.jtis_of_revoked {state : State} {jti other : Jti}
    (valid : (state.revokeRefreshJti jti).jtis other = true) :
    state.jtis other = true := by
  simp only [State.revokeRefreshJti, Function.update_apply] at valid
  split at valid
  · cases valid
  · exact valid

theorem State.createUser_frame {state next : State} {body : RegisterBody}
    {passwordHash : String} {user : UserId} {org : OrgId}
    (created : state.createUser body passwordHash user org = some next) :
    next.jtis = state.jtis ∧ next.signed = state.signed ∧
      next.calls = state.calls ∧
      ∀ id, (state.users.get? id).isSome → (next.users.get? id).isSome := by
  unfold State.createUser at created
  split at created
  · cases created
  · simp only [Option.bind_eq_some_iff, Option.map_eq_some_iff] at created
    obtain ⟨users, inserted, organizations, -, memberships, -, rfl⟩ := created
    refine ⟨rfl, rfl, rfl, ?_⟩
    intro id known
    change (users.get? id).isSome
    rw [Table.get?_insert? inserted]
    split
    · rfl
    · exact known

/-- A step of a request: it waits for the next call, passes the check of its
JTI, signs new tokens, deletes its JTI and signs new tokens, stores the new
JTI, or deletes the JTI of a logout. -/
inductive ProceedStep (state : State) : Call → Input → State → Call → Prop where
  | waited {input : Input} {value value' : Call} :
      value'.pending? = none →
      (∀ jti, value'.checked? = some jti → value.checked? = some jti) →
      (∀ jti, value'.spent? = some jti → value.spent? = some jti) →
      ProceedStep state value input state value'
  | checked {payload : JwtPayload} {jti : Jti} :
      state.jtis jti = true →
      ProceedStep state (.refresh payload jti .lookup) .ok state
        (.refresh payload jti .findUser)
  | issued {input : Input} {value value' : Call} {middle : State}
      {sub : UserId} {user : User} {jti : Jti} :
      state.fresh jti = true →
      middle.jtis = state.jtis → middle.signed = state.signed →
      middle.calls = state.calls →
      (∀ id, (state.users.get? id).isSome → (middle.users.get? id).isSome) →
      value'.pending? = some jti →
      value'.checked? = none → value'.spent? = none →
      ProceedStep state value input (middle.sign (issueTokens sub user jti))
        value'
  | rotated {payload : JwtPayload} {jti newJti : Jti} {user : User} :
      state.fresh newJti = true →
      ProceedStep state (.refresh payload jti (.revoke user)) (.nonce newJti)
        ((state.revokeRefreshJti jti).sign
          (issueTokens payload.sub user newJti))
        (.refresh payload jti
          (.store (issueTokens payload.sub user newJti)))
  | stored {value value' : Call} {jti : Jti} :
      value.pending? = some jti →
      value'.pending? = none → value'.checked? = none →
      (∀ other, value'.spent? = some other → value.spent? = some other) →
      ProceedStep state value .ok (state.storeRefreshJti jti) value'
  | revoked {jti : Jti} :
      ProceedStep state (.logout jti) .ok (state.revokeRefreshJti jti)
        (.answered (.ok .loggedOut))

namespace ProceedStep

variable {state next : State} {input : Input}

private theorem refused {value value' : Call}
    (pending : value'.pending? = none) (checked : value'.checked? = none)
    (spent : value'.spent? = none) :
    ProceedStep state value input state value' := by
  apply waited pending
  · intro jti found
    rw [checked] at found
    cases found
  · intro jti found
    rw [spent] at found
    cases found

private theorem of_register {body : RegisterBody}
    {phase phase' : RegisterPhase}
    (taken : register state body phase input = some (next, phase')) :
    ProceedStep state (.register body phase) input next
      (.register body phase') := by
  unfold register at taken
  split at taken
  · split at taken <;> cases taken
    · exact refused rfl rfl rfl
    · exact refused rfl rfl rfl
  · cases taken
    exact refused rfl rfl rfl
  · split at taken
    · rename_i isFresh
      simp only [Option.map_eq_some_iff, Prod.mk.injEq] at taken
      obtain ⟨middle, created, rfl, rfl⟩ := taken
      obtain ⟨jtis, signed, calls, users⟩ := State.createUser_frame created
      exact issued isFresh jtis signed calls users rfl rfl rfl
    · cases taken
  · cases taken
    exact stored rfl rfl rfl (fun _ spent => spent)
  · cases taken
  · cases taken
    exact refused rfl rfl rfl
  · cases taken

private theorem of_login {body : LoginBody} {phase phase' : LoginPhase}
    (taken : login state body phase input = some (next, phase')) :
    ProceedStep state (.login body phase) input next (.login body phase') := by
  unfold login at taken
  split at taken
  · split at taken <;> cases taken
    · exact refused rfl rfl rfl
    · exact refused rfl rfl rfl
  · cases taken
    exact refused rfl rfl rfl
  · split at taken
    · rename_i isFresh
      cases taken
      exact issued isFresh rfl rfl rfl (fun _ known => known) rfl rfl rfl
    · cases taken
  · cases taken
    exact stored rfl rfl rfl (fun _ spent => spent)
  · cases taken
  · cases taken
    exact refused rfl rfl rfl
  · cases taken

private theorem of_refresh {payload : JwtPayload} {jti : Jti}
    {phase phase' : RefreshPhase}
    (taken : refresh state payload jti phase input = some (next, phase')) :
    ProceedStep state (.refresh payload jti phase) input next
      (.refresh payload jti phase') := by
  unfold refresh at taken
  split at taken
  · split at taken <;> cases taken
    · exact checked ‹_›
    · exact refused rfl rfl rfl
  · split at taken <;> cases taken
    · exact refused rfl rfl rfl
    · exact waited rfl (fun _ found => found) (fun _ found => found)
  · split at taken
    · cases taken
      exact rotated ‹_›
    · cases taken
  · cases taken
    exact stored rfl rfl rfl (fun _ spent => spent)
  · cases taken
  · cases taken
    exact refused rfl rfl rfl
  · cases taken

theorem of_proceed {value value' : Call}
    (taken : proceed state input value = some (next, value')) :
    ProceedStep state value input next value' := by
  unfold proceed at taken
  split at taken
  · simp only [Option.map_eq_some_iff, Prod.exists, Prod.map_apply,
      Prod.mk.injEq, id_eq] at taken
    obtain ⟨_, phase', taken, rfl, rfl⟩ := taken
    exact of_register taken
  · simp only [Option.map_eq_some_iff, Prod.exists, Prod.map_apply,
      Prod.mk.injEq, id_eq] at taken
    obtain ⟨_, phase', taken, rfl, rfl⟩ := taken
    exact of_login taken
  · simp only [Option.map_eq_some_iff, Prod.exists, Prod.map_apply,
      Prod.mk.injEq, id_eq] at taken
    obtain ⟨_, phase', taken, rfl, rfl⟩ := taken
    exact of_refresh taken
  · simp only [Option.map_eq_some_iff, Prod.mk.injEq] at taken
    obtain ⟨_, taken, rfl, rfl⟩ := taken
    unfold logout at taken
    split at taken <;> cases taken
    · exact revoked
    · exact refused rfl rfl rfl
  · cases taken

theorem calls {value value' : Call}
    (case : ProceedStep state value input next value') :
    next.calls = state.calls := by
  cases case with
  | issued _ _ _ calls _ _ _ _ => exact calls
  | _ => rfl

section Effects

variable {value value' : Call} {jti : Jti}

theorem fresh_of_pending (case : ProceedStep state value input next value')
    (pending : value'.pending? = some jti) : state.fresh jti = true := by
  cases case with
  | waited none _ _ => rw [none] at pending; cases pending
  | checked _ => cases pending
  | issued fresh _ _ _ _ isPending _ _ =>
      rw [isPending] at pending
      cases pending
      exact fresh
  | rotated fresh =>
      cases pending
      exact fresh
  | stored _ none _ _ => rw [none] at pending; cases pending
  | revoked => cases pending

theorem checked_cases (case : ProceedStep state value input next value')
    (checked : value'.checked? = some jti) :
    value.checked? = some jti ∨ state.jtis jti = true := by
  cases case with
  | waited _ kept _ => exact .inl (kept jti checked)
  | checked valid =>
      cases checked
      exact .inr valid
  | issued _ _ _ _ _ _ none _ => rw [none] at checked; cases checked
  | rotated _ => cases checked
  | stored _ _ none _ => rw [none] at checked; cases checked
  | revoked => cases checked

theorem spent_cases (case : ProceedStep state value input next value')
    (spent : value'.spent? = some jti) :
    value.spent? = some jti ∨ value.checked? = some jti := by
  cases case with
  | waited _ _ kept => exact .inl (kept jti spent)
  | checked _ => cases spent
  | issued _ _ _ _ _ _ _ none => rw [none] at spent; cases spent
  | rotated _ => exact .inr spent
  | stored _ _ _ kept => exact .inl (kept jti spent)
  | revoked => cases spent

/-- A refresh spends its JTI by deleting it. -/
theorem rotated_cases (case : ProceedStep state value input next value')
    (spent : value'.spent? = some jti) :
    value.spent? = some jti ∨ next.jtis jti = false ∧
      ∃ newJti payload user, input = .nonce newJti ∧
        value = .refresh payload jti (.revoke user) := by
  cases case with
  | waited _ _ kept => exact .inl (kept jti spent)
  | checked _ => cases spent
  | issued _ _ _ _ _ _ _ none => rw [none] at spent; cases spent
  | rotated _ =>
      cases spent
      refine .inr ⟨?_, _, _, _, rfl, rfl⟩
      exact Function.update_self ..
  | stored _ _ _ kept => exact .inl (kept jti spent)
  | revoked => cases spent

theorem jtis_cases (case : ProceedStep state value input next value')
    (valid : next.jtis jti = true) :
    state.jtis jti = true ∨ value.pending? = some jti := by
  cases case with
  | waited _ _ _ => exact .inl valid
  | checked _ => exact .inl valid
  | issued _ jtis _ _ _ _ _ _ =>
      change _ = true at valid
      exact .inl (jtis ▸ valid)
  | rotated _ => exact .inl (State.jtis_of_revoked valid)
  | stored pending _ _ _ =>
      simp only [State.storeRefreshJti, Function.update_apply] at valid
      split at valid
      · rename_i same
        exact .inr (same ▸ pending)
      · exact .inl valid
  | revoked => exact .inl (State.jtis_of_revoked valid)

theorem signed_cases (case : ProceedStep state value input next value') :
    next.signed = state.signed ∨
      ∃ sub user jti, state.fresh jti = true ∧
        next.signed = state.signed ++
          [(issueTokens sub user jti).accessToken,
            (issueTokens sub user jti).refreshToken] := by
  cases case with
  | issued fresh _ signed _ _ _ _ _ =>
      exact .inr ⟨_, _, _, fresh, congrArg (fun list => list ++ _) signed⟩
  | rotated fresh => exact .inr ⟨_, _, _, fresh, rfl⟩
  | _ => exact .inl rfl

theorem mem_signed (case : ProceedStep state value input next value')
    {payload : JwtPayload} (signed : payload ∈ state.signed) :
    payload ∈ next.signed := by
  obtain same | ⟨_, _, _, _, more⟩ := case.signed_cases
  · rw [same]
    exact signed
  · rw [more]
    exact List.mem_append_left _ signed

theorem signed_of_pending (case : ProceedStep state value input next value')
    (pending : value'.pending? = some jti) :
    ∃ payload ∈ next.signed, payload.jti = some jti := by
  cases case with
  | waited none _ _ => rw [none] at pending; cases pending
  | checked _ => cases pending
  | issued _ _ _ _ _ isPending _ _ =>
      rw [isPending] at pending
      cases pending
      exact ⟨_, List.mem_append_right _ (List.mem_cons_of_mem _
        (List.mem_singleton_self _)), rfl⟩
  | rotated _ =>
      cases pending
      exact ⟨_, List.mem_append_right _ (List.mem_cons_of_mem _
        (List.mem_singleton_self _)), rfl⟩
  | stored _ none _ _ => rw [none] at pending; cases pending
  | revoked => cases pending

end Effects

theorem users {value value' : Call}
    (case : ProceedStep state value input next value') {id : UserId}
    (known : (state.users.get? id).isSome) : (next.users.get? id).isSome := by
  cases case with
  | issued _ _ _ _ users _ _ _ => exact users id known
  | _ => exact known

theorem token {value : Call} {payload : JwtPayload} {jti : Jti}
    {phase : RefreshPhase}
    (taken : proceed state input value =
      some (next, .refresh payload jti phase)) :
    ∃ before, value = .refresh payload jti before := by
  unfold proceed at taken
  split at taken
  · simp [Option.map_eq_some_iff] at taken
  · simp [Option.map_eq_some_iff] at taken
  · simp only [Option.map_eq_some_iff, Prod.exists, Prod.map_apply,
      Prod.mk.injEq, Call.refresh.injEq] at taken
    obtain ⟨_, _, -, -, rfl, rfl, -⟩ := taken
    exact ⟨_, rfl⟩
  · simp [Option.map_eq_some_iff] at taken
  · cases taken

end ProceedStep

/-! ## What a step of the system can do -/

namespace State

/-- The request `call` stands in this relation to a JTI. -/
def Has (state : State) (relation : Call → Option Jti) (call : CallId)
    (jti : Jti) : Prop :=
  ∃ value, state.calls call = some value ∧ relation value = some jti

theorem calls_set (state : State) (call other : CallId) (value : Call) :
    (state.set call value).calls other =
      if other = call then some value else state.calls other := by
  simp only [set, Function.update_apply]

theorem has_set {state next : State} {call other : CallId} {value : Call}
    {relation : Call → Option Jti} {jti : Jti}
    (calls : next.calls = state.calls)
    (has : (next.set call value).Has relation other jti) :
    (other = call ∧ relation value = some jti) ∨
      (other ≠ call ∧ state.Has relation other jti) := by
  obtain ⟨found, present, related⟩ := has
  rw [calls_set, calls] at present
  by_cases same : other = call
  · rw [if_pos same] at present
    cases present
    exact .inl ⟨same, related⟩
  · rw [if_neg same] at present
    exact .inr ⟨same, found, present, related⟩

theorem has_of_set {state : State} {call other : CallId} {value : Call}
    {relation : Call → Option Jti} {jti : Jti} (none : relation value = none)
    (has : (state.set call value).Has relation other jti) :
    state.Has relation other jti := by
  rcases has_set rfl has with ⟨-, related⟩ | ⟨-, before⟩
  · rw [none] at related
    cases related
  · exact before

/-- A relation in which one call at most stands to a JTI stays so, if the call
that takes a step comes to it alone. -/
theorem alone_set {state next : State} {call : CallId} {value : Call}
    {relation : Call → Option Jti} {jti : Jti}
    (calls : next.calls = state.calls)
    (alone : ∀ {first second}, state.Has relation first jti →
      state.Has relation second jti → first = second)
    (meets : relation value = some jti →
      ∀ other, other ≠ call → ¬state.Has relation other jti)
    {first second : CallId}
    (hasFirst : (next.set call value).Has relation first jti)
    (hasSecond : (next.set call value).Has relation second jti) :
    first = second := by
  rcases has_set calls hasFirst with ⟨rfl, related⟩ | ⟨ne, before⟩
  · rcases has_set calls hasSecond with ⟨rfl, -⟩ | ⟨ne', before'⟩
    · rfl
    · exact (meets related second ne' before').elim
  · rcases has_set calls hasSecond with ⟨rfl, related⟩ | ⟨-, before'⟩
    · exact (meets related first ne before).elim
    · exact alone before before'

theorem fresh_eq_false_iff {state : State} {jti : Jti} :
    state.fresh jti = false ↔
      ∃ payload ∈ state.signed, payload.jti = some jti := by
  simp [fresh]

end State

/-- A step of the system begins a request, lets one take a step, or removes
an expired key. -/
inductive Step (state : State) : Action → State → Prop where
  | began {action : Action} {call : CallId} {value : Call} :
      state.calls call = none →
      value.pending? = none → value.checked? = none → value.spent? = none →
      (∀ payload jti phase, value = .refresh payload jti phase →
        payload ∈ state.signed ∧ payload.jti = some jti ∧ phase = .lookup) →
      Step state action (state.set call value)
  | proceeded {call : CallId} {input : Input} {value value' : Call}
      {next : State} :
      state.calls call = some value →
      proceed state input value = some (next, value') →
      Step state (.proceed call input) (next.set call value')
  | expired {jti : Jti} :
      Step state (.expire jti) (state.revokeRefreshJti jti)

theorem Step.of_start {state next : State} {action : Action} {call : CallId}
    {value : Call} (pending : value.pending? = none)
    (checked : value.checked? = none) (spent : value.spent? = none)
    (token : ∀ payload jti phase, value = .refresh payload jti phase →
      payload ∈ state.signed ∧ payload.jti = some jti ∧ phase = .lookup)
    (taken : state.start call value = some next) : Step state action next := by
  unfold State.start at taken
  split at taken
  · rename_i absent
    cases taken
    exact .began (Option.isNone_iff_eq_none.mp absent) pending checked spent
      token
  · cases taken

theorem beginRefresh_cases {state : State} {cookie : Cookie}
    (presents : state.presents cookie = true) :
    (∃ reply, beginRefresh cookie = .answered reply) ∨
      ∃ payload jti, beginRefresh cookie = .refresh payload jti .lookup ∧
        payload ∈ state.signed ∧ payload.jti = some jti := by
  cases cookie with
  | absent => exact .inl ⟨_, rfl⟩
  | invalid => exact .inl ⟨_, rfl⟩
  | verified payload =>
      have signed : payload ∈ state.signed := by
        simpa [State.presents] using presents
      simp only [beginRefresh]
      split
      · exact .inl ⟨_, rfl⟩
      · cases claim : payload.jti with
        | none => exact .inl ⟨_, rfl⟩
        | some jti => exact .inr ⟨payload, jti, rfl, signed, claim⟩

theorem beginLogout_cases (cookie : Cookie) :
    (∃ reply, beginLogout cookie = .answered reply) ∨
      ∃ jti, beginLogout cookie = .logout jti := by
  unfold beginLogout
  split
  · split
    · exact .inl ⟨_, rfl⟩
    · exact .inr ⟨_, rfl⟩
  · exact .inl ⟨_, rfl⟩

theorem Step.of_step {state next : State} {action : Action}
    (taken : step state action = some next) : Step state action next := by
  unfold step at taken
  split at taken
  · exact .of_start rfl rfl rfl (by rintro _ _ _ ⟨⟩) taken
  · exact .of_start rfl rfl rfl (by rintro _ _ _ ⟨⟩) taken
  · split at taken
    · rename_i presents
      obtain ⟨reply, begun⟩ | ⟨payload, jti, begun, signed, claim⟩ :=
        beginRefresh_cases presents
      · rw [begun] at taken
        exact .of_start rfl rfl rfl (by rintro _ _ _ ⟨⟩) taken
      · rw [begun] at taken
        refine .of_start rfl rfl rfl ?_ taken
        intro payload' jti' phase same
        cases same
        exact ⟨signed, claim, rfl⟩
    · cases taken
  · split at taken
    · obtain ⟨reply, begun⟩ | ⟨jti, begun⟩ := beginLogout_cases _
      · rw [begun] at taken
        exact .of_start rfl rfl rfl (by rintro _ _ _ ⟨⟩) taken
      · rw [begun] at taken
        exact .of_start rfl rfl rfl (by rintro _ _ _ ⟨⟩) taken
    · cases taken
  · split at taken
    · cases taken
    · rename_i value present
      simp only [Option.map_eq_some_iff] at taken
      obtain ⟨⟨middle, value'⟩, taken, rfl⟩ := taken
      exact .proceeded present taken
  · cases taken
    exact .expired

/-! ## What holds in every run -/

/-- What is known of JTIs, whatever the interleaving: they are signed before
they are stored, once each, and only then presented with success. -/
structure TokenInv (state : State) : Prop where
  known : ∀ {jti}, state.jtis jti = true →
    ∃ payload ∈ state.signed, payload.jti = some jti
  unique : ∀ {payload}, payload ∈ state.signed →
    ∀ {payload'}, payload' ∈ state.signed →
    ∀ {jti}, payload.jti = some jti → payload'.jti = some jti →
      payload = payload'
  held : ∀ {call payload jti phase},
    state.calls call = some (.refresh payload jti phase) →
      payload ∈ state.signed ∧ payload.jti = some jti
  pendingSigned : ∀ {call jti}, state.Has Call.pending? call jti →
    ∃ payload ∈ state.signed, payload.jti = some jti
  pendingAlone : ∀ {first second jti}, state.Has Call.pending? first jti →
    state.Has Call.pending? second jti → first = second
  pendingInvalid : ∀ {call jti}, state.Has Call.pending? call jti →
    state.jtis jti = false
  pendingUnchecked : ∀ {call jti}, state.Has Call.pending? call jti →
    ∀ other, ¬state.Has Call.checked? other jti
  pendingUnspent : ∀ {call jti}, state.Has Call.pending? call jti →
    ∀ other, ¬state.Has Call.spent? other jti

/-- No request is in progress, the keys in Redis are those of signed tokens,
and their JTIs are distinct. -/
structure Initial (state : State) : Prop where
  calls : ∀ call, state.calls call = none
  known : ∀ {jti}, state.jtis jti = true →
    ∃ payload ∈ state.signed, payload.jti = some jti
  unique : ∀ {payload}, payload ∈ state.signed →
    ∀ {payload'}, payload' ∈ state.signed →
    ∀ {jti}, payload.jti = some jti → payload'.jti = some jti →
      payload = payload'

theorem Initial.not_has {state : State} (initial : Initial state)
    {relation : Call → Option Jti} {call : CallId} {jti : Jti} :
    ¬state.Has relation call jti := by
  rintro ⟨value, present, -⟩
  rw [initial.calls] at present
  cases present

namespace TokenInv

variable {state next : State}

theorem initial (initial : Initial state) : TokenInv state where
  known := initial.known
  unique := initial.unique
  held present := by
    rw [initial.calls] at present
    cases present
  pendingSigned has := (initial.not_has has).elim
  pendingAlone has _ := (initial.not_has has).elim
  pendingInvalid has := (initial.not_has has).elim
  pendingUnchecked has := (initial.not_has has).elim
  pendingUnspent has := (initial.not_has has).elim

theorem not_signed (_ : TokenInv state) {jti : Jti}
    (fresh : state.fresh jti = true) :
    ¬∃ payload ∈ state.signed, payload.jti = some jti := by
  intro signed
  rw [State.fresh_eq_false_iff.mpr signed] at fresh
  cases fresh

theorem signed_of_checked (inv : TokenInv state) {call : CallId} {jti : Jti}
    (has : state.Has Call.checked? call jti) :
    ∃ payload ∈ state.signed, payload.jti = some jti := by
  obtain ⟨value, present, checked⟩ := has
  unfold Call.checked? at checked
  split at checked <;> cases checked
  · obtain ⟨signed, claim⟩ := inv.held present
    exact ⟨_, signed, claim⟩
  · obtain ⟨signed, claim⟩ := inv.held present
    exact ⟨_, signed, claim⟩

theorem signed_of_spent (inv : TokenInv state) {call : CallId} {jti : Jti}
    (has : state.Has Call.spent? call jti) :
    ∃ payload ∈ state.signed, payload.jti = some jti := by
  obtain ⟨value, present, spent⟩ := has
  unfold Call.spent? at spent
  split at spent <;> cases spent
  · obtain ⟨signed, claim⟩ := inv.held present
    exact ⟨_, signed, claim⟩
  · obtain ⟨signed, claim⟩ := inv.held present
    exact ⟨_, signed, claim⟩

section Proceed

variable {call : CallId} {input : Input} {value value' : Call}

private theorem unique_of_signed (inv : TokenInv state)
    (case : ProceedStep state value input next value')
    {payload payload' : JwtPayload} (signed : payload ∈ next.signed)
    (signed' : payload' ∈ next.signed) {jti : Jti}
    (claim : payload.jti = some jti) (claim' : payload'.jti = some jti) :
    payload = payload' := by
  obtain same | ⟨sub, user, newJti, fresh, more⟩ := case.signed_cases
  · rw [same] at signed signed'
    exact inv.unique signed signed' claim claim'
  · have isNew : ∀ {other : JwtPayload}, other ∈ next.signed →
        other.jti = some jti → other ∈ state.signed ∨
          jti = newJti ∧ other = (issueTokens sub user newJti).refreshToken := by
      intro other member otherClaim
      rw [more] at member
      rcases List.mem_append.mp member with old | new
      · exact .inl old
      · simp only [List.mem_cons, List.not_mem_nil, or_false] at new
        rcases new with rfl | rfl
        · cases otherClaim
        · cases otherClaim
          exact .inr ⟨rfl, rfl⟩
    rcases isNew signed claim with old | ⟨rfl, rfl⟩
    · rcases isNew signed' claim' with old' | ⟨rfl, rfl⟩
      · exact inv.unique old old' claim claim'
      · exact (inv.not_signed fresh ⟨_, old, claim⟩).elim
    · rcases isNew signed' claim' with old' | ⟨-, rfl⟩
      · exact (inv.not_signed fresh ⟨_, old', claim'⟩).elim
      · rfl

/-- A JTI that is pending after the step is not in Redis before it, and the
step does not store it. -/
private theorem invalid_of_pending (inv : TokenInv state)
    (present : state.calls call = some value)
    (case : ProceedStep state value input next value') {other : CallId}
    {jti : Jti} (has : (next.set call value').Has Call.pending? other jti) :
    state.jtis jti = false ∧ value.pending? ≠ some jti := by
  rcases State.has_set case.calls has with ⟨-, pending⟩ | ⟨ne, before⟩
  · have none := inv.not_signed (case.fresh_of_pending pending)
    constructor
    · by_contra valid
      exact none (inv.known (by simpa using valid))
    · intro old
      exact none (inv.pendingSigned ⟨value, present, old⟩)
  · refine ⟨inv.pendingInvalid before, fun old => ne ?_⟩
    exact inv.pendingAlone before ⟨value, present, old⟩

private theorem unrelated_of_pending (inv : TokenInv state)
    (case : ProceedStep state value input next value')
    {relation : Call → Option Jti} {other : CallId} {jti : Jti}
    (has : (next.set call value').Has Call.pending? other jti)
    (isSigned : ∀ {holder jti}, state.Has relation holder jti →
      ∃ payload ∈ state.signed, payload.jti = some jti)
    (isApart : ∀ {holder jti}, state.Has Call.pending? holder jti →
      ∀ other, ¬state.Has relation other jti) (holder : CallId) :
    ¬state.Has relation holder jti := by
  intro held
  rcases State.has_set case.calls has with ⟨-, pending⟩ | ⟨-, before⟩
  · exact inv.not_signed (case.fresh_of_pending pending) (isSigned held)
  · exact isApart before holder held

theorem proceed (inv : TokenInv state)
    (present : state.calls call = some value)
    (taken : Auth.proceed state input value = some (next, value')) :
    TokenInv (next.set call value') := by
  have case := ProceedStep.of_proceed taken
  have signedOf : ∀ {jti}, (∃ payload ∈ state.signed,
      payload.jti = some jti) → ∃ payload ∈ next.signed,
        payload.jti = some jti := by
    rintro jti ⟨payload, signed, claim⟩
    exact ⟨payload, case.mem_signed signed, claim⟩
  constructor
  case known =>
    intro jti valid
    rcases case.jtis_cases valid with before | pending
    · exact signedOf (inv.known before)
    · exact signedOf (inv.pendingSigned ⟨value, present, pending⟩)
  case unique =>
    intro payload signed payload' signed' jti claim claim'
    exact inv.unique_of_signed case signed signed' claim claim'
  case held =>
    intro other payload jti phase found
    rw [State.calls_set, case.calls] at found
    split at found
    · cases found
      obtain ⟨before, rfl⟩ := ProceedStep.token taken
      obtain ⟨signed, claim⟩ := inv.held present
      exact ⟨case.mem_signed signed, claim⟩
    · obtain ⟨signed, claim⟩ := inv.held found
      exact ⟨case.mem_signed signed, claim⟩
  case pendingSigned =>
    intro other jti has
    rcases State.has_set case.calls has with ⟨-, pending⟩ | ⟨-, before⟩
    · exact case.signed_of_pending pending
    · exact signedOf (inv.pendingSigned before)
  case pendingAlone =>
    intro first second jti
    apply State.alone_set case.calls inv.pendingAlone
    intro pending other _ before
    exact inv.not_signed (case.fresh_of_pending pending)
      (inv.pendingSigned before)
  case pendingInvalid =>
    intro other jti has
    obtain ⟨before, notPending⟩ := inv.invalid_of_pending present case has
    by_contra valid
    rcases case.jtis_cases (Bool.eq_true_of_not_eq_false valid) with
      still | pending
    · rw [before] at still
      cases still
    · exact notPending pending
  case pendingUnchecked =>
    intro other jti has holder held
    have unchecked := inv.unrelated_of_pending case has inv.signed_of_checked
      inv.pendingUnchecked
    rcases State.has_set case.calls held with ⟨-, checked⟩ | ⟨-, before⟩
    · rcases case.checked_cases checked with old | valid
      · exact unchecked call ⟨value, present, old⟩
      · rw [(inv.invalid_of_pending present case has).1] at valid
        cases valid
    · exact unchecked holder before
  case pendingUnspent =>
    intro other jti has holder held
    have unspent := inv.unrelated_of_pending case has inv.signed_of_spent
      inv.pendingUnspent
    have unchecked := inv.unrelated_of_pending case has inv.signed_of_checked
      inv.pendingUnchecked
    rcases State.has_set case.calls held with ⟨-, spent⟩ | ⟨-, before⟩
    · rcases case.spent_cases spent with old | checked
      · exact unspent call ⟨value, present, old⟩
      · exact unchecked call ⟨value, present, checked⟩
    · exact unspent holder before

end Proceed

private theorem mono (inv : TokenInv state)
    (jtis : ∀ {jti}, next.jtis jti = true → state.jtis jti = true)
    (signed : next.signed = state.signed)
    (held : ∀ {call payload jti phase},
      next.calls call = some (.refresh payload jti phase) →
        payload ∈ state.signed ∧ payload.jti = some jti)
    (has : ∀ {relation call jti},
      relation = Call.pending? ∨ relation = Call.checked? ∨
        relation = Call.spent? →
      next.Has relation call jti → state.Has relation call jti) :
    TokenInv next where
  known valid := signed ▸ inv.known (jtis valid)
  unique := by
    rw [signed]
    exact inv.unique
  held := by
    rw [signed]
    exact held
  pendingSigned pending := signed ▸ inv.pendingSigned (has (.inl rfl) pending)
  pendingAlone first second :=
    inv.pendingAlone (has (.inl rfl) first) (has (.inl rfl) second)
  pendingInvalid pending := by
    have before := inv.pendingInvalid (has (.inl rfl) pending)
    by_contra valid
    rw [jtis (Bool.eq_true_of_not_eq_false valid)] at before
    cases before
  pendingUnchecked pending other checked :=
    inv.pendingUnchecked (has (.inl rfl) pending) other
      (has (.inr (.inl rfl)) checked)
  pendingUnspent pending other spent :=
    inv.pendingUnspent (has (.inl rfl) pending) other
      (has (.inr (.inr rfl)) spent)

theorem step {action : Action} (inv : TokenInv state)
    (taken : Auth.step state action = some next) : TokenInv next := by
  cases Step.of_step taken with
  | @began _ call value absent pending checked spent token =>
      refine inv.mono (fun valid => valid) rfl ?_ ?_
      · intro other payload jti phase found
        rw [State.calls_set] at found
        split at found
        · cases found
          obtain ⟨signed, claim, -⟩ := token _ _ _ rfl
          exact ⟨signed, claim⟩
        · exact inv.held found
      · intro relation other jti isRelation has
        rcases isRelation with rfl | rfl | rfl
        · exact State.has_of_set pending has
        · exact State.has_of_set checked has
        · exact State.has_of_set spent has
  | proceeded present proceeds => exact inv.proceed present proceeds
  | expired => exact inv.mono State.jtis_of_revoked rfl inv.held fun _ has => has

theorem run {start last : State} {trace : List (Transition State Action)}
    (run : Run Auth.step start trace last) (initial : Initial start) :
    TokenInv last := by
  induction run with
  | nil => exact .initial initial
  | snoc _ taken induction => exact induction.step taken

end TokenInv

/-! ## One refresh at a time -/

/-- When a refresh deletes its JTI, no other refresh of the same token stands
between its check and its deletion. -/
def Alone (transition : Transition State Action) : Prop :=
  ∀ call newJti payload jti user,
    transition.action = .proceed call (.nonce newJti) →
    transition.before.calls call =
      some (.refresh payload jti (.revoke user)) →
    ∀ other, other ≠ call → ¬transition.before.Has Call.checked? other jti

/-- A JTI that a refresh has spent is gone, and nobody else has it. -/
structure SpentInv (state : State) : Prop where
  invalid : ∀ {call jti}, state.Has Call.spent? call jti →
    state.jtis jti = false
  unchecked : ∀ {call jti}, state.Has Call.spent? call jti →
    ∀ other, ¬state.Has Call.checked? other jti
  alone : ∀ {first second jti}, state.Has Call.spent? first jti →
    state.Has Call.spent? second jti → first = second

namespace SpentInv

variable {state next : State}

theorem initial (initial : Initial state) : SpentInv state where
  invalid has := (initial.not_has has).elim
  unchecked has := (initial.not_has has).elim
  alone has _ := (initial.not_has has).elim

theorem proceed {call : CallId} {input : Input} {value value' : Call}
    (inv : SpentInv state) (tokens : TokenInv state)
    (present : state.calls call = some value)
    (case : ProceedStep state value input next value')
    (alone : ∀ newJti payload jti user, input = .nonce newJti →
      value = .refresh payload jti (.revoke user) →
      ∀ other, other ≠ call → ¬state.Has Call.checked? other jti) :
    SpentInv (next.set call value') := by
  have stays : ∀ {other jti}, state.Has Call.spent? other jti →
      next.jtis jti = false := by
    intro other jti spent
    by_contra valid
    rcases case.jtis_cases (Bool.eq_true_of_not_eq_false valid) with
      before | pending
    · rw [inv.invalid spent] at before
      cases before
    · exact tokens.pendingUnspent ⟨value, present, pending⟩ other spent
  constructor
  case invalid =>
    intro other jti has
    rcases State.has_set case.calls has with ⟨-, spent⟩ | ⟨-, before⟩
    · rcases case.rotated_cases spent with old | ⟨gone, -⟩
      · exact stays ⟨value, present, old⟩
      · exact gone
    · exact stays before
  case unchecked =>
    intro other jti has holder held
    rcases State.has_set case.calls held with ⟨rfl, checked⟩ | ⟨ne, checked⟩
    · rcases State.has_set case.calls has with ⟨-, spent⟩ | ⟨-, spent⟩
      · exact Call.not_spent?_of_checked? checked spent
      · rcases case.checked_cases checked with old | valid
        · exact inv.unchecked spent _ ⟨value, present, old⟩
        · rw [inv.invalid spent] at valid
          cases valid
    · rcases State.has_set case.calls has with ⟨-, spent⟩ | ⟨-, spent⟩
      · rcases case.rotated_cases spent with
          old | ⟨-, newJti, payload, user, isNonce, isRevoke⟩
        · exact inv.unchecked ⟨value, present, old⟩ holder checked
        · exact alone newJti payload jti user isNonce isRevoke holder ne
            checked
      · exact inv.unchecked spent holder checked
  case alone =>
    intro first second jti
    apply State.alone_set case.calls inv.alone
    intro spent other ne before
    rcases case.spent_cases spent with old | checked
    · exact ne (inv.alone before ⟨value, present, old⟩)
    · exact inv.unchecked before call ⟨value, present, checked⟩

theorem step {action : Action} (inv : SpentInv state)
    (tokens : TokenInv state)
    (taken : Auth.step state action = some next)
    (alone : Alone ⟨state, action, next⟩) : SpentInv next := by
  cases Step.of_step taken with
  | @began _ call value absent pending checked spent token =>
      constructor
      · intro other jti has
        exact inv.invalid (State.has_of_set spent has)
      · intro other jti has holder held
        exact inv.unchecked (State.has_of_set spent has) holder
          (State.has_of_set checked held)
      · intro first second jti hasFirst hasSecond
        exact inv.alone (State.has_of_set spent hasFirst)
          (State.has_of_set spent hasSecond)
  | @proceeded call input value value' middle present proceeds =>
      apply inv.proceed tokens present (.of_proceed proceeds)
      rintro newJti payload jti user rfl rfl
      exact alone call newJti payload jti user rfl present
  | expired =>
      constructor
      · intro other jti has
        by_contra valid
        have still := State.jtis_of_revoked
          (Bool.eq_true_of_not_eq_false valid)
        rw [inv.invalid has] at still
        cases still
      · exact inv.unchecked
      · exact inv.alone

theorem run {start last : State} {trace : List (Transition State Action)}
    (run : Run Auth.step start trace last) (initial : Initial start)
    (alone : ∀ transition ∈ trace, Alone transition) : SpentInv last := by
  induction run with
  | nil => exact .initial initial
  | snoc earlier taken induction =>
      have before := induction fun transition member =>
        alone transition (List.mem_append_left _ member)
      apply before.step (TokenInv.run earlier initial) taken
      exact alone _ (List.mem_append_right _ (List.mem_singleton_self _))

theorem singleUse (inv : SpentInv state) : state.SingleUse := by
  intro jti first second value value' present exchanged present' exchanged'
  apply inv.alone
  · exact ⟨value, present, Call.spent?_of_exchanged? exchanged⟩
  · exact ⟨value', present', Call.spent?_of_exchanged? exchanged'⟩

end SpentInv

/-! ## A second request that has passed the check goes through -/

/-- A refresh that is about to delete its JTI has found its user. -/
def UserInv (state : State) : Prop :=
  ∀ call payload jti user,
    state.calls call = some (.refresh payload jti (.revoke user)) →
    (state.users.get? payload.sub).isSome

theorem revoking_user {state next : State} {input : Input} {value : Call}
    {payload : JwtPayload} {jti : Jti} {user : User}
    (taken : proceed state input value =
      some (next, .refresh payload jti (.revoke user))) :
    (state.users.get? payload.sub).isSome := by
  obtain ⟨phase, rfl⟩ := ProceedStep.token taken
  simp only [proceed, Option.map_eq_some_iff, Prod.exists, Prod.map_apply,
    Prod.mk.injEq, Call.refresh.injEq, true_and] at taken
  obtain ⟨_, _, taken, -, rfl⟩ := taken
  unfold refresh at taken
  split at taken
  · split at taken <;> cases taken
  · split at taken
    · cases taken
    · rename_i found
      rw [found]
      rfl
  · split at taken <;> cases taken
  · cases taken
  · cases taken
  · cases taken
  · cases taken

theorem userInv_step {state next : State} {action : Action}
    (inv : UserInv state) (taken : step state action = some next) :
    UserInv next := by
  cases Step.of_step taken with
  | @began _ call value absent pending checked spent token =>
      intro other payload jti user found
      rw [State.calls_set] at found
      split at found
      · cases found
        cases checked
      · exact inv other payload jti user found
  | @proceeded call input value value' middle present proceeds =>
      have case := ProceedStep.of_proceed proceeds
      intro other payload jti user found
      apply case.users
      rw [State.calls_set, case.calls] at found
      split at found
      · cases found
        exact revoking_user proceeds
      · exact inv other payload jti user found
  | expired => exact inv

theorem UserInv.run {start last : State}
    {trace : List (Transition State Action)}
    (run : Run step start trace last) (initial : Initial start) :
    UserInv last := by
  induction run with
  | nil =>
      intro call payload jti user found
      rw [initial.calls] at found
      cases found
  | snoc _ taken induction => exact userInv_step induction taken

theorem exists_fresh (state : State) : ∃ jti, state.fresh jti = true := by
  obtain ⟨jti, absent⟩ := Infinite.exists_notMem_finset
    (state.signed.filterMap (·.jti)).toFinset
  refine ⟨jti, List.all_eq_true.mpr ?_⟩
  intro payload signed
  apply decide_eq_true
  intro claim
  apply absent
  rw [List.mem_toFinset]
  exact List.mem_filterMap.mpr ⟨payload, signed, claim⟩

section Leads

variable {state : State} {call : CallId} {payload : JwtPayload} {jti : Jti}

/-- The request can go on to this state of its own, while the other requests
stand where they were. -/
def Leads (state : State) (call : CallId) (value : Call) : Prop :=
  ∃ trace last, Run step state trace last ∧ last.calls call = some value ∧
    last.users = state.users ∧
    ∀ other, other ≠ call → last.calls other = state.calls other

theorem Leads.bind {value : Call} {goal : Call → Prop}
    (leads : Leads state call value)
    (further : ∀ {next : State}, next.calls call = some value →
      ∃ value', Leads next call value' ∧ goal value') :
    ∃ value', Leads state call value' ∧ goal value' := by
  obtain ⟨trace, middle, run, present, users, others⟩ := leads
  obtain ⟨value', ⟨trace', last, run', present', users', others'⟩, reached⟩ :=
    further present
  refine ⟨value', ⟨trace ++ trace', last, run.append run', present',
    users'.trans users, ?_⟩, reached⟩
  intro other ne
  exact (others' other ne).trans (others other ne)

theorem Leads.of_proceed {input : Input} {value value' : Call}
    {middle : State} (present : state.calls call = some value)
    (taken : proceed state input value = some (middle, value'))
    (calls : middle.calls = state.calls) (users : middle.users = state.users) :
    Leads state call value' := by
  have stepped : step state (.proceed call input) =
      some (middle.set call value') := by
    simp only [step, present, taken, Option.map_some]
  refine ⟨_, _, Run.single stepped, ?_, users, ?_⟩
  · rw [State.calls_set, if_pos rfl]
  · intro other ne
    rw [State.calls_set, if_neg ne, calls]

theorem leads_findUser
    (present : state.calls call = some (.refresh payload jti .findUser))
    (known : (state.users.get? payload.sub).isSome) :
    ∃ user, Leads state call (.refresh payload jti (.revoke user)) := by
  obtain ⟨user, found⟩ := Option.isSome_iff_exists.mp known
  have taken : proceed state .ok (.refresh payload jti .findUser) =
      some (state, .refresh payload jti (.revoke user)) := by
    simp only [proceed, refresh, found, Option.map_some, Prod.map_apply, id_eq]
  exact ⟨user, .of_proceed present taken rfl rfl⟩

theorem leads_revoke {user : User}
    (present : state.calls call =
      some (.refresh payload jti (.revoke user))) :
    ∃ tokens, Leads state call (.refresh payload jti (.store tokens)) := by
  obtain ⟨newJti, fresh⟩ := exists_fresh state
  have taken : proceed state (.nonce newJti)
      (.refresh payload jti (.revoke user)) =
      some ((state.revokeRefreshJti jti).sign
          (issueTokens payload.sub user newJti),
        .refresh payload jti
          (.store (issueTokens payload.sub user newJti))) := by
    simp only [proceed, refresh, fresh, if_true, Option.map_some,
      Prod.map_apply, id_eq]
  exact ⟨_, .of_proceed present taken rfl rfl⟩

theorem leads_store {tokens : Tokens}
    (present : state.calls call =
      some (.refresh payload jti (.store tokens))) :
    Leads state call
      (.refresh payload jti (.answered (.ok (.refreshed tokens)))) := by
  have taken : proceed state .ok (.refresh payload jti (.store tokens)) =
      some (state.storeRefreshJti tokens.jti,
        .refresh payload jti (.answered (.ok (.refreshed tokens)))) := rfl
  exact .of_proceed present taken rfl rfl

theorem leads_exchange_of_revoke {user : User}
    (present : state.calls call =
      some (.refresh payload jti (.revoke user))) :
    ∃ value, Leads state call value ∧ value.exchanged? = some jti := by
  obtain ⟨tokens, stores⟩ := leads_revoke present
  apply stores.bind
  intro next isStore
  exact ⟨_, leads_store isStore, rfl⟩

/-- A refresh that has passed the check can be answered with new tokens. -/
theorem leads_exchange {value : Call}
    (present : state.calls call = some value)
    (checked : value.checked? = some jti)
    (known : ∀ {payload phase}, value = .refresh payload jti phase →
      (state.users.get? payload.sub).isSome) :
    ∃ value', Leads state call value' ∧ value'.exchanged? = some jti := by
  unfold Call.checked? at checked
  split at checked <;> cases checked
  · obtain ⟨user, revokes⟩ := leads_findUser present (known rfl)
    apply revokes.bind
    intro next isRevoke
    exact leads_exchange_of_revoke isRevoke
  · exact leads_exchange_of_revoke present

end Leads

/-- Two refreshes of one token, of which one deletes the JTI while the other
has passed the check, can both go through. -/
theorem exists_double_exchange {state next : State} {action : Action}
    (tokens : TokenInv state) (users : UserInv state)
    (taken : step state action = some next)
    (meets : ¬Alone ⟨state, action, next⟩) :
    ∃ trace last, Run step next trace last ∧ ¬last.SingleUse := by
  simp only [Alone, not_forall, not_not] at meets
  obtain ⟨call, newJti, payload, jti, user, rfl, present, other, ne, value,
    otherPresent, checked⟩ := meets
  -- After the deletion the first refresh stores its new JTI.
  have stored : next.calls call = some (.refresh payload jti
        (.store (issueTokens payload.sub user newJti))) ∧
      next.calls other = some value ∧ next.users = state.users := by
    simp only [step, present, proceed, refresh] at taken
    split at taken
    · cases taken
      refine ⟨?_, ?_, rfl⟩
      · rw [State.calls_set, if_pos rfl]
        rfl
      · rw [State.calls_set, if_neg ne]
        exact otherPresent
    · cases taken
  obtain ⟨isStore, otherStays, sameUsers⟩ := stored
  obtain ⟨trace, middle, run, isAnswered, users', others⟩ :=
    leads_store isStore
  -- The second one bears the same token, so its user exists as well.
  have known : ∀ {payload' phase}, value = .refresh payload' jti phase →
      (middle.users.get? payload'.sub).isSome := by
    rintro payload' phase rfl
    obtain ⟨signed, claim⟩ := tokens.held present
    obtain ⟨signed', claim'⟩ := tokens.held otherPresent
    rw [users', sameUsers, ← tokens.unique signed signed' claim claim']
    exact users call payload jti user present
  have otherNow : middle.calls other = some value :=
    (others other ne).trans otherStays
  obtain ⟨value', ⟨trace', last, run', otherAnswered, -, others'⟩,
    exchanged⟩ := leads_exchange otherNow checked known
  refine ⟨trace ++ trace', last, run.append run', ?_⟩
  intro single
  have callAnswered := (others' call (Ne.symm ne)).trans isAnswered
  exact ne (single jti other call value' _ otherAnswered exchanged
    callAnswered rfl)

/-- If no refresh deletes its JTI while another one of the same token has
passed the check, every refresh token is exchanged at most once.  After any
other deletion the two requests can both be answered with new tokens. -/
theorem refresh_tokens_single_use {start last : State}
    {trace : List (Transition State Action)}
    (run : Run step start trace last) (initial : Initial start) :
    ((∀ transition ∈ trace, Alone transition) → last.SingleUse) ∧
      ∀ transition ∈ trace, ¬Alone transition →
        ∃ more final, Run step transition.after more final ∧
          ¬final.SingleUse := by
  constructor
  · intro alone
    exact (SpentInv.run run initial alone).singleUse
  · intro transition member meets
    obtain ⟨earlier, later, rfl⟩ := List.append_of_mem member
    obtain ⟨before, taken, -⟩ := run.around
    exact exists_double_exchange (TokenInv.run before initial)
      (UserInv.run before initial) taken meets

/-! ## Two requests with one token -/

def User.sample : User := ⟨"user@example.com", "hash", .member⟩

/-- User 1 has registered, and nothing is in progress. -/
def State.oneUser : State where
  users := ⟨[(1, .sample)], by simp⟩
  organizations := .empty
  memberships := .empty
  jtis _ := false
  signed := []
  calls _ := none

theorem State.oneUser_initial : Initial State.oneUser where
  calls _ := rfl
  known valid := by cases valid
  unique signed := by cases signed

/-- The refresh token that the login below obtains. -/
def JwtPayload.sample : JwtPayload :=
  (issueTokens 1 .sample 100).refreshToken

/-- A login that is answered with the refresh token of JTI 100. -/
def loginActions : List Action :=
  [.login 1 ⟨"user@example.com", "password"⟩, .proceed 1 .ok,
    .proceed 1 (.compared (some 100)), .proceed 1 .ok]

/-- One refresh after the other: the second one is refused. -/
theorem refresh_tokens_single_use_rotated : ∃ trace last,
    Run step State.oneUser trace last ∧
      (last.calls 2).bind Call.exchanged? = some 100 ∧
      (last.calls 3).bind Call.exchanged? = none ∧ last.SingleUse := by
  have recorded : ∃ trace last,
      record step State.oneUser
          (loginActions ++
            ([.refresh 2 (.verified .sample), .proceed 2 .ok, .proceed 2 .ok,
              .proceed 2 (.nonce 200), .proceed 2 .ok,
              .refresh 3 (.verified .sample), .proceed 3 .ok] :
              List Action)) =
        some (trace, last) ∧
      (last.calls 2).bind Call.exchanged? = some 100 ∧
      (last.calls 3).bind Call.exchanged? = none ∧
      ∀ transition ∈ trace, Alone transition := by
    refine ⟨_, _, rfl, rfl, rfl, ?_⟩
    intro transition member
    simp only [List.mem_cons, List.not_mem_nil, or_false] at member
    rcases member with
      rfl | rfl | rfl | rfl | rfl | rfl | rfl | rfl | rfl | rfl | rfl
    all_goals rintro call newJti payload jti user ⟨⟩ present
    -- The one deletion, with the login as the only other request.
    rintro other ne ⟨value, found, checked⟩
    by_cases login : other = 1
    · subst other
      cases found
      cases checked
    · simp [State.set, State.sign, State.storeRefreshJti, State.oneUser,
        login, ne] at found
  obtain ⟨trace, last, recorded, exchanged, refused, alone⟩ := recorded
  have run : Run step State.oneUser trace last := .of_record recorded
  have holds := refresh_tokens_single_use run State.oneUser_initial
  exact ⟨trace, last, run, exchanged, refused, holds.1 alone⟩

/-- Without the condition it fails: two requests bearing the same token pass
the check before either deletes the JTI. -/
theorem refresh_token_exchanged_twice :
    ¬∀ (start last : State) (trace : List (Transition State Action)),
      Run step start trace last → Initial start → last.SingleUse := by
  intro single
  obtain ⟨trace, last, run, first, second⟩ :=
    exists_run_of_check step State.oneUser
      (loginActions ++
        ([.refresh 2 (.verified .sample), .refresh 3 (.verified .sample),
          .proceed 2 .ok, .proceed 3 .ok, .proceed 2 .ok, .proceed 3 .ok,
          .proceed 2 (.nonce 200), .proceed 3 (.nonce 300),
          .proceed 2 .ok, .proceed 3 .ok] : List Action))
      (fun _ last =>
        (last.calls 2).bind Call.exchanged? = some 100 ∧
        (last.calls 3).bind Call.exchanged? = some 100)
      (by decide)
  obtain ⟨value, present, exchanged⟩ := Option.bind_eq_some_iff.mp first
  obtain ⟨value', present', exchanged'⟩ := Option.bind_eq_some_iff.mp second
  have same := single _ last trace run State.oneUser_initial 100 2 3 value
    value' present exchanged present' exchanged'
  cases same

end Chronos.Auth
