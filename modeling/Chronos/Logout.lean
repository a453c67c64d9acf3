import Chronos.RefreshTokens
import Mathlib.Logic.Relation

/-!
# Logging out

The refresh tokens of a login form a chain: each refresh deletes one JTI and
stores the next.  A logout deletes the JTI that it presents.  This is final
when the chain has no other end: when no refresh has forked it, and none of
the presented token is between its check and its answer.
-/

namespace Chronos.Auth

/-- In this step a refresh deletes `jti` and draws `newJti`. -/
def Rotation (transition : Transition State Action) (jti newJti : Jti) :
    Prop :=
  ∃ call payload user, transition.action = .proceed call (.nonce newJti) ∧
    transition.before.calls call =
      some (.refresh payload jti (.revoke user))

def Rotates (trace : List (Transition State Action)) (jti newJti : Jti) :
    Prop :=
  ∃ transition ∈ trace, Rotation transition jti newJti

/-- The token comes from the first one by refreshes of this history. -/
def InChain (trace : List (Transition State Action)) (root jti : Jti) : Prop :=
  Relation.ReflTransGen (Rotates trace) root jti

/-- The client has this token and has got no newer one for it. -/
structure Current (state : State) (jti : Jti) : Prop where
  sent : ∀ call, ¬state.Has Call.pending? call jti
  newest : ∀ call, ¬state.Has Call.exchanged? call jti

/-- The logout `call` presents this token while it is current, and its
revocation ends, with which it is answered. -/
structure LogsOut (call : CallId) (jti : Jti)
    (begin revoke : Transition State Action) : Prop where
  presented : ∃ payload, begin.action = .logout call (.verified payload) ∧
    payload.jti = some jti
  current : Current begin.before jti
  answered : (∃ input, revoke.action = .proceed call input) ∧
    revoke.before.calls call = some (.logout jti)

/-- A refresh bearing this token passes its check in this step. -/
def Accepts (transition : Transition State Action) (jti : Jti) : Prop :=
  ∃ call payload, transition.action = .proceed call .ok ∧
    transition.before.calls call = some (.refresh payload jti .lookup) ∧
    transition.before.isRefreshJtiValid jti = true

/-- The refreshes of the chain take turns: none deletes its JTI while another
one of the same token has passed the check. -/
def RefreshesAlone (trace : List (Transition State Action)) (root : Jti) :
    Prop :=
  ∀ transition ∈ trace, ∀ jti newJti, InChain trace root jti →
    Rotation transition jti newJti → Alone transition

/-- The revocation of a logout succeeds, and no refresh of the same token has
passed its check, unless it has failed since. -/
structure RevokesAlone (revoke : Transition State Action) (jti : Jti) :
    Prop where
  succeeds : ∀ call error, revoke.action ≠ .proceed call (.fail error)
  unchecked : ∀ call, ¬revoke.before.Has Call.checked? call jti
  unspent : ∀ call, ¬revoke.before.Has Call.spent? call jti

/-! ## Tokens that are gone -/

/-- A JTI that is not in Redis and that no request will store or exchange. -/
structure Dead (state : State) (jti : Jti) : Prop where
  signed : ∃ payload ∈ state.signed, payload.jti = some jti
  invalid : state.jtis jti = false
  unchecked : ∀ call, ¬state.Has Call.checked? call jti
  unpending : ∀ call, ¬state.Has Call.pending? call jti

section Steps

variable {state next : State} {action : Action} {jti newJti : Jti}

theorem step_signed (taken : step state action = some next)
    {payload : JwtPayload} (signed : payload ∈ state.signed) :
    payload ∈ next.signed := by
  cases Step.of_step taken with
  | began => exact signed
  | proceeded _ proceeds =>
      exact (ProceedStep.of_proceed proceeds).mem_signed signed
  | expired => exact signed

theorem step_unpending (inv : TokenInv state)
    (taken : step state action = some next)
    (signed : ∃ payload ∈ state.signed, payload.jti = some jti)
    (unpending : ∀ call, ¬state.Has Call.pending? call jti) (call : CallId) :
    ¬next.Has Call.pending? call jti := by
  intro has
  cases Step.of_step taken with
  | began _ none =>
      exact unpending call (State.has_of_set none has)
  | proceeded _ proceeds =>
      have case := ProceedStep.of_proceed proceeds
      rcases State.has_set case.calls has with ⟨-, pending⟩ | ⟨-, before⟩
      · exact inv.not_signed (case.fresh_of_pending pending) signed
      · exact unpending call before
  | expired => exact unpending call has

namespace Dead

theorem step (dead : Dead state jti) (inv : TokenInv state)
    (taken : Auth.step state action = some next) : Dead next jti := by
  obtain ⟨payload, signed, claim⟩ := dead.signed
  refine ⟨⟨payload, step_signed taken signed, claim⟩, ?_, ?_,
    step_unpending inv taken dead.signed dead.unpending⟩
  · cases Step.of_step taken with
    | began => exact dead.invalid
    | proceeded present proceeds =>
        have case := ProceedStep.of_proceed proceeds
        by_contra valid
        rcases case.jtis_cases (Bool.eq_true_of_not_eq_false valid) with
          before | pending
        · rw [dead.invalid] at before
          cases before
        · exact dead.unpending _ ⟨_, present, pending⟩
    | expired =>
        by_contra valid
        have before := State.jtis_of_revoked
          (Bool.eq_true_of_not_eq_false valid)
        rw [dead.invalid] at before
        cases before
  · intro call has
    cases Step.of_step taken with
    | began _ _ none => exact dead.unchecked call (State.has_of_set none has)
    | proceeded present proceeds =>
        have case := ProceedStep.of_proceed proceeds
        rcases State.has_set case.calls has with ⟨-, checked⟩ | ⟨-, before⟩
        · rcases case.checked_cases checked with old | valid
          · exact dead.unchecked _ ⟨_, present, old⟩
          · rw [dead.invalid] at valid
            cases valid
        · exact dead.unchecked call before
    | expired => exact dead.unchecked call has

theorem not_accepts {transition : Transition State Action}
    (dead : Dead transition.before jti) : ¬Accepts transition jti := by
  rintro ⟨call, payload, -, -, valid⟩
  rw [State.isRefreshJtiValid, dead.invalid] at valid
  cases valid

theorem not_rotation {transition : Transition State Action}
    (dead : Dead transition.before jti) : ¬Rotation transition jti newJti := by
  rintro ⟨call, payload, user, -, present⟩
  exact dead.unchecked call ⟨_, present, rfl⟩

end Dead

/-! ## What a refresh leaves behind -/

/-- A refresh has deleted `jti`, and stores `newJti` or has stored it. -/
def Exchanging (state : State) (jti newJti : Jti) : Prop :=
  ∃ call payload, (∃ tokens,
      state.calls call = some (.refresh payload jti (.store tokens)) ∧
        tokens.jti = newJti) ∨
    ∃ body, state.calls call =
      some (.refresh payload jti (.answered (.ok body)))

theorem Exchanging.spent (exchanging : Exchanging state jti newJti) :
    ∃ call, state.Has Call.spent? call jti := by
  rcases exchanging with ⟨call, payload, ⟨tokens, present, -⟩ |
    ⟨body, present⟩⟩
  · exact ⟨call, _, present, rfl⟩
  · exact ⟨call, _, present, rfl⟩

theorem rotation_effect (taken : step state action = some next)
    (rotation : Rotation ⟨state, action, next⟩ jti newJti) :
    ∃ call payload user, action = .proceed call (.nonce newJti) ∧
      state.calls call = some (.refresh payload jti (.revoke user)) ∧
      state.fresh newJti = true ∧
      next = ((state.revokeRefreshJti jti).sign
          (issueTokens payload.sub user newJti)).set call
        (.refresh payload jti
          (.store (issueTokens payload.sub user newJti))) := by
  obtain ⟨call, payload, user, rfl, present⟩ := rotation
  dsimp only at present
  simp only [Auth.step, present, proceed, refresh] at taken
  split at taken
  · rename_i fresh
    cases taken
    exact ⟨call, payload, user, rfl, present, fresh, rfl⟩
  · cases taken

private theorem store_cases {middle : State} {input : Input} {value : Call}
    {payload : JwtPayload} {tokens : Tokens}
    (proceeds : proceed state input (.refresh payload jti (.store tokens)) =
      some (middle, value)) :
    (∃ body, value = .refresh payload jti (.answered (.ok body))) ∨
      ∃ error, middle = state ∧
        value = .refresh payload jti (.answered (.error error)) := by
  simp only [proceed, Option.map_eq_some_iff, Prod.exists, Prod.map_apply,
    Prod.mk.injEq, id_eq] at proceeds
  obtain ⟨_, phase, taken, rfl, rfl⟩ := proceeds
  cases input with
  | ok =>
      cases taken
      exact .inl ⟨_, rfl⟩
  | fail error =>
      cases taken
      exact .inr ⟨_, rfl, rfl⟩
  | _ => cases taken

theorem step_stays (taken : step state action = some next) {call : CallId}
    {value : Call} (present : state.calls call = some value) :
    next.calls call = some value ∨
      ∃ input middle value', proceed state input value = some (middle, value') ∧
        next = middle.set call value' := by
  cases Step.of_step taken with
  | began absent =>
      left
      rw [State.calls_set, if_neg, present]
      rintro rfl
      rw [absent] at present
      cases present
  | @proceeded other input value₂ value' middle present' proceeds =>
      by_cases same : call = other
      · subst other
        cases present.symm.trans present'
        exact .inr ⟨input, middle, value', proceeds, rfl⟩
      · left
        rw [State.calls_set, if_neg same,
          (ProceedStep.of_proceed proceeds).calls, present]
  | expired => exact .inl present

/-- An exchange goes on until its request fails to store the new token, which
is gone then. -/
theorem Exchanging.step (exchanging : Exchanging state jti newJti)
    (inv : TokenInv state) (taken : Auth.step state action = some next) :
    Exchanging next jti newJti ∨
      Dead next newJti ∧ ∃ call, state.Has Call.pending? call newJti := by
  rcases exchanging with ⟨call, payload, ⟨tokens, present, rfl⟩ |
    ⟨body, present⟩⟩
  · have pending : state.Has Call.pending? call tokens.jti :=
      ⟨_, present, rfl⟩
    rcases step_stays taken present with
      stays | ⟨input, middle, value', proceeds, rfl⟩
    · exact .inl ⟨call, payload, .inl ⟨tokens, stays, rfl⟩⟩
    · rcases store_cases proceeds with ⟨body, rfl⟩ | ⟨error, rfl, rfl⟩
      · left
        refine ⟨call, payload, .inr ⟨body, ?_⟩⟩
        rw [State.calls_set, if_pos rfl]
      · refine .inr ⟨⟨inv.pendingSigned pending, inv.pendingInvalid pending,
          ?_, ?_⟩, call, pending⟩
        · intro other has
          exact inv.pendingUnchecked pending other
            (State.has_of_set rfl has)
        · intro other has
          rcases State.has_set rfl has with ⟨-, isPending⟩ | ⟨ne, before⟩
          · cases isPending
          · exact ne (inv.pendingAlone before pending)
  · rcases step_stays taken present with
      stays | ⟨input, middle, value', proceeds, rfl⟩
    · exact .inl ⟨call, payload, .inr ⟨body, stays⟩⟩
    · simp [proceed, refresh] at proceeds

/-! ## The rotations of a history -/

/-- What the rotations so far have made of the tokens.  A rotated token is not
stored again; if its refresh was alone it is gone; and the new one is in the
hands of the refresh, or gone. -/
structure RotationInv (trace : List (Transition State Action))
    (state : State) : Prop where
  settled : ∀ {jti newJti}, Rotates trace jti newJti →
    (∃ payload ∈ state.signed, payload.jti = some jti) ∧
      ∀ call, ¬state.Has Call.pending? call jti
  dead : ∀ {transition jti newJti}, transition ∈ trace →
    Rotation transition jti newJti → Alone transition → Dead state jti
  unique : ∀ {first second jti newJti other}, first ∈ trace →
    second ∈ trace → Rotation first jti newJti → Rotation second jti other →
    Alone first → Alone second → newJti = other
  outcome : ∀ {jti newJti}, Rotates trace jti newJti →
    Exchanging state jti newJti ∨
      Dead state newJti ∧ ∀ later, ¬Rotates trace newJti later

namespace RotationInv

variable {start last : State} {trace : List (Transition State Action)}

theorem rotates_snoc {transition : Transition State Action} :
    Rotates (trace ++ [transition]) jti newJti ↔
      Rotates trace jti newJti ∨ Rotation transition jti newJti := by
  simp [Rotates, or_and_right, exists_or]

theorem checked_of_rotation
    (rotation : Rotation ⟨state, action, next⟩ jti newJti) :
    ∃ call, state.Has Call.checked? call jti := by
  obtain ⟨call, payload, user, isAction, present⟩ := rotation
  exact ⟨call, _, present, rfl⟩

private theorem settled_of_rotation (inv : TokenInv state)
    (taken : Auth.step state action = some next)
    (rotation : Rotation ⟨state, action, next⟩ jti newJti) :
    (∃ payload ∈ next.signed, payload.jti = some jti) ∧
      ∀ call, ¬next.Has Call.pending? call jti := by
  obtain ⟨call, checked⟩ := checked_of_rotation rotation
  obtain ⟨payload, signed, claim⟩ := inv.signed_of_checked checked
  refine ⟨⟨payload, step_signed taken signed, claim⟩, ?_⟩
  apply step_unpending inv taken ⟨payload, signed, claim⟩
  intro other pending
  exact inv.pendingUnchecked pending call checked

/-- A refresh that is alone leaves a token that is gone. -/
private theorem dead_of_rotation (inv : TokenInv state)
    (taken : Auth.step state action = some next)
    (rotation : Rotation ⟨state, action, next⟩ jti newJti)
    (alone : Alone ⟨state, action, next⟩) : Dead next jti := by
  obtain ⟨signed, unpending⟩ := settled_of_rotation inv taken rotation
  obtain ⟨call, payload, user, rfl, present, -, rfl⟩ :=
    rotation_effect taken rotation
  refine ⟨signed, Function.update_self .., ?_, unpending⟩
  intro other has
  rcases State.has_set rfl has with ⟨-, checked⟩ | ⟨ne, before⟩
  · cases checked
  · exact alone call newJti payload jti user rfl present other ne before

private theorem exchanging_of_rotation
    (taken : Auth.step state action = some next)
    (rotation : Rotation ⟨state, action, next⟩ jti newJti) :
    Exchanging next jti newJti := by
  obtain ⟨call, payload, user, -, -, -, rfl⟩ :=
    rotation_effect taken rotation
  refine ⟨call, payload, .inl ⟨issueTokens payload.sub user newJti, ?_, rfl⟩⟩
  rw [State.calls_set, if_pos rfl]

theorem initial : RotationInv [] start where
  settled := by
    rintro jti newJti ⟨transition, member, -⟩
    cases member
  dead member := by cases member
  unique member := by cases member
  outcome := by
    rintro jti newJti ⟨transition, member, -⟩
    cases member

theorem step (rotations : RotationInv trace state) (inv : TokenInv state)
    (taken : Auth.step state action = some next) :
    RotationInv (trace ++ [⟨state, action, next⟩]) next := by
  constructor
  · intro jti newJti rotates
    rcases rotates_snoc.mp rotates with old | rotation
    · obtain ⟨⟨payload, signed, claim⟩, unpending⟩ := rotations.settled old
      exact ⟨⟨payload, step_signed taken signed, claim⟩,
        step_unpending inv taken ⟨payload, signed, claim⟩ unpending⟩
    · exact settled_of_rotation inv taken rotation
  · intro transition jti newJti member rotation alone
    rcases List.mem_append.mp member with old | new
    · exact (rotations.dead old rotation alone).step inv taken
    · cases List.mem_singleton.mp new
      exact dead_of_rotation inv taken rotation alone
  · intro first second jti newJti other firstMember secondMember rotation
      rotation' alone alone'
    rcases List.mem_append.mp firstMember with old | new
    · rcases List.mem_append.mp secondMember with old' | new'
      · exact rotations.unique old old' rotation rotation' alone alone'
      · cases List.mem_singleton.mp new'
        exact ((rotations.dead old rotation alone).not_rotation
          rotation').elim
    · cases List.mem_singleton.mp new
      rcases List.mem_append.mp secondMember with old' | new'
      · exact ((rotations.dead old' rotation' alone').not_rotation
          rotation).elim
      · cases List.mem_singleton.mp new'
        obtain ⟨_, _, _, isAction, _⟩ := rotation
        obtain ⟨_, _, _, isAction', _⟩ := rotation'
        cases isAction.symm.trans isAction'
        rfl
  · intro jti newJti rotates
    rcases rotates_snoc.mp rotates with old | rotation
    · have unrotated : ∀ {later}, Dead state newJti →
          (¬Rotates trace newJti later) →
          ¬Rotates (trace ++ [⟨state, action, next⟩]) newJti later := by
        intro later dead none rotates
        rcases rotates_snoc.mp rotates with before | rotation
        · exact none before
        · exact dead.not_rotation rotation
      rcases rotations.outcome old with exchanging | ⟨dead, none⟩
      · rcases exchanging.step inv taken with still | ⟨dead, call, pending⟩
        · exact .inl still
        · refine .inr ⟨dead, ?_⟩
          intro later rotates
          rcases rotates_snoc.mp rotates with before | rotation
          · exact (rotations.settled before).2 call pending
          · obtain ⟨other, checked⟩ := checked_of_rotation rotation
            exact inv.pendingUnchecked pending other checked
      · exact .inr ⟨dead.step inv taken,
          fun later => unrotated dead (none later)⟩
    · exact .inl (exchanging_of_rotation taken rotation)

theorem run (run : Run Auth.step start trace last)
    (initial : Initial start) : RotationInv trace last := by
  induction run with
  | nil => exact .initial
  | snoc earlier taken induction =>
      exact induction.step (TokenInv.run earlier initial) taken

end RotationInv

/-! ## The chain after a logout -/

section Chain

variable {start last : State} {call : CallId} {root other : Jti}
  {trace : List (Transition State Action)}
  {begin revoke : Transition State Action}

/-- The rotations of the refreshes that were alone. -/
private def RotatesAlone (trace : List (Transition State Action))
    (jti newJti : Jti) : Prop :=
  ∃ transition ∈ trace, Rotation transition jti newJti ∧ Alone transition

private theorem rotatesAlone_chain (alone : RefreshesAlone trace root)
    (chain : InChain trace root jti) :
    Relation.ReflTransGen (RotatesAlone trace) root jti := by
  induction chain with
  | refl => exact .refl
  | tail earlier rotates induction =>
      obtain ⟨transition, member, rotation⟩ := rotates
      exact induction.tail ⟨transition, member, rotation,
        alone transition member _ _ earlier rotation⟩

/-- If no refresh of a token is under way or has been answered, the other
tokens of its chain are gone: the earlier ones have been deleted, and the new
one of a failed refresh was not stored. -/
private theorem others_dead (rotations : RotationInv trace state)
    (alone : RefreshesAlone trace root) (chain : InChain trace root jti)
    (unspent : ∀ call, ¬state.Has Call.spent? call jti)
    (also : InChain trace root other) (different : other ≠ jti) :
    Dead state other := by
  have unique : Relator.RightUnique (RotatesAlone trace) := by
    rintro jti newJti other ⟨first, member, rotation, isAlone⟩
      ⟨second, member', rotation', isAlone'⟩
    exact rotations.unique member member' rotation rotation' isAlone isAlone'
  rcases Relation.ReflTransGen.total_of_right_unique unique
      (rotatesAlone_chain alone also) (rotatesAlone_chain alone chain) with
    before | after
  · rcases before.cases_head with same | ⟨_, ⟨first, member, rotation,
      isAlone⟩, -⟩
    · exact (different same).elim
    · exact rotations.dead member rotation isAlone
  · rcases after.cases_head with same | ⟨newJti, ⟨first, member, rotation,
      isAlone⟩, rest⟩
    · exact (different same.symm).elim
    · rcases rotations.outcome ⟨first, member, rotation⟩ with
        exchanging | ⟨dead, none⟩
      · obtain ⟨holder, spent⟩ := exchanging.spent
        exact (unspent holder spent).elim
      · rcases rest.cases_head with rfl | ⟨later, ⟨second, member',
          rotation', -⟩, -⟩
        · exact dead
        · exact (none later ⟨second, member', rotation'⟩).elim

private theorem revoke_effect
    (taken : step revoke.before revoke.action = some revoke.after)
    (logsOut : LogsOut call jti begin revoke)
    (revokes : RevokesAlone revoke jti) :
    revoke.after = (revoke.before.revokeRefreshJti jti).set call
      (.answered (.ok .loggedOut)) := by
  obtain ⟨⟨input, isAction⟩, present⟩ := logsOut.answered
  have succeeds := revokes.succeeds call
  rw [isAction] at taken succeeds
  simp only [step, present, proceed] at taken
  cases input with
  | ok => exact (Option.some.inj taken).symm
  | fail error => exact (succeeds error rfl).elim
  | _ => cases taken

private theorem presented_kept (run : Run step begin.before trace last)
    (tokens : TokenInv begin.before)
    (signed : ∃ payload ∈ begin.before.signed, payload.jti = some jti)
    (sent : ∀ call, ¬begin.before.Has Call.pending? call jti) :
    (∃ payload ∈ last.signed, payload.jti = some jti) ∧
      ∀ call, ¬last.Has Call.pending? call jti := by
  have all : TokenInv last ∧
      (∃ payload ∈ last.signed, payload.jti = some jti) ∧
        ∀ call, ¬last.Has Call.pending? call jti := by
    refine run.invariant (fun state => TokenInv state ∧
      (∃ payload ∈ state.signed, payload.jti = some jti) ∧
        ∀ call, ¬state.Has Call.pending? call jti)
      (fun _ _ => trivial) ⟨tokens, signed, sent⟩ ?_
    rintro transition - taken ⟨tokens, ⟨payload, signed, claim⟩, sent⟩
    exact ⟨tokens.step taken, ⟨payload, step_signed taken signed, claim⟩,
      step_unpending tokens taken ⟨payload, signed, claim⟩ sent⟩
  exact all.2

/-- A dead token is neither accepted nor rotated in the rest of a run. -/
private theorem dead_before (run : Run step start trace last)
    (tokens : TokenInv start) (dead : Dead start jti)
    {transition : Transition State Action} (member : transition ∈ trace) :
    Dead transition.before jti := by
  have both := (run.invariant_before
    (fun state => TokenInv state ∧ Dead state jti) (fun _ _ => trivial)
    ⟨tokens, dead⟩ (by
      rintro transition - taken ⟨tokens, dead⟩
      exact ⟨tokens.step taken, dead.step tokens taken⟩) member).1
  exact both.2

/-- A logout whose revocation succeeds is final for the tokens of its chain,
if the refreshes of the chain took turns and none of the presented token
stands between its check and its answer when it is revoked. -/
theorem logout_final {earlier between later : List (Transition State Action)}
    (run : Run step start
      (earlier ++ begin :: (between ++ revoke :: later)) last)
    (initial : Initial start)
    (chain : InChain (earlier ++ begin :: between) root jti)
    (logsOut : LogsOut call jti begin revoke)
    (alone : RefreshesAlone (earlier ++ begin :: between) root)
    (revokes : RevokesAlone revoke jti) :
    ∀ transition ∈ later, ∀ other,
      InChain (earlier ++ begin :: (between ++ revoke :: later)) root other →
      ¬Accepts transition other := by
  have whole : earlier ++ begin :: (between ++ revoke :: later) =
      (earlier ++ begin :: between) ++ revoke :: later := by simp
  obtain ⟨toBegin, begun, fromBegin⟩ := run.around
  obtain ⟨toRevoke, -, -⟩ := fromBegin.around
  rw [whole] at run ⊢
  obtain ⟨before, taken, after⟩ := run.around
  have tokens := TokenInv.run before initial
  have rotations := RotationInv.run before initial
  -- The presented token is revoked.
  have presented : Dead revoke.after jti := by
    obtain ⟨payload, isBegin, claim⟩ := logsOut.presented
    have signed : payload ∈ begin.before.signed := by
      rw [isBegin] at begun
      simp only [step] at begun
      split at begun
      · rename_i presents
        simpa [State.presents] using presents
      · cases begun
    obtain ⟨stillSigned, unpending⟩ := presented_kept (.cons begun toRevoke)
      (TokenInv.run toBegin initial) ⟨payload, signed, claim⟩
      logsOut.current.sent
    rw [revoke_effect taken logsOut revokes]
    refine ⟨stillSigned, Function.update_self .., ?_, ?_⟩
    · intro other has
      exact revokes.unchecked other (State.has_of_set rfl has)
    · intro other has
      exact unpending other (State.has_of_set rfl has)
  have dead : ∀ {other}, InChain (earlier ++ begin :: between) root other →
      Dead revoke.after other := by
    intro other also
    by_cases same : other = jti
    · rw [same]
      exact presented
    · exact (others_dead rotations alone chain revokes.unspent also
        same).step tokens taken
  -- So the chain does not grow any more.
  have settled : ∀ {other},
      InChain ((earlier ++ begin :: between) ++ revoke :: later) root other →
      InChain (earlier ++ begin :: between) root other := by
    intro other also
    induction also with
    | refl => exact .refl
    | tail _ rotates induction =>
        obtain ⟨transition, member, rotation⟩ := rotates
        rcases List.mem_append.mp member with old | new
        · exact induction.tail ⟨transition, old, rotation⟩
        · rcases List.mem_cons.mp new with rfl | isLater
          · obtain ⟨⟨input, isAction⟩, present⟩ := logsOut.answered
            obtain ⟨_, _, _, isAction', present'⟩ := rotation
            cases isAction.symm.trans isAction'
            cases present.symm.trans present'
          · exact ((dead_before after (tokens.step taken) (dead induction)
              isLater).not_rotation rotation).elim
  intro transition member other also
  exact (dead_before after (tokens.step taken) (dead (settled also))
    member).not_accepts

end Chain

end Steps

/-! ## Runs with few requests -/

section Bounded

variable {state next start last : State} {action : Action} {bound : CallId}
  {trace : List (Transition State Action)}

/-- The request that an action begins or lets take a step. -/
def Action.request : Action → Option CallId
  | .register call _ => some call
  | .login call _ => some call
  | .refresh call _ => some call
  | .logout call _ => some call
  | .proceed call _ => some call
  | .expire _ => none

private theorem start_calls_none {begun call : CallId} {value : Call}
    (taken : state.start begun value = some next)
    (absent : state.calls call = none) (other : call ≠ begun) :
    next.calls call = none := by
  unfold State.start at taken
  split at taken <;> cases taken
  rw [State.calls_set, if_neg other, absent]

theorem step_calls_none (taken : step state action = some next)
    {call : CallId} (absent : state.calls call = none)
    (other : action.request ≠ some call) : next.calls call = none := by
  have different : ∀ {begun : CallId}, some begun ≠ some call →
      call ≠ begun := by
    rintro begun apart rfl
    exact apart rfl
  cases action with
  | register => exact start_calls_none taken absent (different other)
  | login => exact start_calls_none taken absent (different other)
  | refresh =>
      simp only [step] at taken
      split at taken
      · exact start_calls_none taken absent (different other)
      · cases taken
  | logout =>
      simp only [step] at taken
      split at taken
      · exact start_calls_none taken absent (different other)
      · cases taken
  | proceed =>
      simp only [step] at taken
      split at taken
      · cases taken
      · simp only [Option.map_eq_some_iff] at taken
        obtain ⟨⟨middle, value'⟩, proceeds, rfl⟩ := taken
        rw [State.calls_set, if_neg (different other),
          (ProceedStep.of_proceed proceeds).calls, absent]
  | expire =>
      cases taken
      exact absent

theorem calls_none_of_run (run : Run step start trace last)
    (initial : Initial start)
    (below : ∀ transition ∈ trace, ∀ call ∈ transition.action.request,
      call < bound) {call : CallId} (large : bound ≤ call) :
    last.calls call = none := by
  refine run.invariant (fun state => state.calls call = none) below
    (initial.calls call) ?_
  intro transition small taken absent
  apply step_calls_none taken absent
  intro isRequest
  exact absurd (small call isRequest) (Nat.not_lt.mpr large)

private theorem absent_before (run : Run step State.oneUser trace last)
    (below : ∀ transition ∈ trace, ∀ call ∈ transition.action.request,
      call < bound) (transition : Transition State Action)
    (member : transition ∈ trace) {call : CallId} (large : bound ≤ call) :
    transition.before.calls call = none := by
  obtain ⟨earlier, later, rfl⟩ := List.append_of_mem member
  obtain ⟨before, _, _⟩ := run.around
  simp only [List.forall_mem_append] at below
  exact calls_none_of_run before State.oneUser_initial below.1 large

theorem not_has_of_bounded
    (absent : ∀ {call}, bound ≤ call → state.calls call = none)
    {relation : Call → Option Jti} {jti : Jti}
    (checked : ∀ call < bound, (state.calls call).bind relation ≠ some jti)
    (call : CallId) : ¬state.Has relation call jti := by
  rintro ⟨value, present, related⟩
  by_cases small : call < bound
  · apply checked call small
    rw [present]
    exact related
  · rw [absent (Nat.not_lt.mp small)] at present
    cases present

end Bounded

/-! ## A refresh in flight -/

/-- The refresh token that the refreshes below are answered with. -/
def JwtPayload.sampleNext : JwtPayload :=
  (issueTokens 1 .sample 200).refreshToken

/-- A login, a refresh that is answered with the token of JTI 200, and a
logout that presents it: a later refresh with this token is refused. -/
theorem logout_final_rotated :
    ∃ earlier begin between revoke later last,
      Run step State.oneUser
        (earlier ++ begin :: (between ++ revoke :: later)) last ∧
      InChain (earlier ++ begin :: between) 100 200 ∧
      LogsOut 3 200 begin revoke ∧
      (∃ error, last.calls 4 =
        some (.refresh .sampleNext 200 (.answered (.error error)))) ∧
      ∀ transition ∈ later, ∀ jti,
        InChain (earlier ++ begin :: (between ++ revoke :: later)) 100 jti →
        ¬Accepts transition jti := by
  have recorded : ∃ trace last,
      record step State.oneUser
          (loginActions ++
            ([.refresh 2 (.verified .sample), .proceed 2 .ok, .proceed 2 .ok,
              .proceed 2 (.nonce 200), .proceed 2 .ok,
              .logout 3 (.verified .sampleNext), .proceed 3 .ok,
              .refresh 4 (.verified .sampleNext), .proceed 4 .ok] :
              List Action)) =
        some (trace, last) ∧
      (∀ transition ∈ trace, ∀ call ∈ transition.action.request, call < 5) ∧
      (∃ begin ∈ (trace.drop 9).head?, ∃ revoke ∈ (trace.drop 10).head?,
        begin.action = .logout 3 (.verified .sampleNext) ∧
        (∀ call < 5, (begin.before.calls call).bind Call.pending? ≠
          some 200) ∧
        (∀ call < 5, (begin.before.calls call).bind Call.exchanged? ≠
          some 200) ∧
        revoke.action = .proceed 3 .ok ∧
        revoke.before.calls 3 = some (.logout 200) ∧
        (∀ call < 5, (revoke.before.calls call).bind Call.checked? ≠
          some 200) ∧
        ∀ call < 5, (revoke.before.calls call).bind Call.spent? ≠
          some 200) ∧
      (∃ transition ∈ ((trace.take 9).drop 7).head?,
        Rotation transition 100 200) ∧
      (∃ error, last.calls 4 =
        some (.refresh .sampleNext 200 (.answered (.error error)))) ∧
      ∀ transition ∈ trace, Alone transition := by
    refine ⟨_, _, rfl, by decide, ⟨_, rfl, _, rfl, rfl, by decide, by decide,
      rfl, rfl, by decide, by decide⟩, ⟨_, rfl, 2, _, _, rfl, rfl⟩,
      ⟨_, rfl⟩, ?_⟩
    intro transition member
    simp only [List.mem_cons, List.not_mem_nil, or_false] at member
    rcases member with
      rfl | rfl | rfl | rfl | rfl | rfl | rfl | rfl | rfl | rfl | rfl | rfl |
        rfl
    all_goals rintro call newJti payload jti user ⟨⟩ present
    -- The one deletion, with the login as the only other request.
    rintro other ne ⟨value, found, checked⟩
    by_cases login : other = 1
    · subst other
      cases found
      cases checked
    · simp [State.set, State.sign, State.storeRefreshJti, State.oneUser,
        login, ne] at found
  obtain ⟨trace, last, recorded, below, ⟨begin, isBegin, revoke, isRevoke,
    isLogout, sent, newest, isProceed, presented, unchecked, unspent⟩,
    ⟨rotating, isRotating, rotation⟩, refused, alone⟩ := recorded
  have split := List.eq_around_of_head? isBegin isRevoke
  have run : Run step State.oneUser trace last := .of_record recorded
  rw [split] at run below alone
  have logsOut : LogsOut 3 200 begin revoke := by
    refine ⟨⟨_, isLogout, rfl⟩, ⟨?_, ?_⟩, ⟨_, isProceed⟩, presented⟩
    · exact not_has_of_bounded (absent_before run below begin (by simp)) sent
    · exact not_has_of_bounded (absent_before run below begin (by simp))
        newest
  have chain : InChain ((trace.take 9) ++ begin :: []) 100 200 := by
    refine .single ⟨rotating, ?_, rotation⟩
    exact List.mem_append_left _
      (List.mem_of_mem_drop (List.mem_of_mem_head? isRotating))
  refine ⟨_, _, _, _, _, last, run, chain, logsOut, refused, ?_⟩
  apply logout_final run State.oneUser_initial chain logsOut
  · intro transition member jti newJti _ _
    exact alone transition (by
      rcases List.mem_append.mp member with old | new
      · exact List.mem_append_left _ old
      · cases List.mem_singleton.mp new
        simp)
  · refine ⟨?_, ?_, ?_⟩
    · intro call error fails
      cases isProceed.symm.trans fails
    · exact not_has_of_bounded (absent_before run below revoke (by simp))
        unchecked
    · exact not_has_of_bounded (absent_before run below revoke (by simp))
        unspent

/-- A refresh has passed its check when the logout revokes the token: it is
answered with a new token, which the next refresh accepts. -/
theorem logout_not_final :
    ∃ earlier begin between revoke later last,
      Run step State.oneUser
        (earlier ++ begin :: (between ++ revoke :: later)) last ∧
      Initial State.oneUser ∧
      InChain (earlier ++ begin :: between) 100 100 ∧
      LogsOut 3 100 begin revoke ∧
      ∃ transition ∈ later, ∃ jti,
        InChain (earlier ++ begin :: (between ++ revoke :: later)) 100 jti ∧
        Accepts transition jti := by
  have recorded : ∃ trace last,
      record step State.oneUser
          (loginActions ++
            ([.refresh 2 (.verified .sample), .proceed 2 .ok,
              .logout 3 (.verified .sample), .proceed 3 .ok,
              .proceed 2 .ok, .proceed 2 (.nonce 200), .proceed 2 .ok,
              .refresh 4 (.verified .sampleNext), .proceed 4 .ok] :
              List Action)) =
        some (trace, last) ∧
      (∀ transition ∈ trace, ∀ call ∈ transition.action.request, call < 5) ∧
      (∃ begin ∈ (trace.drop 6).head?, ∃ revoke ∈ (trace.drop 7).head?,
        begin.action = .logout 3 (.verified .sample) ∧
        (∀ call < 5, (begin.before.calls call).bind Call.pending? ≠
          some 100) ∧
        (∀ call < 5, (begin.before.calls call).bind Call.exchanged? ≠
          some 100) ∧
        revoke.action = .proceed 3 .ok ∧
        revoke.before.calls 3 = some (.logout 100)) ∧
      (∃ transition ∈ ((trace.drop 7).tail.drop 1).head?,
        Rotation transition 100 200) ∧
      ∃ transition ∈ ((trace.drop 7).tail.drop 4).head?,
        Accepts transition 200 := by
    exact ⟨_, _, rfl, by decide, ⟨_, rfl, _, rfl, rfl, by decide, by decide,
      rfl, rfl⟩, ⟨_, rfl, 2, _, _, rfl, rfl⟩, _, rfl, 4, _, rfl, rfl, rfl⟩
  obtain ⟨trace, last, recorded, below, ⟨begin, isBegin, revoke, isRevoke,
    isLogout, sent, newest, isProceed, presented⟩,
    ⟨rotating, isRotating, rotation⟩, ⟨accepting, isAccepting, accepts⟩⟩ :=
    recorded
  have split := List.eq_around_of_head? isBegin isRevoke
  have run : Run step State.oneUser trace last := .of_record recorded
  rw [split] at run below
  have logsOut : LogsOut 3 100 begin revoke := by
    refine ⟨⟨_, isLogout, rfl⟩, ⟨?_, ?_⟩, ⟨_, isProceed⟩, presented⟩
    · exact not_has_of_bounded (absent_before run below begin (by simp)) sent
    · exact not_has_of_bounded (absent_before run below begin (by simp))
        newest
  refine ⟨_, _, _, _, _, last, run, State.oneUser_initial, .refl, logsOut,
    accepting, ?_, 200, .single ⟨rotating, ?_, rotation⟩, accepts⟩
  · exact List.mem_of_mem_drop (List.mem_of_mem_head? isAccepting)
  · exact List.mem_append_right _ (List.mem_cons_of_mem _
      (List.mem_cons_of_mem _
        (List.mem_of_mem_drop (List.mem_of_mem_head? isRotating))))

end Chronos.Auth
