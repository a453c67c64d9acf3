import Chronos.BrowserSession

/-!
# Refreshing a session from several calls

`POST /auth/refresh` exchanges a refresh token once, and every `apiFetch` call
that finds its access token expired refreshes on its own.  Whether the session
survives depends on when the exchanges are checked.
-/

namespace Chronos.Auth

/-! ## The API's part of a run -/

/-- The step of the API in a step of the session, if it has one. -/
def serverTransition? {n : Nat} (deployment : Deployment)
    (transition : Transition (Session n) (FetchAction n)) :
    Option (Transition State Action) :=
  match transition.action with
  | .client call =>
      match transition.before.calls call with
      | .refresh => some ⟨transition.before.server,
          .refresh call.val
            (deployment.attach transition.before.refreshCookie),
          transition.after.server⟩
      | _ => none
  | .server call nonce =>
      (transition.before.server.calls call.val).map fun value =>
        ⟨transition.before.server, .proceed call.val (value.success nonce),
          transition.after.server⟩

def serverTrace {n : Nat} (deployment : Deployment)
    (trace : List (Transition (Session n) (FetchAction n))) :
    List (Transition State Action) :=
  trace.filterMap (serverTransition? deployment)

/-- In this step a refresh bearing this token is checked. -/
def Checks (transition : Transition State Action) (jti : Jti) : Prop :=
  ∃ call payload, transition.action = .proceed call .ok ∧
    transition.before.calls call = some (.refresh payload jti .lookup)

/-- No refresh is checked after another one has deleted the JTI of its
token. -/
def ChecksFirst (trace : List (Transition State Action)) : Prop :=
  ∀ {earlier later check jti}, trace = earlier ++ check :: later →
    Checks check jti → ∀ newJti, ¬Rotates earlier jti newJti

/-- The call sends its refresh request in this step. -/
def SendsRefresh {n : Nat}
    (transition : Transition (Session n) (FetchAction n)) : Prop :=
  ∃ call, transition.action = .client call ∧
    transition.before.calls call = .refresh

/-- The JTI is in Redis, or a refresh has deleted it. -/
def Live (trace : List (Transition State Action)) (state : State) (jti : Jti) :
    Prop :=
  state.jtis jti = true ∨ ∃ newJti, Rotates trace jti newJti

theorem checksFirst_snoc {trace : List (Transition State Action)}
    {transition : Transition State Action} :
    ChecksFirst (trace ++ [transition]) ↔
      ChecksFirst trace ∧ ∀ {jti}, Checks transition jti →
        ∀ newJti, ¬Rotates trace jti newJti := by
  constructor
  · intro first
    constructor
    · rintro earlier later check jti rfl checks
      exact first (by rw [List.append_assoc]; rfl) checks
    · intro jti checks
      exact first rfl checks
  · rintro ⟨first, last⟩ earlier later check jti same checks
    rcases List.eq_nil_or_concat later with rfl | ⟨later', end', rfl⟩
    · obtain ⟨rfl, isCheck⟩ := List.append_inj' same rfl
      cases isCheck
      exact last checks
    · rw [List.concat_eq_append, ← List.cons_append, ← List.append_assoc]
        at same
      obtain ⟨rfl, -⟩ := List.append_inj' same rfl
      exact first rfl checks

theorem serverTrace_snoc {n : Nat} {deployment : Deployment}
    (trace : List (Transition (Session n) (FetchAction n)))
    (transition : Transition (Session n) (FetchAction n)) :
    serverTrace deployment (trace ++ [transition]) =
      serverTrace deployment trace ++
        (serverTransition? deployment transition).toList := by
  unfold serverTrace
  rw [List.filterMap_append]
  congr 1

section Projection

variable {n : Nat} {deployment : Deployment} {session next start last : Session n}
  {action : FetchAction n}
  {trace : List (Transition (Session n) (FetchAction n))}

theorem serverTransition_cases
    (taken : session.step deployment action = some next) :
    (serverTransition? deployment ⟨session, action, next⟩ = none ∧
        next.server = session.server) ∨
      ∃ action', serverTransition? deployment ⟨session, action, next⟩ =
          some ⟨session.server, action', next.server⟩ ∧
        Auth.step session.server action' = some next.server := by
  cases Session.step_cases taken with
  | fetched phase | authorized phase | resulted phase | unauthorized phase
  | failed phase | stored phase =>
      exact .inl ⟨by simp only [serverTransition?, phase], rfl⟩
  | renewed phase _ _ | refused phase _ _ =>
      exact .inl ⟨by simp only [serverTransition?, phase], rfl⟩
  | sent phase sends =>
      exact .inr ⟨_, by simp only [serverTransition?, phase], sends⟩
  | served present serves =>
      exact .inr ⟨_, by simp only [serverTransition?, present]; rfl, serves⟩

/-- The steps of the API in a run of the session are a run of the API. -/
theorem serverRun (run : Run (Session.step deployment) start trace last) :
    Run Auth.step start.server (serverTrace deployment trace) last.server := by
  induction run with
  | nil => exact .nil
  | snoc _ taken induction =>
      rw [serverTrace_snoc]
      rcases serverTransition_cases taken with ⟨none, same⟩ |
        ⟨action', some, steps⟩
      · rw [none, same]
        simpa using induction
      · rw [some]
        exact .snoc induction steps

end Projection

/-! ## Tokens in use -/

section Tokens

variable {state next : State} {action : Action} {jti : Jti}
  {trace : List (Transition State Action)}

theorem invalid_of_rotates {start : State}
    (run : Run step start trace state) (initial : Initial start)
    {newJti : Jti} (rotates : Rotates trace jti newJti) :
    state.jtis jti = false := by
  induction run generalizing newJti with
  | nil =>
      obtain ⟨_, member, _⟩ := rotates
      cases member
  | @snoc trace middle last action earlier taken induction =>
      have tokens := TokenInv.run earlier initial
      rcases RotationInv.rotates_snoc.mp rotates with old | rotation
      · by_contra valid
        have before := induction old
        have unpending :=
          ((RotationInv.run earlier initial).settled old).2
        cases Step.of_step taken with
        | began => exact valid before
        | proceeded present proceeds =>
            rcases (ProceedStep.of_proceed proceeds).jtis_cases
              (Bool.eq_true_of_not_eq_false valid) with still | pending
            · rw [before] at still
              cases still
            · exact unpending _ ⟨_, present, pending⟩
        | expired =>
            have still := State.jtis_of_revoked
              (Bool.eq_true_of_not_eq_false valid)
            rw [before] at still
            cases still
      · obtain ⟨_, _, _, -, -, -, rfl⟩ := rotation_effect taken rotation
        exact Function.update_self ..

/-- The step of a refresh as a step of the API. -/
def refreshTransition (state : State) (call : CallId) (payload : JwtPayload)
    (jti nonce : Jti) (phase : RefreshPhase) (next : State) :
    Transition State Action :=
  ⟨state, .proceed call ((Call.refresh payload jti phase).success nonce), next⟩

/-- A JTI stays in Redis until a refresh deletes it. -/
theorem RefreshStep.live {middle : State} {payload : JwtPayload}
    {token nonce : Jti} {phase phase' : RefreshPhase} {call : CallId}
    (case : RefreshStep state payload token nonce phase middle phase')
    (present : state.calls call = some (.refresh payload token phase))
    (live : Live trace state jti) :
    Live (trace ++ [refreshTransition state call payload token nonce phase
      (middle.set call (.refresh payload token phase'))])
      (middle.set call (.refresh payload token phase')) jti := by
  rcases live with valid | ⟨newJti, rotates⟩
  · cases case with
    | @rotated user =>
        by_cases same : jti = token
        · refine .inr ⟨nonce, RotationInv.rotates_snoc.mpr (.inr ?_)⟩
          rw [same]
          exact ⟨call, payload, user, rfl, present⟩
        · exact .inl ((Function.update_of_ne same _ _).trans valid)
    | @renewed tokens =>
        left
        show Function.update state.jtis tokens.jti true jti = true
        rw [Function.update_apply]
        split
        · rfl
        · exact valid
    | _ => exact .inl valid
  · exact .inr ⟨newJti, RotationInv.rotates_snoc.mpr (.inl rotates)⟩

end Tokens

/-! ## Runs in which every check comes first -/

/-- The payload of an access token of the user. -/
structure JwtPayload.Grants (payload : JwtPayload) (user : UserId) : Prop where
  type : payload.type = .access
  sub : payload.sub = user

theorem authorize_of_grants {payload : JwtPayload} {user : UserId}
    (grants : payload.Grants user) :
    authorize (some (.valid payload)) = .ok user := by
  rw [authorize, if_pos grants.type, grants.sub]

/-- The token, if it has not expired, is one of the user. -/
def TokenOf (user : UserId) (token : Option AccessToken) : Prop :=
  ∀ payload, token = some (.valid payload) → payload.Grants user

/-- The token has not expired. -/
def IsValid (token : Option AccessToken) : Prop :=
  ∃ payload, token = some (.valid payload)

/-- The call is on its way to the result of its request. -/
def FetchPhase.Promising (user : UserId) (stored : Option AccessToken) :
    FetchPhase → Prop
  | .fetch retry => retry = true ∨ IsValid stored
  | .request token retry => TokenOf user token ∧ (retry = true ∨ IsValid token)
  | .response reply retry =>
      (∀ other, reply = .ok other → other = user) ∧
        (retry = true ∨ reply = .ok user)
  | .refresh => True
  | .refreshing => True
  | .store token => token.Grants user
  | .ended outcome => outcome = .result user

/-- A refresh of the user that has not been refused. -/
def Call.Promising (user : UserId) (live : Jti → Prop) : Call → Prop
  | .refresh payload jti phase => payload.sub = user ∧
      match phase with
      | .lookup => live jti
      | .findUser => True
      | .revoke _ => True
      | .store tokens => ∃ record jti, tokens = issueTokens user record jti
      | .answered reply => ∃ record jti,
          reply = .ok (.refreshed (issueTokens user record jti)) ∧ live jti
  | _ => False

theorem authorize_promising {user : UserId} {token : Option AccessToken}
    {retry : Bool} {stored : Option AccessToken} (ofUser : TokenOf user token)
    (valid : retry = true ∨ IsValid token) :
    (FetchPhase.response (authorize token) retry).Promising user stored := by
  constructor
  · intro other granted
    cases token with
    | none => cases granted
    | some token =>
        cases token with
        | expired => cases granted
        | valid payload =>
            rw [authorize_of_grants (ofUser payload rfl)] at granted
            exact (Except.ok.inj granted).symm
  · rcases valid with retries | ⟨payload, rfl⟩
    · exact .inl retries
    · exact .inr (authorize_of_grants (ofUser payload rfl))

theorem Live.append {trace more : List (Transition State Action)}
    {state next : State} {jti : Jti} (live : Live trace state jti)
    (same : next.jtis = state.jtis) : Live (trace ++ more) next jti := by
  rcases live with valid | ⟨newJti, transition, member, rotation⟩
  · exact .inl (by rw [same, valid])
  · exact .inr ⟨newJti, transition, List.mem_append_left _ member, rotation⟩

theorem Call.Promising.mono {user : UserId} {live live' : Jti → Prop}
    {value : Call} (promising : value.Promising user live)
    (still : ∀ {jti}, live jti → live' jti) : value.Promising user live' := by
  cases value with
  | refresh payload jti phase =>
      obtain ⟨sub, rest⟩ := promising
      refine ⟨sub, ?_⟩
      cases phase with
      | lookup => exact still rest
      | answered reply =>
          obtain ⟨record, jti, same, isLive⟩ := rest
          exact ⟨record, jti, same, still isLive⟩
      | _ => exact rest
  | _ => exact promising

theorem Call.Promising.reply {user : UserId} {live : Jti → Prop} {value : Call}
    {reply : Reply} (promising : value.Promising user live)
    (answered : value.reply? = some reply) :
    ∃ record jti, reply = .ok (.refreshed (issueTokens user record jti)) ∧
      live jti := by
  cases value with
  | refresh payload jti phase =>
      cases phase with
      | answered other =>
          cases answered
          exact promising.2
      | _ => cases answered
  | answered => exact promising.elim
  | _ => cases answered

theorem RefreshStep.promising {state middle : State} {payload : JwtPayload}
    {jti nonce : Jti} {phase phase' : RefreshPhase} {user : UserId}
    {trace trace' : List (Transition State Action)} {call : CallId}
    {value : Call}
    (case : RefreshStep state payload jti nonce phase middle phase')
    (promised : (Call.refresh payload jti phase).Promising user
      (Live trace state))
    (known : (state.users.get? payload.sub).isSome = true)
    (unrotated : phase = .lookup → ∀ newJti, ¬Rotates trace jti newJti) :
    (Call.refresh payload jti phase').Promising user
      (Live trace' (middle.set call value)) := by
  obtain ⟨sub, promising⟩ := promised
  refine ⟨sub, ?_⟩
  cases case with
  | checked => trivial
  | unknown invalid =>
      rcases promising with valid | ⟨newJti, rotates⟩
      · rw [invalid] at valid
        cases valid
      · exact absurd rotates (unrotated rfl newJti)
  | found => trivial
  | missing absent =>
      rw [absent] at known
      cases known
  | rotated => exact ⟨_, nonce, by rw [sub]⟩
  | renewed =>
      obtain ⟨record, newJti, rfl⟩ := promising
      refine ⟨record, newJti, rfl, .inl ?_⟩
      exact Function.update_self ..

theorem FetchPhase.Promising.stored {user : UserId}
    {stored : Option AccessToken} {phase : FetchPhase} (token : JwtPayload)
    (promising : phase.Promising user stored) :
    phase.Promising user (some (.valid token)) := by
  cases phase with
  | fetch retry => exact .inr ⟨token, rfl⟩
  | _ => exact promising

namespace Session

variable {n : Nat} {deployment : Deployment} {session next : Session n}
  {action : FetchAction n} {call other : Fin n} {user : UserId}
  {trace : List (Transition State Action)}

/-- No call has been refused, and none will be if its refresh is checked in
time. -/
structure Unharmed (user : UserId) (trace : List (Transition State Action))
    (session : Session n) : Prop where
  coherent : session.Coherent
  known : (session.server.users.get? user).isSome = true
  cookie : ∃ payload jti, session.refreshCookie = some payload ∧
    payload.type = .refresh ∧ payload.sub = user ∧ payload.jti = some jti ∧
    Live trace session.server jti
  token : TokenOf user session.accessToken
  calls : ∀ call, (session.calls call).Promising user session.accessToken
  server : ∀ (call : Fin n) value,
    session.server.calls call.val = some value →
    value.Promising user (Live trace session.server)

theorem Begun.unharmed (begun : session.Begun user) :
    session.Unharmed user [] where
  coherent := begun.coherent
  known := begun.known
  cookie := by
    obtain ⟨payload, jti, present, -, type, sub, claim, valid⟩ := begun.cookie
    exact ⟨payload, jti, present, type, sub, claim, .inl valid⟩
  token := by
    intro payload isToken
    rw [begun.expired] at isToken
    cases isToken
  calls call := by
    rw [begun.calls]
    exact .inl rfl
  server call value present := by
    rw [begun.server.calls] at present
    cases present

namespace Unharmed

theorem moved (unharmed : session.Unharmed user trace) {phase : FetchPhase}
    (coherent : (session.set call phase).Coherent)
    (promising : phase.Promising user session.accessToken) :
    (session.set call phase).Unharmed user trace where
  coherent := coherent
  known := unharmed.known
  cookie := unharmed.cookie
  token := unharmed.token
  calls := by
    intro other
    rw [calls_set]
    split
    · exact promising
    · exact unharmed.calls other
  server := unharmed.server

theorem sends (unharmed : session.Unharmed user trace) {call : Fin n}
    {server : State}
    (coherent :
      ({ session with server := server }.set call .refreshing).Coherent)
    (sent : Auth.step session.server (.refresh call.val
      (deployment.attach session.refreshCookie)) = some server)
    (carried : deployment.sendsCookie = true) :
    ({ session with server := server }.set call .refreshing).Unharmed user
      (trace ++ (serverTransition? deployment ⟨session, .client call,
        { session with server := server }.set call .refreshing⟩).toList) := by
  obtain ⟨payload, jti, jar, type, sub, claim, live⟩ := unharmed.cookie
  have begun : beginRefresh (deployment.attach session.refreshCookie) =
      .refresh payload jti .lookup := by
    rw [jar, Deployment.attach, if_pos carried]
    simp [beginRefresh, type, claim]
  obtain ⟨-, -, rfl⟩ := refresh_step sent
  refine ⟨coherent, unharmed.known, ?_, unharmed.token, ?_, ?_⟩
  · exact ⟨payload, jti, jar, type, sub, claim, live.append rfl⟩
  · intro other
    rw [calls_set]
    split
    · trivial
    · exact unharmed.calls other
  · intro other value present
    change (session.server.set call.val _).calls other.val = _ at present
    rw [State.calls_set] at present
    split at present
    · cases present
      rw [begun]
      exact ⟨sub, live.append rfl⟩
    · exact (unharmed.server other value present).mono fun live =>
        live.append rfl

/-- The API takes a step for a refresh, which is checked in time. -/
theorem serves (unharmed : session.Unharmed user trace) {call : Fin n}
    {nonce : Jti} {value : Call} {server : State}
    (coherent : ({ session with server := server } : Session n).Coherent)
    (present : session.server.calls call.val = some value)
    (served : Auth.step session.server
      (.proceed call.val (value.success nonce)) = some server)
    (first : ∀ transition ∈
      serverTransition? deployment
        ⟨session, .server call nonce, { session with server := server }⟩,
      ∀ {jti}, Checks transition jti → ∀ newJti, ¬Rotates trace jti newJti) :
    ({ session with server := server } : Session n).Unharmed user
      (trace ++ (serverTransition? deployment
        ⟨session, .server call nonce,
          { session with server := server }⟩).toList) := by
  obtain ⟨payload, jti, phase, middle, phase', rfl, case, rfl⟩ :=
    unharmed.coherent.refreshStep present served
  have isServed : serverTransition? deployment
      ⟨session, .server call nonce,
        { session with
          server := middle.set call.val (.refresh payload jti phase') }⟩ =
      some (refreshTransition session.server call.val payload jti nonce
        phase (middle.set call.val (.refresh payload jti phase'))) := by
    simp only [serverTransition?, present, Option.map_some, refreshTransition]
  have unrotated : phase = .lookup → ∀ newJti, ¬Rotates trace jti newJti := by
    rintro rfl
    exact first _ isServed ⟨call.val, payload, rfl, present⟩
  have promised := unharmed.server call _ present
  have live : ∀ {other}, Live trace session.server other →
      Live (trace ++ [refreshTransition session.server call.val payload jti
        nonce phase (middle.set call.val (.refresh payload jti phase'))])
        (middle.set call.val (.refresh payload jti phase')) other :=
    case.live present
  have known : (session.server.users.get? payload.sub).isSome = true := by
    rw [promised.1]
    exact unharmed.known
  rw [isServed]
  refine ⟨coherent, ?_, ?_, unharmed.token, unharmed.calls, ?_⟩
  · exact (congrArg (fun users => (users.get? user).isSome)
      case.frame.2.1).trans unharmed.known
  · obtain ⟨cookie, token, jar, type, owner, claim, isLive⟩ := unharmed.cookie
    exact ⟨cookie, token, jar, type, owner, claim, live isLive⟩
  · intro other value present'
    change (middle.set call.val _).calls other.val = _ at present'
    rw [State.calls_set, case.frame.1] at present'
    split at present'
    · cases present'
      exact case.promising promised known unrotated
    · exact (unharmed.server other value present').mono live

theorem step (unharmed : session.Unharmed user trace)
    (taken : session.step deployment action = some next)
    (sends : SendsRefresh ⟨session, action, next⟩ →
      deployment.sendsCookie = true)
    (first : ∀ transition ∈
      serverTransition? deployment ⟨session, action, next⟩,
      ∀ {jti}, Checks transition jti → ∀ newJti, ¬Rotates trace jti newJti) :
    next.Unharmed user (trace ++
      (serverTransition? deployment ⟨session, action, next⟩).toList) := by
  have coherent := unharmed.coherent.step taken
  cases Session.step_cases taken with
  | @fetched call retry phase =>
      have promising := unharmed.calls call
      rw [phase] at promising
      simp only [serverTransition?, phase, Option.toList_none, List.append_nil]
      exact unharmed.moved coherent ⟨unharmed.token, promising⟩
  | @authorized call token retry phase =>
      have promising := unharmed.calls call
      rw [phase] at promising
      simp only [serverTransition?, phase, Option.toList_none, List.append_nil]
      exact unharmed.moved coherent
        (authorize_promising promising.1 promising.2)
  | @resulted call other retry phase =>
      have promising := unharmed.calls call
      rw [phase] at promising
      simp only [serverTransition?, phase, Option.toList_none, List.append_nil]
      apply unharmed.moved coherent
      exact congrArg _ (promising.1 other rfl)
  | @unauthorized call error phase =>
      simp only [serverTransition?, phase, Option.toList_none, List.append_nil]
      exact unharmed.moved coherent trivial
  | @failed call error phase =>
      have promising := unharmed.calls call
      rw [phase] at promising
      rcases promising.2 with impossible | impossible <;> cases impossible
  | sent phase sendsNow =>
      exact unharmed.sends coherent sendsNow (sends ⟨_, rfl, phase⟩)
  | @renewed call value tokens phase present reply =>
      obtain ⟨record, jti, same, live⟩ :=
        (unharmed.server call value present).reply reply
      cases same
      simp only [serverTransition?, phase, Option.toList_none, List.append_nil]
      refine ⟨coherent, unharmed.known, ?_, unharmed.token, ?_,
        unharmed.server⟩
      · exact ⟨_, jti, rfl, rfl, rfl, rfl, live⟩
      · intro other
        rw [calls_set]
        split
        · exact ⟨rfl, rfl⟩
        · exact unharmed.calls other
  | @refused call value error phase present reply =>
      obtain ⟨_, _, impossible, -⟩ :=
        (unharmed.server call value present).reply reply
      cases impossible
  | @stored call token phase =>
      have grants := unharmed.calls call
      rw [phase] at grants
      simp only [serverTransition?, phase, Option.toList_none, List.append_nil]
      refine ⟨coherent, unharmed.known, unharmed.cookie, ?_, ?_,
        unharmed.server⟩
      · intro payload isToken
        cases isToken
        exact grants
      · intro other
        rw [calls_set]
        split
        · exact .inr ⟨token, rfl⟩
        · exact (unharmed.calls other).stored token
  | served present serves =>
      exact unharmed.serves coherent present serves first

end Unharmed

/-- Every refresh request carries the cookie, and none is checked after another
one has deleted its JTI. -/
structure RefreshesInTime (deployment : Deployment)
    (trace : List (Transition (Session n) (FetchAction n))) : Prop where
  carried : ∀ transition ∈ trace, SendsRefresh transition →
    deployment.sendsCookie = true
  first : ChecksFirst (serverTrace deployment trace)

theorem refreshesInTime_snoc
    {trace : List (Transition (Session n) (FetchAction n))}
    {transition : Transition (Session n) (FetchAction n)} :
    RefreshesInTime deployment (trace ++ [transition]) ↔
      RefreshesInTime deployment trace ∧
        (SendsRefresh transition → deployment.sendsCookie = true) ∧
        ∀ step ∈ serverTransition? deployment transition,
          ∀ {jti}, Checks step jti →
            ∀ newJti, ¬Rotates (serverTrace deployment trace) jti newJti := by
  have first : ChecksFirst (serverTrace deployment (trace ++ [transition])) ↔
      ChecksFirst (serverTrace deployment trace) ∧
        ∀ step ∈ serverTransition? deployment transition,
          ∀ {jti}, Checks step jti →
            ∀ newJti, ¬Rotates (serverTrace deployment trace) jti newJti := by
    rw [serverTrace_snoc]
    cases serverTransition? deployment transition with
    | none => simp
    | some step =>
        rw [Option.toList_some, checksFirst_snoc]
        simp
  constructor
  · intro inTime
    obtain ⟨earlier, last⟩ := first.mp inTime.first
    have carried := inTime.carried
    rw [List.forall_mem_append, List.forall_mem_singleton] at carried
    exact ⟨⟨carried.1, earlier⟩, carried.2, last⟩
  · rintro ⟨inTime, sends, last⟩
    refine ⟨?_, first.mpr ⟨inTime.first, last⟩⟩
    rw [List.forall_mem_append, List.forall_mem_singleton]
    exact ⟨inTime.carried, sends⟩

theorem Unharmed.run {start last : Session n}
    {trace : List (Transition (Session n) (FetchAction n))}
    (run : Run (Session.step deployment) start trace last)
    (begun : start.Begun user) (inTime : RefreshesInTime deployment trace) :
    last.Unharmed user (serverTrace deployment trace) := by
  induction run with
  | nil => exact begun.unharmed
  | snoc _ taken induction =>
      obtain ⟨earlier, sends, first⟩ := refreshesInTime_snoc.mp inTime
      rw [serverTrace_snoc]
      exact (induction earlier).step taken sends first

/-! ## A late check -/

/-- The refresh of the call has been refused. -/
def Doomed (session : Session n) (call : Fin n) : Prop :=
  (session.calls call = .refreshing ∧ ∃ value error,
      session.server.calls call.val = some value ∧
        value.reply? = some (.error error)) ∨
    session.calls call = .ended .unauthorized

theorem Doomed.set (doomed : session.Doomed other) {phase : FetchPhase}
    {cookie : Option JwtPayload} {token : Option AccessToken}
    (different : other ≠ call) :
    ({ session with refreshCookie := cookie, accessToken := token }.set call
      phase).Doomed other := by
  unfold Doomed
  rw [calls_set, if_neg different]
  exact doomed

theorem Doomed.step (doomed : session.Doomed other)
    (coherent : session.Coherent)
    (taken : session.step deployment action = some next) :
    next.Doomed other := by
  have moves : ∀ {call : Fin n}, session.calls call ≠ .refreshing →
      (∀ outcome, session.calls call ≠ .ended outcome) → other ≠ call := by
    rintro call elsewhere unended rfl
    rcases doomed with ⟨refreshing, -⟩ | ended
    · exact elsewhere refreshing
    · exact unended _ ended
  cases Session.step_cases taken with
  | fetched phase | authorized phase | resulted phase | unauthorized phase
  | failed phase | stored phase =>
      apply doomed.set
      apply moves
      · rw [phase]
        exact nofun
      · rw [phase]
        exact nofun
  | @sent call server phase sends =>
      have different : other ≠ call := by
        apply moves
        · rw [phase]
          exact nofun
        · rw [phase]
          exact nofun
      obtain ⟨-, -, rfl⟩ := refresh_step sends
      unfold Doomed
      rw [calls_set, if_neg different]
      change (_ ∧ ∃ value error,
        (session.server.set call.val _).calls other.val = _ ∧ _) ∨ _
      rw [State.calls_set, if_neg fun same => different (Fin.ext same)]
      exact doomed
  | @renewed call value tokens phase present reply =>
      apply doomed.set
      rintro rfl
      rcases doomed with ⟨-, _, _, present', refusal⟩ | ended
      · cases present.symm.trans present'
        rw [reply] at refusal
        cases refusal
      · rw [phase] at ended
        cases ended
  | @refused call value error phase present reply =>
      by_cases same : other = call
      · subst other
        right
        rw [calls_set, if_pos rfl]
      · exact doomed.set same
  | @served call nonce value server present serves =>
      obtain ⟨payload, jti, phase, middle, phase', rfl, case, rfl⟩ :=
        coherent.refreshStep present serves
      rcases doomed with ⟨refreshing, value, error, present', refusal⟩ | ended
      · refine .inl ⟨refreshing, value, error, ?_, refusal⟩
        change (middle.set call.val _).calls other.val = _
        rw [State.calls_set, case.frame.1, if_neg, present']
        intro same
        rw [same, present] at present'
        cases present'
        cases case <;> cases refusal
      · exact .inr ended

theorem doomed_of_sends (taken : session.step deployment action = some next)
    (sends : SendsRefresh ⟨session, action, next⟩)
    (withheld : deployment.sendsCookie = false) :
    ∃ call, next.Doomed call := by
  obtain ⟨call, rfl, phase⟩ := sends
  have absent : deployment.attach session.refreshCookie = .absent := by
    cases jar : session.refreshCookie with
    | none => rfl
    | some payload => exact if_neg (by simp [withheld])
  dsimp only at phase
  simp only [Session.step, phase, absent, Option.map_eq_some_iff] at taken
  obtain ⟨server, sent, rfl⟩ := taken
  obtain ⟨-, -, rfl⟩ := refresh_step sent
  refine ⟨call, .inl ⟨?_, beginRefresh .absent, _, ?_, rfl⟩⟩
  · rw [calls_set, if_pos rfl]
  · show (session.server.set call.val _).calls call.val = _
    rw [State.calls_set, if_pos rfl]

theorem doomed_of_checks (coherent : session.Coherent)
    (taken : session.step deployment action = some next)
    {transition : Transition State Action}
    (steps : transition ∈
      serverTransition? deployment ⟨session, action, next⟩)
    {jti : Jti} (checks : Checks transition jti)
    (invalid : session.server.jtis jti = false) :
    ∃ call, next.Doomed call := by
  obtain ⟨id, payload, isProceed, lookup⟩ := checks
  cases Session.step_cases taken with
  | @served call nonce value server present serves =>
      simp only [serverTransition?, present, Option.map_some,
        Option.mem_some_iff] at steps
      subst steps
      obtain ⟨rfl, -⟩ := Action.proceed.inj isProceed
      cases present.symm.trans lookup
      obtain ⟨_, _, _, middle, phase', same, case, rfl⟩ :=
        coherent.refreshStep present serves
      cases same
      have refreshing := coherent.waiting call _ present rfl
      cases case with
      | checked valid =>
          rw [invalid] at valid
          cases valid
      | @unknown error =>
          refine ⟨call, .inl ⟨refreshing,
            .refresh payload jti (.answered (.error error)), error, ?_, rfl⟩⟩
          show (session.server.set call.val _).calls call.val = _
          rw [State.calls_set, if_pos rfl]
  | sent phase =>
      simp only [serverTransition?, phase, Option.mem_some_iff] at steps
      subst steps
      cases isProceed
  | fetched phase | authorized phase | resulted phase | unauthorized phase
  | failed phase | stored phase =>
      simp only [serverTransition?, phase] at steps
      cases steps
  | renewed phase _ _ | refused phase _ _ =>
      simp only [serverTransition?, phase] at steps
      cases steps

/-- All refreshes are in time, or a call has been refused. -/
theorem refreshesInTime_or_doomed {start last : Session n}
    {trace : List (Transition (Session n) (FetchAction n))}
    (run : Run (Session.step deployment) start trace last)
    (begun : start.Begun user) :
    RefreshesInTime deployment trace ∨ ∃ call, last.Doomed call := by
  induction run with
  | nil =>
      left
      constructor
      · exact fun _ => nofun
      · intro earlier later check jti same
        cases earlier <;> cases same
  | @snoc trace middle last action earlier taken induction =>
      have coherent := begun.coherent.run earlier
      rcases induction with inTime | ⟨call, doomed⟩
      · by_cases snoc : RefreshesInTime deployment
            (trace ++ [⟨middle, action, last⟩])
        · exact .inl snoc
        · right
          rw [refreshesInTime_snoc, not_and, not_and_or] at snoc
          rcases snoc inTime with withheld | late
          · obtain ⟨sends, missing⟩ := Classical.not_imp.mp withheld
            exact doomed_of_sends taken sends
              (Bool.eq_false_of_not_eq_true missing)
          · simp only [not_forall, not_not] at late
            obtain ⟨step, steps, jti, checks, newJti, rotates⟩ := late
            exact doomed_of_checks coherent taken steps checks
              (invalid_of_rotates (serverRun earlier) begun.server rotates)
      · exact .inr ⟨call, doomed.step coherent taken⟩

end Session

/-- A session ends after at most thirteen steps for each call.  When it does,
every call has got the result of its request if and only if every refresh
request carried the cookie and none was checked after another one had deleted
its JTI. -/
theorem session_survives_iff {n : Nat} {deployment : Deployment}
    {start last : Session n} {user : UserId}
    {trace : List (Transition (Session n) (FetchAction n))}
    (begun : start.Begun user)
    (run : Run (Session.step deployment) start trace last) :
    trace.length ≤ 13 * n ∧
      ((∀ action, last.step deployment action = none) →
        (last.AllServed user ↔
          Session.RefreshesInTime deployment trace)) := by
  constructor
  · have bound := Session.length_add_remaining_le run begun.coherent
    have initial : ∑ call, start.remaining call = 13 * n := by
      simp [Session.remaining, begun.calls, FetchPhase.remaining,
        Nat.mul_comm]
    omega
  · intro stuck
    constructor
    · intro served
      rcases Session.refreshesInTime_or_doomed run begun with
        inTime | ⟨call, ⟨refreshing, -⟩ | ended⟩
      · exact inTime
      · rw [served call] at refreshing
        cases refreshing
      · rw [served call] at ended
        cases ended
    · intro inTime call
      have unharmed := Session.Unharmed.run run begun inTime
      cases phase : last.calls call with
      | ended outcome =>
          have promising := unharmed.calls call
          rw [phase] at promising
          exact congrArg _ promising
      | _ =>
          have unended : ∀ outcome, last.calls call ≠ .ended outcome := by
            rw [phase]
            intro outcome same
            cases same
          obtain ⟨action, next, taken⟩ :
              ∃ action next, last.step deployment action = some next :=
            unharmed.coherent.exists_step unended
          rw [stuck action] at taken
          cases taken

/-! ## Two calls at a time -/

/-- User 1 has a refresh token, and the access token has expired. -/
def Session.sample (n : Nat) : Session n where
  server :=
    { State.oneUser with
      jtis := fun jti => jti = 100, signed := [.sample] }
  refreshCookie := some .sample
  accessToken := some .expired
  calls _ := .fetch true

theorem Session.sample_begun (n : Nat) : (Session.sample n).Begun 1 where
  server :=
    { calls := fun _ => rfl
      known := by
        intro jti valid
        refine ⟨.sample, List.mem_singleton_self _, ?_⟩
        rw [of_decide_eq_true valid]
        rfl
      unique := by
        intro payload signed payload' signed' jti _ _
        rw [List.mem_singleton.mp signed, List.mem_singleton.mp signed'] }
  known := rfl
  cookie := ⟨.sample, 100, rfl, List.mem_singleton_self _, rfl, rfl, rfl, rfl⟩
  expired := rfl
  calls _ := rfl

/-- The paths behind a proxy that maps the path of the cookie as well. -/
def Deployment.proxied : Deployment := ⟨"/api/auth", "/api/auth/refresh"⟩

/-- A request of the call, up to its answer. -/
def requestActions {n : Nat} (call : Fin n) : List (FetchAction n) :=
  [.client call, .client call, .client call]

/-- A refresh of the call, up to the token in local storage. -/
def refreshActions {n : Nat} (call : Fin n) (nonce : Jti) :
    List (FetchAction n) :=
  [.client call, .server call nonce, .server call nonce, .server call nonce,
    .server call nonce, .client call, .client call]

/-- How the call has ended, if it has. -/
def Session.outcome? {n : Nat} (session : Session n) (call : Fin n) :
    Option (Option UserId) :=
  match session.calls call with
  | .ended (.result user) => some (some user)
  | .ended _ => some none
  | _ => none

theorem Session.outcome?_eq_some {n : Nat} {session : Session n} {call : Fin n}
    {user : UserId} (ended : session.outcome? call = some (some user)) :
    session.calls call = .ended (.result user) := by
  unfold outcome? at ended
  split at ended
  · cases ended
    assumption
  · cases ended
  · cases ended

/-- Both calls are answered with 401; the second one refreshes with the cookie
that the first one has got. -/
theorem session_survives_in_turn :
    ∃ trace last,
      Run (Session.step .proxied) (Session.sample 2) trace last ∧
      last.AllServed 1 ∧ Session.RefreshesInTime .proxied trace := by
  obtain ⟨trace, last, run, both⟩ :=
    exists_run_of_check (Session.step .proxied) (Session.sample 2)
      (requestActions 0 ++ requestActions 1 ++ refreshActions 0 200 ++
        refreshActions 1 300 ++ requestActions 0 ++ requestActions 1)
      (fun _ last => ∀ call, last.outcome? call = some (some 1))
      (by decide)
  have served : last.AllServed 1 :=
    fun call => Session.outcome?_eq_some (both call)
  have coherent := (Session.sample_begun 2).coherent.run run
  exact ⟨trace, last, run, served,
    ((session_survives_iff (Session.sample_begun 2) run).2
      (coherent.stuck fun call => ⟨_, served call⟩)).mp served⟩

/-- Two calls refresh with the same cookie, and the second one is checked after
the first one has deleted the JTI: it clears the token and goes to the login
page.  With the paths of the source, already a single call does. -/
theorem second_refresh_refused :
    (∃ trace last,
      (Session.sample 2).Begun 1 ∧
      Run (Session.step .proxied) (Session.sample 2) trace last ∧
      last.outcome? 0 = some (some 1) ∧
      last.calls 1 = .ended .unauthorized) ∧
    ∃ trace last,
      (Session.sample 1).Begun 1 ∧
      Run (Session.step .shipped) (Session.sample 1) trace last ∧
      last.calls 0 = .ended .unauthorized := by
  have proxied : ∃ trace last,
      record (Session.step .proxied) (Session.sample 2)
        (requestActions 0 ++ requestActions 1 ++
          ([.client 0, .client 1, .server 0 200, .server 0 200, .server 0 200,
            .server 1 300, .client 1, .server 0 200, .client 0, .client 0] :
            List (FetchAction 2)) ++ requestActions 0) = some (trace, last) ∧
      last.outcome? 0 = some (some 1) ∧
      last.calls 1 = .ended .unauthorized := ⟨_, _, rfl, rfl, rfl⟩
  have shipped : ∃ trace last,
      record (Session.step .shipped) (Session.sample 1)
        (requestActions 0 ++
          ([.client 0, .client 0] : List (FetchAction 1))) =
        some (trace, last) ∧
      last.calls 0 = .ended .unauthorized := ⟨_, _, rfl, rfl⟩
  constructor
  · obtain ⟨trace, last, recorded, first, second⟩ := proxied
    exact ⟨trace, last, Session.sample_begun 2, .of_record recorded, first,
      second⟩
  · obtain ⟨trace, last, recorded, refused⟩ := shipped
    exact ⟨trace, last, Session.sample_begun 1, .of_record recorded, refused⟩

end Chronos.Auth
