import Chronos.Logout
import Mathlib.Algebra.Order.BigOperators.Group.Finset

/-!
# Concurrent requests of a browser session

`apiFetch` and `refreshToken` of `web/lib/api.ts` against `POST /auth/refresh`.
The calls of a session share the cookie jar and the local storage; each of
them that is answered with 401 refreshes on its own, and the API exchanges a
refresh token once.  No request gets lost and no call of the API to Redis or
to the database fails.
-/

namespace Chronos.Auth

/-! ## The browser -/

/-- The value of `chronos_access_token`: the token of the login, which has
expired, or one that a refresh has brought. -/
inductive AccessToken where
  | expired
  | valid (payload : JwtPayload)

/-- `requireAuth` for the header that `apiFetch` sends; the request's own
result is the one for this user. -/
def authorize : Option AccessToken → Except ChronosError UserId
  | none => .error (unauthorizedError "No authentication token provided")
  | some .expired => .error (unauthorizedError "Invalid or expired token")
  | some (.valid payload) =>
      if payload.type = .access then .ok payload.sub
      else .error (unauthorizedError "Invalid token type")

/-- How an `apiFetch` call ends: with the result of its request, by clearing
the stored token and going to the login page, or with another error. -/
inductive FetchOutcome where
  | result (user : UserId)
  | unauthorized
  | failed (message : String)

/-- What an `apiFetch` call does next, or what it waits for. -/
inductive FetchPhase where
  | fetch (retry : Bool)
  | request (token : Option AccessToken) (retry : Bool)
  | response (reply : Except ChronosError UserId) (retry : Bool)
  | refresh
  | refreshing
  | store (accessToken : JwtPayload)
  | ended (outcome : FetchOutcome)

/-- `path` of the refresh cookie as the browser stores it, and the path under
which the browser calls `POST /auth/refresh`. -/
structure Deployment where
  cookiePath : String
  refreshPath : String

/-- The browser sends a cookie with requests to its path and below. -/
def pathMatches (cookiePath requestPath : String) : Bool :=
  let cookie := cookiePath.toList
  let request := requestPath.toList
  cookie.isPrefixOf request &&
    (request.length = cookie.length || cookie.getLast? = some '/' ||
      (request.drop cookie.length).head? = some '/')

namespace Deployment

/-- The paths in the source, without a proxy that changes them. -/
def shipped : Deployment := ⟨"/auth", "/api/auth/refresh"⟩

def sendsCookie (deployment : Deployment) : Bool :=
  pathMatches deployment.cookiePath deployment.refreshPath

/-- The cookie of a refresh request. -/
def attach (deployment : Deployment) : Option JwtPayload → Cookie
  | none => .absent
  | some payload =>
      if deployment.sendsCookie then .verified payload else .absent

end Deployment

/-- A browser session with `n` calls of `apiFetch`.  The refresh of a call is
the request of the same number at the API. -/
structure Session (n : Nat) where
  server : State
  refreshCookie : Option JwtPayload
  accessToken : Option AccessToken
  calls : Fin n → FetchPhase

inductive FetchAction (n : Nat) where
  | client (call : Fin n)
  | server (call : Fin n) (nonce : Jti)

/-- The answer of a request. -/
def Call.reply? : Call → Option Reply
  | .refresh _ _ (.answered reply) => some reply
  | .answered reply => some reply
  | _ => none

/-- The awaited call of the request succeeds. -/
def Call.success (nonce : Jti) : Call → Input
  | .refresh _ _ (.revoke _) => .nonce nonce
  | _ => .ok

namespace Session

variable {n : Nat}

def set (session : Session n) (call : Fin n) (phase : FetchPhase) : Session n :=
  { session with calls := Function.update session.calls call phase }

/-- One step of the session.  The cookies of a response are stored when it
arrives, and the access token when its body has been read. -/
def step (deployment : Deployment) (session : Session n) :
    FetchAction n → Option (Session n)
  | .client call =>
      match session.calls call with
      | .fetch retry =>
          some (session.set call (.request session.accessToken retry))
      | .request token retry =>
          some (session.set call (.response (authorize token) retry))
      | .response (.ok user) _ =>
          some (session.set call (.ended (.result user)))
      | .response (.error _) true => some (session.set call .refresh)
      | .response (.error error) false =>
          some (session.set call (.ended (.failed error.message)))
      | .refresh =>
          (Auth.step session.server (.refresh call.val
            (deployment.attach session.refreshCookie))).map fun server =>
              { session with server := server }.set call .refreshing
      | .refreshing =>
          match (session.server.calls call.val).bind Call.reply? with
          | some (.ok (.refreshed tokens)) =>
              some ({ session with
                refreshCookie := some tokens.refreshToken }.set call
                (.store tokens.accessToken))
          | some (.error _) =>
              some ({ session with accessToken := none }.set call
                (.ended .unauthorized))
          | _ => none
      | .store token =>
          some ({ session with accessToken := some (.valid token) }.set call
            (.fetch false))
      | .ended _ => none
  | .server call nonce =>
      (session.server.calls call.val).bind fun value =>
        (Auth.step session.server
          (.proceed call.val (value.success nonce))).map fun server =>
            { session with server := server }

/-- The access token has expired, the refresh cookie is valid, and no call of
`apiFetch` has begun. -/
structure Begun (session : Session n) (user : UserId) : Prop where
  server : Initial session.server
  known : (session.server.users.get? user).isSome = true
  cookie : ∃ payload jti, session.refreshCookie = some payload ∧
    payload ∈ session.server.signed ∧ payload.type = .refresh ∧
    payload.sub = user ∧ payload.jti = some jti ∧
    session.server.jtis jti = true
  expired : session.accessToken = some .expired
  calls : ∀ call, session.calls call = .fetch true

/-- Every call has ended with the result of its request. -/
def AllServed (session : Session n) (user : UserId) : Prop :=
  ∀ call, session.calls call = .ended (.result user)

end Session

/-! ## The steps of a session -/

/-- A step of a call, of the browser for a call, or of the API. -/
inductive SessionStep {n : Nat} (deployment : Deployment)
    (session : Session n) : FetchAction n → Session n → Prop where
  | fetched {call : Fin n} {retry : Bool} :
      session.calls call = .fetch retry →
      SessionStep deployment session (.client call)
        (session.set call (.request session.accessToken retry))
  | authorized {call : Fin n} {token : Option AccessToken} {retry : Bool} :
      session.calls call = .request token retry →
      SessionStep deployment session (.client call)
        (session.set call (.response (authorize token) retry))
  | resulted {call : Fin n} {user : UserId} {retry : Bool} :
      session.calls call = .response (.ok user) retry →
      SessionStep deployment session (.client call)
        (session.set call (.ended (.result user)))
  | unauthorized {call : Fin n} {error : ChronosError} :
      session.calls call = .response (.error error) true →
      SessionStep deployment session (.client call)
        (session.set call .refresh)
  | failed {call : Fin n} {error : ChronosError} :
      session.calls call = .response (.error error) false →
      SessionStep deployment session (.client call)
        (session.set call (.ended (.failed error.message)))
  | sent {call : Fin n} {server : State} :
      session.calls call = .refresh →
      Auth.step session.server (.refresh call.val
        (deployment.attach session.refreshCookie)) = some server →
      SessionStep deployment session (.client call)
        ({ session with server := server }.set call .refreshing)
  | renewed {call : Fin n} {value : Call} {tokens : Tokens} :
      session.calls call = .refreshing →
      session.server.calls call.val = some value →
      value.reply? = some (.ok (.refreshed tokens)) →
      SessionStep deployment session (.client call)
        ({ session with refreshCookie := some tokens.refreshToken }.set call
          (.store tokens.accessToken))
  | refused {call : Fin n} {value : Call} {error : ChronosError} :
      session.calls call = .refreshing →
      session.server.calls call.val = some value →
      value.reply? = some (.error error) →
      SessionStep deployment session (.client call)
        ({ session with accessToken := none }.set call (.ended .unauthorized))
  | stored {call : Fin n} {token : JwtPayload} :
      session.calls call = .store token →
      SessionStep deployment session (.client call)
        ({ session with accessToken := some (.valid token) }.set call
          (.fetch false))
  | served {call : Fin n} {nonce : Jti} {value : Call} {server : State} :
      session.server.calls call.val = some value →
      Auth.step session.server (.proceed call.val (value.success nonce)) =
        some server →
      SessionStep deployment session (.server call nonce)
        { session with server := server }

theorem Session.step_cases {n : Nat} {deployment : Deployment}
    {session next : Session n} {action : FetchAction n}
    (taken : session.step deployment action = some next) :
    SessionStep deployment session action next := by
  cases action with
  | client call =>
      simp only [Session.step] at taken
      split at taken
      · cases taken
        exact .fetched ‹_›
      · cases taken
        exact .authorized ‹_›
      · cases taken
        exact .resulted ‹_›
      · cases taken
        exact .unauthorized ‹_›
      · cases taken
        exact .failed ‹_›
      · obtain ⟨server, sent, rfl⟩ := Option.map_eq_some_iff.mp taken
        exact .sent ‹_› sent
      · rename_i refreshing
        split at taken
        · rename_i answered
          obtain ⟨value, present, reply⟩ := Option.bind_eq_some_iff.mp answered
          cases taken
          exact .renewed refreshing present reply
        · rename_i answered
          obtain ⟨value, present, reply⟩ := Option.bind_eq_some_iff.mp answered
          cases taken
          exact .refused refreshing present reply
        · cases taken
      · cases taken
        exact .stored ‹_›
      · cases taken
  | server call nonce =>
      obtain ⟨value, present, proceeds⟩ := Option.bind_eq_some_iff.mp taken
      obtain ⟨server, served, rfl⟩ := Option.map_eq_some_iff.mp proceeds
      exact .served present served

/-- A step of a refresh whose calls to Redis and to the database succeed. -/
inductive RefreshStep (state : State) (payload : JwtPayload) (jti nonce : Jti) :
    RefreshPhase → State → RefreshPhase → Prop where
  | checked :
      state.jtis jti = true →
      RefreshStep state payload jti nonce .lookup state .findUser
  | unknown {error : ChronosError} :
      state.jtis jti = false →
      RefreshStep state payload jti nonce .lookup state
        (.answered (.error error))
  | found {user : User} :
      state.users.get? payload.sub = some user →
      RefreshStep state payload jti nonce .findUser state (.revoke user)
  | missing {error : ChronosError} :
      state.users.get? payload.sub = none →
      RefreshStep state payload jti nonce .findUser state
        (.answered (.error error))
  | rotated {user : User} :
      RefreshStep state payload jti nonce (.revoke user)
        ((state.revokeRefreshJti jti).sign
          (issueTokens payload.sub user nonce))
        (.store (issueTokens payload.sub user nonce))
  | renewed {tokens : Tokens} :
      RefreshStep state payload jti nonce (.store tokens)
        (state.storeRefreshJti tokens.jti)
        (.answered (.ok (.refreshed tokens)))

section Server

variable {state next : State} {payload : JwtPayload} {jti nonce : Jti}
  {phase : RefreshPhase} {call : CallId}

theorem RefreshStep.frame {phase' : RefreshPhase}
    (case : RefreshStep state payload jti nonce phase next phase') :
    next.calls = state.calls ∧ next.users = state.users ∧
      ∀ token ∈ state.signed, token ∈ next.signed := by
  cases case with
  | rotated =>
      refine ⟨rfl, rfl, ?_⟩
      intro token signed
      exact List.mem_append_left _ signed
  | _ => exact ⟨rfl, rfl, fun _ signed => signed⟩

theorem refreshStep_of_step
    (present : state.calls call = some (.refresh payload jti phase))
    (taken : step state
      (.proceed call ((Call.refresh payload jti phase).success nonce)) =
        some next) :
    ∃ middle phase',
      RefreshStep state payload jti nonce phase middle phase' ∧
      next = middle.set call (.refresh payload jti phase') := by
  simp only [step, present, proceed, Option.map_map,
    Option.map_eq_some_iff, Prod.exists, Function.comp_apply,
    Prod.map_apply, id_eq] at taken
  obtain ⟨middle, phase', refreshes, rfl⟩ := taken
  refine ⟨middle, phase', ?_, rfl⟩
  cases phase with
  | lookup =>
      simp only [Call.success, refresh] at refreshes
      split at refreshes <;> cases refreshes
      · exact .checked ‹_›
      · exact .unknown (Bool.eq_false_of_not_eq_true ‹_›)
  | findUser =>
      simp only [Call.success, refresh] at refreshes
      split at refreshes <;> cases refreshes
      · exact .missing ‹_›
      · exact .found ‹_›
  | revoke user =>
      simp only [Call.success, refresh] at refreshes
      split at refreshes <;> cases refreshes
      exact .rotated
  | store tokens =>
      cases refreshes
      exact .renewed
  | answered reply => cases refreshes

theorem exists_refresh_step
    (present : state.calls call = some (.refresh payload jti phase))
    (waits : (Call.refresh payload jti phase).reply? = none) :
    ∃ nonce next, step state
      (.proceed call ((Call.refresh payload jti phase).success nonce)) =
        some next := by
  obtain ⟨nonce, fresh⟩ := exists_fresh state
  refine ⟨nonce, ?_⟩
  simp only [step, present, proceed]
  cases phase with
  | lookup =>
      simp only [Call.success, refresh]
      split <;> exact ⟨_, rfl⟩
  | findUser =>
      simp only [Call.success, refresh]
      split <;> exact ⟨_, rfl⟩
  | revoke user =>
      simp only [Call.success, refresh, fresh, if_true]
      exact ⟨_, rfl⟩
  | store tokens => exact ⟨_, rfl⟩
  | answered reply => cases waits

end Server

/-! ## Every run -/

/-- The call has not sent its refresh request yet. -/
def FetchPhase.unsent : FetchPhase → Bool
  | .fetch retry => retry
  | .request _ retry => retry
  | .response _ retry => retry
  | .refresh => true
  | _ => false

/-- A request that `refreshToken` has sent, as the API keeps it. -/
def Call.Renewing (server : State) : Call → Prop
  | .answered reply => ∃ error, reply = .error error
  | .refresh _ _ (.store tokens) => tokens.refreshToken ∈ server.signed
  | .refresh _ _ (.answered (.ok body)) =>
      ∃ tokens, body = .refreshed tokens ∧ tokens.refreshToken ∈ server.signed
  | .refresh _ _ _ => True
  | _ => False

/-- The browser and the API agree on how far each call has come. -/
structure Session.Coherent {n : Nat} (session : Session n) : Prop where
  tokens : TokenInv session.server
  cookie : ∀ payload ∈ session.refreshCookie, payload ∈ session.server.signed
  unsent : ∀ call, (session.calls call).unsent = true →
    session.server.calls call.val = none
  waiting : ∀ call value, session.server.calls call.val = some value →
    value.reply? = none → session.calls call = .refreshing
  sent : ∀ call, session.calls call = .refreshing →
    ∃ value, session.server.calls call.val = some value
  renewing : ∀ (call : Fin n) value,
    session.server.calls call.val = some value →
    value.Renewing session.server

theorem beginRefresh_renewing (server : State) (cookie : Cookie) :
    (beginRefresh cookie).Renewing server := by
  cases cookie with
  | absent => exact ⟨_, rfl⟩
  | invalid => exact ⟨_, rfl⟩
  | verified payload =>
      unfold beginRefresh
      dsimp only
      split
      · exact ⟨_, rfl⟩
      · split
        · exact ⟨_, rfl⟩
        · exact trivial

theorem Call.Renewing.mono {server next : State} {value : Call}
    (renewing : value.Renewing server)
    (signed : ∀ token ∈ server.signed, token ∈ next.signed) :
    value.Renewing next := by
  unfold Call.Renewing at renewing ⊢
  split at renewing
  · exact renewing
  · exact signed _ renewing
  · obtain ⟨tokens, body, isSigned⟩ := renewing
    exact ⟨tokens, body, signed _ isSigned⟩
  · trivial
  · exact renewing.elim

theorem Call.Renewing.reply {server : State} {value : Call} {reply : Reply}
    (renewing : value.Renewing server) (answered : value.reply? = some reply) :
    (∃ error, reply = .error error) ∨
      ∃ tokens, reply = .ok (.refreshed tokens) ∧
        tokens.refreshToken ∈ server.signed := by
  unfold Call.reply? at answered
  split at answered
  · cases answered
    cases reply with
    | error error => exact .inl ⟨error, rfl⟩
    | ok body =>
        obtain ⟨tokens, rfl, signed⟩ := renewing
        exact .inr ⟨tokens, rfl, signed⟩
  · cases answered
    exact .inl renewing
  · cases answered

theorem Call.Renewing.exists_refresh {server : State} {value : Call}
    (renewing : value.Renewing server) (waits : value.reply? = none) :
    ∃ payload jti phase, value = .refresh payload jti phase := by
  cases value with
  | refresh payload jti phase => exact ⟨payload, jti, phase, rfl⟩
  | answered => cases waits
  | register => cases renewing
  | login => cases renewing
  | logout => cases renewing

theorem RefreshStep.renewing {state next : State} {payload : JwtPayload}
    {jti nonce : Jti} {phase phase' : RefreshPhase}
    (case : RefreshStep state payload jti nonce phase next phase')
    (renewing : (Call.refresh payload jti phase).Renewing state) :
    (Call.refresh payload jti phase').Renewing next := by
  cases case with
  | rotated =>
      show _ ∈ state.signed ++ _
      simp [issueTokens]
  | renewed => exact ⟨_, rfl, renewing⟩
  | _ => trivial

/-- The steps up to the end of a call while its refresh is under way. -/
def openSteps : Option Call → Nat
  | some (.refresh _ _ .lookup) => 9
  | some (.refresh _ _ .findUser) => 8
  | some (.refresh _ _ (.revoke _)) => 7
  | some (.refresh _ _ (.store _)) => 6
  | _ => 5

def FetchPhase.remaining (refreshing : Nat) : FetchPhase → Nat
  | .fetch retry => if retry then 13 else 3
  | .request _ retry => if retry then 12 else 2
  | .response _ retry => if retry then 11 else 1
  | .refresh => 10
  | .refreshing => refreshing
  | .store _ => 4
  | .ended _ => 0

theorem openSteps_bounds (value : Option Call) :
    5 ≤ openSteps value ∧ openSteps value ≤ 9 := by
  unfold openSteps
  split <;> decide

namespace Session

variable {n : Nat} {deployment : Deployment} {session next : Session n}
  {action : FetchAction n} {call other : Fin n}

theorem calls_set (phase : FetchPhase) :
    (session.set call phase).calls other =
      if other = call then phase else session.calls other := by
  simp only [set, Function.update_apply]

theorem refresh_step {server : State} {cookie : Cookie}
    (taken : Auth.step session.server (.refresh call.val cookie) =
      some server) :
    session.server.presents cookie = true ∧
      session.server.calls call.val = none ∧
      server = session.server.set call.val (beginRefresh cookie) := by
  simp only [Auth.step, State.start] at taken
  split at taken
  · split at taken
    · cases taken
      exact ⟨‹_›, Option.isNone_iff_eq_none.mp ‹_›, rfl⟩
    · cases taken
  · cases taken

theorem Begun.coherent {user : UserId} (begun : session.Begun user) :
    session.Coherent where
  tokens := .initial begun.server
  cookie := by
    intro payload isCookie
    obtain ⟨other, jti, present, signed, -⟩ := begun.cookie
    cases isCookie.symm.trans present
    exact signed
  unsent call _ := begun.server.calls call.val
  waiting call value present _ := by
    rw [begun.server.calls] at present
    cases present
  sent call refreshing := by
    rw [begun.calls] at refreshing
    cases refreshing
  renewing call value present := by
    rw [begun.server.calls] at present
    cases present

namespace Coherent

/-- A step of the browser that awaits no answer of the API any more. -/
theorem moved (coherent : session.Coherent) {phase : FetchPhase}
    {cookie : Option JwtPayload} {token : Option AccessToken}
    (answered : ∀ value, session.server.calls call.val = some value →
      value.reply? ≠ none)
    (unsent : phase.unsent = true → (session.calls call).unsent = true)
    (elsewhere : phase ≠ .refreshing)
    (signed : ∀ payload ∈ cookie, payload ∈ session.server.signed) :
    ({ session with refreshCookie := cookie, accessToken := token }.set call
      phase).Coherent where
  tokens := coherent.tokens
  cookie := signed
  unsent := by
    intro other isUnsent
    rw [calls_set] at isUnsent
    split at isUnsent
    · subst other
      exact coherent.unsent call (unsent isUnsent)
    · exact coherent.unsent other isUnsent
  waiting := by
    intro other value present waits
    have refreshing := coherent.waiting other value present waits
    rw [calls_set, if_neg, refreshing]
    rintro rfl
    exact answered value present waits
  sent := by
    intro other refreshing
    rw [calls_set] at refreshing
    split at refreshing
    · exact absurd refreshing elsewhere
    · exact coherent.sent other refreshing
  renewing := coherent.renewing

theorem answered (coherent : session.Coherent)
    (elsewhere : session.calls call ≠ .refreshing) (value : Call)
    (present : session.server.calls call.val = some value) :
    value.reply? ≠ none :=
  fun waits => elsewhere (coherent.waiting call value present waits)

theorem sends (coherent : session.Coherent) {server : State} {cookie : Cookie}
    (taken : Auth.step session.server (.refresh call.val cookie) =
      some server) :
    ({ session with server := server }.set call .refreshing).Coherent := by
  obtain ⟨-, absent, rfl⟩ := refresh_step taken
  have calls : ∀ other : Fin n,
      (session.server.set call.val (beginRefresh cookie)).calls other.val =
        if other = call then some (beginRefresh cookie)
        else session.server.calls other.val := by
    intro other
    simp only [State.calls_set, Fin.ext_iff]
  constructor
  · exact coherent.tokens.step taken
  · exact coherent.cookie
  · intro other isUnsent
    rw [calls_set] at isUnsent
    split at isUnsent
    · cases isUnsent
    · exact (calls other).trans ((if_neg ‹_›).trans
        (coherent.unsent other isUnsent))
  · intro other value present waits
    rw [calls_set]
    split
    · rfl
    · rename_i different
      have present' := (calls other).symm.trans present
      rw [if_neg different] at present'
      exact coherent.waiting other value present' waits
  · intro other refreshing
    by_cases same : other = call
    · exact ⟨_, (calls other).trans (if_pos same)⟩
    · rw [calls_set, if_neg same] at refreshing
      obtain ⟨value, present⟩ := coherent.sent other refreshing
      exact ⟨value, (calls other).trans ((if_neg same).trans present)⟩
  · intro other value present
    have present' := (calls other).symm.trans present
    split at present'
    · cases present'
      exact beginRefresh_renewing _ _
    · exact coherent.renewing other value present'

theorem refreshStep (coherent : session.Coherent) {nonce : Jti} {value : Call}
    {server : State}
    (present : session.server.calls call.val = some value)
    (taken : Auth.step session.server
      (.proceed call.val (value.success nonce)) = some server) :
    ∃ payload jti phase middle phase', value = .refresh payload jti phase ∧
      RefreshStep session.server payload jti nonce phase middle phase' ∧
      server = middle.set call.val (.refresh payload jti phase') := by
  have renewing := coherent.renewing call value present
  cases value with
  | refresh payload jti phase =>
      obtain ⟨middle, phase', case, rfl⟩ := refreshStep_of_step present taken
      exact ⟨payload, jti, phase, middle, phase', rfl, case, rfl⟩
  | answered reply =>
      simp [Auth.step, present, proceed] at taken
  | register => cases renewing
  | login => cases renewing
  | logout => cases renewing

theorem serves (coherent : session.Coherent) {nonce : Jti} {value : Call}
    {server : State}
    (present : session.server.calls call.val = some value)
    (taken : Auth.step session.server
      (.proceed call.val (value.success nonce)) = some server) :
    ({ session with server := server } : Session n).Coherent := by
  obtain ⟨payload, jti, phase, middle, phase', rfl, case, rfl⟩ :=
    coherent.refreshStep present taken
  obtain ⟨same, -, signed⟩ := case.frame
  have unanswered : (Call.refresh payload jti phase).reply? = none := by
    cases case <;> rfl
  have refreshing := coherent.waiting call _ present unanswered
  have calls : ∀ other : Fin n,
      (middle.set call.val (.refresh payload jti phase')).calls other.val =
        if other = call then some (.refresh payload jti phase')
        else session.server.calls other.val := by
    intro other
    simp only [State.calls_set, Fin.ext_iff, same]
  constructor
  · exact coherent.tokens.step taken
  · intro token isCookie
    exact signed token (coherent.cookie token isCookie)
  · intro other isUnsent
    refine (calls other).trans ((if_neg ?_).trans
      (coherent.unsent other isUnsent))
    rintro rfl
    rw [refreshing] at isUnsent
    cases isUnsent
  · intro other value present' waits
    have before := (calls other).symm.trans present'
    split at before
    · subst other
      exact refreshing
    · exact coherent.waiting other value before waits
  · intro other isRefreshing
    by_cases isCall : other = call
    · exact ⟨_, (calls other).trans (if_pos isCall)⟩
    · obtain ⟨value, present'⟩ := coherent.sent other isRefreshing
      exact ⟨value, (calls other).trans ((if_neg isCall).trans present')⟩
  · intro other value present'
    have before := (calls other).symm.trans present'
    split at before
    · cases before
      exact case.renewing (coherent.renewing call _ present)
    · exact (coherent.renewing other value before).mono signed

theorem step (coherent : session.Coherent)
    (taken : session.step deployment action = some next) : next.Coherent := by
  cases Session.step_cases taken with
  | @fetched call retry phase =>
      refine coherent.moved (coherent.answered ?_) ?_ nofun coherent.cookie
      · rw [phase]
        exact nofun
      · rw [phase]
        exact id
  | @authorized call token retry phase =>
      refine coherent.moved (coherent.answered ?_) ?_ nofun coherent.cookie
      · rw [phase]
        exact nofun
      · rw [phase]
        exact id
  | resulted phase | failed phase =>
      refine coherent.moved (coherent.answered ?_) nofun nofun coherent.cookie
      rw [phase]
      exact nofun
  | unauthorized phase =>
      refine coherent.moved (coherent.answered ?_) ?_ nofun coherent.cookie
      · rw [phase]
        exact nofun
      · rw [phase]
        exact fun _ => rfl
  | sent _ sends => exact coherent.sends sends
  | @renewed call value tokens phase present reply =>
      have renewing := coherent.renewing call value present
      refine coherent.moved ?_ nofun nofun ?_
      · intro other present'
        cases present.symm.trans present'
        rw [reply]
        exact nofun
      · intro payload isCookie
        cases isCookie
        rcases renewing.reply reply with ⟨_, impossible⟩ | ⟨_, same, signed⟩
        · cases impossible
        · cases same
          exact signed
  | @refused call value error phase present reply =>
      refine coherent.moved ?_ nofun nofun coherent.cookie
      intro other present'
      cases present.symm.trans present'
      rw [reply]
      exact nofun
  | stored phase =>
      refine coherent.moved (coherent.answered ?_) nofun nofun coherent.cookie
      rw [phase]
      exact nofun
  | served present serves => exact coherent.serves present serves

theorem run {start last : Session n}
    {trace : List (Transition (Session n) (FetchAction n))}
    (run : Run (Session.step deployment) start trace last)
    (coherent : start.Coherent) : last.Coherent := by
  induction run with
  | nil => exact coherent
  | snoc _ taken induction => exact induction.step taken

/-- A session with a call that has not ended can go on. -/
theorem exists_step (coherent : session.Coherent)
    (unended : ∀ outcome, session.calls call ≠ .ended outcome) :
    ∃ action next, session.step deployment action = some next := by
  cases phase : session.calls call with
  | fetch | request | store =>
      refine ⟨.client call, ?_⟩
      simp only [Session.step, phase]
      exact ⟨_, rfl⟩
  | response reply retry =>
      refine ⟨.client call, ?_⟩
      simp only [Session.step, phase]
      cases reply with
      | ok => exact ⟨_, rfl⟩
      | error => cases retry <;> exact ⟨_, rfl⟩
  | refresh =>
      refine ⟨.client call, ?_⟩
      have absent := coherent.unsent call (by rw [phase]; rfl)
      have presents : session.server.presents
          (deployment.attach session.refreshCookie) = true := by
        cases jar : session.refreshCookie with
        | none => rfl
        | some payload =>
            simp only [Deployment.attach]
            split
            · exact decide_eq_true (coherent.cookie payload jar)
            · rfl
      simp only [Session.step, phase, Auth.step, presents, if_true,
        State.start, absent, Option.isNone_none, Option.map_some]
      exact ⟨_, rfl⟩
  | refreshing =>
      obtain ⟨value, present⟩ := coherent.sent call phase
      have renewing := coherent.renewing call value present
      cases reply : value.reply? with
      | some answer =>
          refine ⟨.client call, ?_⟩
          simp only [Session.step, phase, present, Option.bind_some, reply]
          rcases renewing.reply reply with ⟨error, rfl⟩ | ⟨tokens, rfl, -⟩
          · exact ⟨_, rfl⟩
          · exact ⟨_, rfl⟩
      | none =>
          obtain ⟨payload, jti, step, rfl⟩ := renewing.exists_refresh reply
          obtain ⟨nonce, server, serves⟩ := exists_refresh_step present reply
          refine ⟨.server call nonce, ?_⟩
          simp only [Session.step, present, Option.bind_some, serves]
          exact ⟨_, rfl⟩
  | ended outcome => exact absurd phase (unended outcome)

/-- A session whose calls have all ended does not go on. -/
theorem stuck (coherent : session.Coherent)
    (ended : ∀ call, ∃ outcome, session.calls call = .ended outcome)
    (action : FetchAction n) : session.step deployment action = none := by
  cases steps : session.step deployment action with
  | none => rfl
  | some next =>
      exfalso
      have never : ∀ {call : Fin n} {phase : FetchPhase},
          session.calls call = phase → ∃ outcome, phase = .ended outcome := by
        rintro call _ rfl
        exact ended call
      cases Session.step_cases steps with
      | fetched phase | authorized phase | resulted phase | unauthorized phase
      | failed phase | stored phase | sent phase _ | renewed phase _ _
      | refused phase _ _ =>
          obtain ⟨_, impossible⟩ := never phase
          cases impossible
      | @served call nonce value server present serves =>
          obtain ⟨payload, jti, phase, middle, phase', rfl, case, -⟩ :=
            coherent.refreshStep present serves
          have unanswered : (Call.refresh payload jti phase).reply? = none := by
            cases case <;> rfl
          obtain ⟨_, impossible⟩ :=
            never (coherent.waiting call _ present unanswered)
          cases impossible

end Coherent

/-! ## Every run ends -/

/-- The number of steps that the call has left at most. -/
def remaining (session : Session n) (call : Fin n) : Nat :=
  (session.calls call).remaining
    (openSteps (session.server.calls call.val))

theorem sum_remaining_lt
    (others : ∀ other, other ≠ call →
      next.remaining other = session.remaining other)
    (less : next.remaining call < session.remaining call) :
    ∑ other, next.remaining other < ∑ other, session.remaining other := by
  apply Finset.sum_lt_sum
  · intro other _
    by_cases same : other = call
    · rw [same]
      exact le_of_lt less
    · exact le_of_eq (others other same)
  · exact ⟨call, Finset.mem_univ _, less⟩

theorem remaining_of_eq (calls : next.calls other = session.calls other)
    (server : next.server.calls other.val = session.server.calls other.val) :
    next.remaining other = session.remaining other := by
  unfold remaining
  rw [calls, server]

theorem sum_remaining_set {phase : FetchPhase} {cookie : Option JwtPayload}
    {token : Option AccessToken}
    (less : ({ session with refreshCookie := cookie, accessToken := token }.set
      call phase).remaining call < session.remaining call) :
    ∑ other, ({ session with
        refreshCookie := cookie, accessToken := token }.set call
          phase).remaining other <
      ∑ other, session.remaining other := by
  refine sum_remaining_lt ?_ less
  intro other different
  apply remaining_of_eq
  · rw [calls_set, if_neg different]
  · rfl

theorem Coherent.sum_remaining_lt (coherent : session.Coherent)
    (taken : session.step deployment action = some next) :
    ∑ call, next.remaining call < ∑ call, session.remaining call := by
  have isSet : ∀ {call : Fin n} {phase : FetchPhase} {session : Session n},
      (session.set call phase).calls call = phase := by
    intro call phase session
    rw [calls_set, if_pos rfl]
  cases Session.step_cases taken with
  | @fetched call retry phase =>
      apply sum_remaining_set
      rw [remaining, remaining, isSet, phase]
      cases retry <;> simp [FetchPhase.remaining]
  | @authorized call token retry phase =>
      apply sum_remaining_set
      rw [remaining, remaining, isSet, phase]
      cases retry <;> simp [FetchPhase.remaining]
  | @resulted call user retry phase =>
      apply sum_remaining_set
      rw [remaining, remaining, isSet, phase]
      cases retry <;> simp [FetchPhase.remaining]
  | unauthorized phase | failed phase | stored phase =>
      apply sum_remaining_set
      rw [remaining, remaining, isSet, phase]
      simp [FetchPhase.remaining]
  | @sent call server phase sends =>
      obtain ⟨-, -, rfl⟩ := refresh_step sends
      apply Session.sum_remaining_lt
      · intro other different
        apply remaining_of_eq
        · rw [calls_set, if_neg different]
        · show (session.server.set call.val _).calls other.val = _
          rw [State.calls_set, if_neg]
          exact fun same => different (Fin.ext same)
      · rw [remaining, remaining, isSet, phase]
        exact Nat.lt_succ_of_le (openSteps_bounds _).2
  | renewed phase present reply =>
      apply sum_remaining_set
      rw [remaining, remaining, isSet, phase]
      apply Nat.lt_of_lt_of_le _ (openSteps_bounds _).1
      simp [FetchPhase.remaining]
  | refused phase present reply =>
      apply sum_remaining_set
      rw [remaining, remaining, isSet, phase]
      apply Nat.lt_of_lt_of_le _ (openSteps_bounds _).1
      simp [FetchPhase.remaining]
  | @served call nonce value server present serves =>
      obtain ⟨payload, jti, phase, middle, phase', rfl, case, rfl⟩ :=
        coherent.refreshStep present serves
      have unanswered : (Call.refresh payload jti phase).reply? = none := by
        cases case <;> rfl
      have refreshing := coherent.waiting call _ present unanswered
      apply Session.sum_remaining_lt
      · intro other different
        apply remaining_of_eq
        · rfl
        · rw [State.calls_set, if_neg, case.frame.1]
          exact fun same => different (Fin.ext same)
      · rw [remaining, remaining, refreshing, present, State.calls_set,
          if_pos rfl]
        cases case <;> simp [FetchPhase.remaining, openSteps]

/-- No run is longer than thirteen steps for each call. -/
theorem length_add_remaining_le {start last : Session n}
    {trace : List (Transition (Session n) (FetchAction n))}
    (run : Run (Session.step deployment) start trace last)
    (coherent : start.Coherent) :
    trace.length + ∑ call, last.remaining call ≤
      ∑ call, start.remaining call := by
  induction run with
  | nil => simp
  | snoc earlier taken induction =>
      have less := (coherent.run earlier).sum_remaining_lt taken
      rw [List.length_append, List.length_singleton]
      omega

end Session

end Chronos.Auth
