import Chronos.Jobs
import Chronos.Tenancy
import Mathlib.Logic.Function.Basic

/-!
# The authentication endpoints

`POST /auth/register`, `/login`, `/refresh` and `/logout` of
`api/src/routes/auth.ts`, from the point where the rate limit and the body
schema have let the request through.  Any number of requests are in progress;
each call to the database, to Redis or to bcrypt is a step of its own.  The
identifiers drawn by `nanoid` do not repeat.
-/

namespace Chronos.Auth

/-- The `jti` claim of a refresh token. -/
abbrev Jti := Nat

inductive UserRole where
  | admin
  | member
  deriving DecidableEq

inductive TokenType where
  | access
  | refresh
  deriving DecidableEq

structure JwtPayload where
  sub : UserId
  email : String
  role : UserRole
  type : TokenType
  jti : Option Jti
  deriving DecidableEq

structure User where
  email : String
  passwordHash : String
  role : UserRole

structure Organization where
  name : String
  ownerId : UserId

/-- What `issueTokens` returns. -/
structure Tokens where
  accessToken : JwtPayload
  refreshToken : JwtPayload
  jti : Jti

def issueTokens (sub : UserId) (user : User) (jti : Jti) : Tokens where
  accessToken := ⟨sub, user.email, user.role, .access, none⟩
  refreshToken := ⟨sub, user.email, user.role, .refresh, some jti⟩
  jti := jti

structure RegisterBody where
  email : String
  password : String
  orgName : Option String

structure LoginBody where
  email : String
  password : String

/-- The body of a successful answer, with the tokens set as cookies. -/
inductive Body where
  | registered (user : UserId) (org : OrgId) (tokens : Tokens)
  | loggedIn (user : UserId) (tokens : Tokens)
  | refreshed (tokens : Tokens)
  | loggedOut

abbrev Reply := Except ChronosError Body

def conflictError (message : String) : ChronosError :=
  ⟨"CONFLICT", message, 409⟩

/-- The global error handler's answer to a database error. -/
def dbError : DbError → ChronosError
  | .uniqueViolation =>
      conflictError "A record with this identifier already exists"
  | .other => internalError

/-- The refresh cookie of a request: `verified` if it carries a token that
`jwt.verify` accepts. -/
inductive Cookie where
  | absent
  | invalid
  | verified (payload : JwtPayload)

inductive RegisterPhase where
  | findExisting
  | hash
  | create (passwordHash : String)
  | store (user : UserId) (org : OrgId) (tokens : Tokens)
  | answered (reply : Reply)

inductive LoginPhase where
  | findUser
  | compare (id : UserId) (user : User)
  | store (id : UserId) (tokens : Tokens)
  | answered (reply : Reply)

inductive RefreshPhase where
  | lookup
  | findUser
  | revoke (user : User)
  | store (tokens : Tokens)
  | answered (reply : Reply)

/-- A request in progress; `refresh` and `logout` know the verified token. -/
inductive Call where
  | register (body : RegisterBody) (phase : RegisterPhase)
  | login (body : LoginBody) (phase : LoginPhase)
  | refresh (payload : JwtPayload) (jti : Jti) (phase : RefreshPhase)
  | logout (jti : Jti)
  | answered (reply : Reply)

/-- `jtis` are the keys `refresh:jti:…` in Redis, `signed` all tokens signed
so far. -/
structure State where
  users : Table UserId User
  organizations : Table OrgId Organization
  memberships : Table (OrgId × UserId) OrgMemberRole
  jtis : Jti → Bool
  signed : List JwtPayload
  calls : CallId → Option Call

/-- The outcome of the call that a request awaits, with the identifiers drawn
after it. -/
inductive Input where
  | ok
  | fail (error : DbError)
  | hashed (passwordHash : String)
  | created (user : UserId) (org : OrgId) (jti : Jti)
  | compared (valid : Option Jti)
  | nonce (jti : Jti)

namespace State

/-- `nanoid` has not drawn this identifier before. -/
def fresh (state : State) (jti : Jti) : Bool :=
  state.signed.all fun payload => payload.jti ≠ some jti

def sign (state : State) (tokens : Tokens) : State :=
  { state with
    signed := state.signed ++ [tokens.accessToken, tokens.refreshToken] }

def storeRefreshJti (state : State) (jti : Jti) : State :=
  { state with jtis := Function.update state.jtis jti true }

def isRefreshJtiValid (state : State) (jti : Jti) : Bool := state.jtis jti

def revokeRefreshJti (state : State) (jti : Jti) : State :=
  { state with jtis := Function.update state.jtis jti false }

def findByEmail (state : State) (email : String) : Option (UserId × User) :=
  state.users.rows.find? fun row => row.2.email = email

/-- The transaction of a registration; the email is unique. -/
def createUser (state : State) (body : RegisterBody) (passwordHash : String)
    (user : UserId) (org : OrgId) : Option State :=
  if (state.findByEmail body.email).isSome then none
  else
    let name := body.orgName.getD
      (((body.email.splitOn "@").headD "") ++ "'s Org")
    (state.users.insert? user ⟨body.email, passwordHash, .member⟩).bind
      fun users =>
        (state.organizations.insert? org ⟨name, user⟩).bind
          fun organizations =>
            (state.memberships.insert? (org, user) .owner).map
              fun memberships =>
                { state with
                  users := users, organizations := organizations
                  memberships := memberships }

end State

/-- One step of `POST /auth/register`. -/
def register (state : State) (body : RegisterBody) :
    RegisterPhase → Input → Option (State × RegisterPhase)
  | .findExisting, .ok =>
      if (state.findByEmail body.email).isSome then
        some (state, .answered
          (.error (conflictError "A user with this email already exists")))
      else some (state, .hash)
  | .hash, .hashed passwordHash => some (state, .create passwordHash)
  | .create passwordHash, .created user org jti =>
      if state.fresh jti then
        (state.createUser body passwordHash user org).map fun next =>
          let tokens :=
            issueTokens user ⟨body.email, passwordHash, .member⟩ jti
          (next.sign tokens, .store user org tokens)
      else none
  | .store user org tokens, .ok =>
      some (state.storeRefreshJti tokens.jti,
        .answered (.ok (.registered user org tokens)))
  | .answered _, _ => none
  | _, .fail error => some (state, .answered (.error (dbError error)))
  | _, _ => none

/-- One step of `POST /auth/login`; bcrypt's verdict is an input. -/
def login (state : State) (body : LoginBody) :
    LoginPhase → Input → Option (State × LoginPhase)
  | .findUser, .ok =>
      match state.findByEmail body.email with
      | none =>
          some (state, .answered
            (.error (unauthorizedError "Invalid email or password")))
      | some (id, user) => some (state, .compare id user)
  | .compare _ _, .compared none =>
      some (state, .answered
        (.error (unauthorizedError "Invalid email or password")))
  | .compare id user, .compared (some jti) =>
      if state.fresh jti then
        let tokens := issueTokens id user jti
        some (state.sign tokens, .store id tokens)
      else none
  | .store id tokens, .ok =>
      some (state.storeRefreshJti tokens.jti,
        .answered (.ok (.loggedIn id tokens)))
  | .answered _, _ => none
  | _, .fail error => some (state, .answered (.error (dbError error)))
  | _, _ => none

/-- The synchronous checks of `POST /auth/refresh`. -/
def beginRefresh : Cookie → Call
  | .absent =>
      .answered (.error (unauthorizedError "No refresh token provided"))
  | .invalid =>
      .answered (.error (unauthorizedError "Invalid or expired refresh token"))
  | .verified payload =>
      if payload.type ≠ .refresh then
        .answered (.error (unauthorizedError "Invalid token type"))
      else
        match payload.jti with
        | none =>
            .answered (.error
              (unauthorizedError "Refresh token has been revoked or expired"))
        | some jti => .refresh payload jti .lookup

/-- One step of `POST /auth/refresh`. -/
def refresh (state : State) (payload : JwtPayload) (jti : Jti) :
    RefreshPhase → Input → Option (State × RefreshPhase)
  | .lookup, .ok =>
      if state.isRefreshJtiValid jti then some (state, .findUser)
      else
        some (state, .answered (.error
          (unauthorizedError "Refresh token has been revoked or expired")))
  | .findUser, .ok =>
      match state.users.get? payload.sub with
      | none =>
          some (state, .answered (.error (unauthorizedError "User not found")))
      | some user => some (state, .revoke user)
  | .revoke user, .nonce newJti =>
      if state.fresh newJti then
        let tokens := issueTokens payload.sub user newJti
        some ((state.revokeRefreshJti jti).sign tokens, .store tokens)
      else none
  | .store tokens, .ok =>
      some (state.storeRefreshJti tokens.jti,
        .answered (.ok (.refreshed tokens)))
  | .answered _, _ => none
  | _, .fail error => some (state, .answered (.error (dbError error)))
  | _, _ => none

/-- The synchronous part of `POST /auth/logout`. -/
def beginLogout : Cookie → Call
  | .verified payload =>
      match payload.jti with
      | none => .answered (.ok .loggedOut)
      | some jti => .logout jti
  | _ => .answered (.ok .loggedOut)

/-- The revocation of `POST /auth/logout`, whose failure is ignored. -/
def logout (state : State) (jti : Jti) : Input → Option State
  | .ok => some (state.revokeRefreshJti jti)
  | .fail _ => some state
  | _ => none

inductive Action where
  | register (call : CallId) (body : RegisterBody)
  | login (call : CallId) (body : LoginBody)
  | refresh (call : CallId) (cookie : Cookie)
  | logout (call : CallId) (cookie : Cookie)
  | proceed (call : CallId) (input : Input)
  | expire (jti : Jti)

namespace State

def set (state : State) (call : CallId) (value : Call) : State :=
  { state with calls := Function.update state.calls call (some value) }

/-- Begin a request under a fresh identifier. -/
def start (state : State) (call : CallId) (value : Call) : Option State :=
  if (state.calls call).isNone then some (state.set call value) else none

/-- Only signed tokens verify. -/
def presents (state : State) : Cookie → Bool
  | .verified payload => payload ∈ state.signed
  | _ => true

end State

/-- One step of a request. -/
def proceed (state : State) (input : Input) : Call → Option (State × Call)
  | .register body phase =>
      (register state body phase input).map (Prod.map id (.register body))
  | .login body phase =>
      (login state body phase input).map (Prod.map id (.login body))
  | .refresh payload jti phase =>
      (refresh state payload jti phase input).map
        (Prod.map id (.refresh payload jti))
  | .logout jti =>
      (logout state jti input).map fun next =>
        (next, .answered (.ok .loggedOut))
  | .answered _ => none

def step (state : State) : Action → Option State
  | .register call body => state.start call (.register body .findExisting)
  | .login call body => state.start call (.login body .findUser)
  | .refresh call cookie =>
      if state.presents cookie then state.start call (beginRefresh cookie)
      else none
  | .logout call cookie =>
      if state.presents cookie then state.start call (beginLogout cookie)
      else none
  | .proceed call input =>
      match state.calls call with
      | none => none
      | some value =>
          (proceed state input value).map fun next => next.1.set call next.2
  | .expire jti => some (state.revokeRefreshJti jti)

end Chronos.Auth
