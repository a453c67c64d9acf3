import Chronos.Auth

/-!
# The authentication guard

`requireAuth` of `api/src/middleware/auth.ts`, the options of the token plugin
in `api/src/index.ts` and the cookies that `api/src/routes/auth.ts` sets.  The
guard asks whether a token is given, and the plugin looks for the token to
verify on its own, with its own notion of a bearer header.
-/

namespace Chronos.Auth

/-- What the guard and the plugin read of a request. -/
structure GuardedRequest where
  authorization : Option String
  cookies : String → Option String

/-- The text after `Bearer ` in a header. -/
def bearerText (header : String) : Option String :=
  if "Bearer ".toList.isPrefixOf header.toList then
    some (String.ofList (header.toList.drop 7))
  else none

def GuardedRequest.bearerToken (request : GuardedRequest) : Option String :=
  request.authorization.bind bearerText

/-- The token plugin under the name of its cookie: `verify` yields the payload
of a validly signed token that has not expired, and `jwtVerify` applies it to
the token of the header if there is a bearer header, else to that of the
cookie.  What a bearer header is, `headerToken` says: `none` for a header of
another scheme, `some none` for one that does not hold exactly one token.  The
plugin does not look at the case of the scheme, so it may take the token of a
header that the guard passes over. -/
structure JwtPlugin (cookieName : String) where
  verify : String → Option JwtPayload
  headerToken : String → Option (Option String)
  jwtVerify : GuardedRequest → Option JwtPayload
  verify_empty : verify "" = none
  headerToken_bearer : ∀ {header token}, bearerText header = some token →
    headerToken header =
      some (if ' ' ∈ token.toList then none else some token)
  ofHeader : ∀ {request taken},
    request.authorization.bind headerToken = some taken →
      jwtVerify request = taken.bind verify
  ofCookie : ∀ {request}, request.authorization.bind headerToken = none →
    jwtVerify request = (request.cookies cookieName).bind verify

/-- `cookie: { cookieName: 'refreshToken', signed: false }`. -/
def pluginCookie : String := "refreshToken"

/-- The cookie that the guard asks for. -/
def guardCookie : String := "accessToken"

/-- `ACCESS_COOKIE`. -/
def accessCookie : String := "chronos_access"

/-- `REFRESH_COOKIE`. -/
def refreshCookie : String := "chronos_refresh"

/-- The variable `token` of the guard: the header before the cookie, where an
empty text counts as absent. -/
def GuardedRequest.token (request : GuardedRequest) : Option String :=
  if truthy request.bearerToken then request.bearerToken
  else request.cookies guardCookie

/-- The guard; its result is `request.user`. -/
def requireAuth (jwt : JwtPlugin pluginCookie) (request : GuardedRequest) :
    Except ChronosError JwtPayload :=
  if truthy request.token then
    match jwt.jwtVerify request with
    | none => .error (unauthorizedError "Invalid or expired token")
    | some payload =>
        if payload.type = .access then .ok payload
        else .error (unauthorizedError "Invalid token type")
  else .error (unauthorizedError "No authentication token provided")

namespace GuardedRequest

/-- The token that a client presents: that of the header, or else that of the
cookie which login, registration and refresh set. -/
def credential (request : GuardedRequest) : Option String :=
  request.bearerToken.or (request.cookies accessCookie)

end GuardedRequest

namespace JwtPlugin

variable {cookieName : String} (jwt : JwtPlugin cookieName)

/-- The token that the plugin verifies. -/
def token (request : GuardedRequest) : Option String :=
  match request.authorization.bind jwt.headerToken with
  | some taken => taken
  | none => request.cookies cookieName

/-- The payload of a valid access token. -/
def access (token : Option String) : Option JwtPayload :=
  (token.bind jwt.verify).filter fun payload => payload.type = .access

@[simp] theorem access_none : jwt.access none = none :=
  rfl

@[simp] theorem access_empty : jwt.access (some "") = none := by
  rw [access, Option.bind_some, jwt.verify_empty]
  rfl

theorem jwtVerify_eq (request : GuardedRequest) :
    jwt.jwtVerify request = (jwt.token request).bind jwt.verify := by
  unfold token
  cases header : request.authorization.bind jwt.headerToken with
  | some taken => exact jwt.ofHeader header
  | none => exact jwt.ofCookie header

/-- Guard and plugin agree on a header that starts with `Bearer `, unless more
than a token follows. -/
theorem token_of_bearer {request : GuardedRequest} {text : String}
    (given : request.bearerToken = some text) :
    jwt.token request = if ' ' ∈ text.toList then none else some text := by
  obtain ⟨header, present, bearer⟩ := Option.bind_eq_some_iff.mp given
  unfold token
  rw [present, Option.bind_some, jwt.headerToken_bearer bearer]

end JwtPlugin

/-- The guard lets a request through exactly with a valid access token as its
credential, and takes the payload of this token. -/
def VerifiesCredential (jwt : JwtPlugin pluginCookie)
    (request : GuardedRequest) : Prop :=
  ∀ payload, requireAuth jwt request = .ok payload ↔
    jwt.access request.credential = some payload

/-- Requests for which it makes no difference where the guard, the plugin and
the routes that set the cookies look for a token. -/
inductive CookiesAgree (jwt : JwtPlugin pluginCookie)
    (request : GuardedRequest) : Prop where
  | header {token : String} :
      request.bearerToken = some token → ' ' ∉ token.toList →
      CookiesAgree jwt request
  | invalid {token : String} :
      request.bearerToken = some token → jwt.access (some token) = none →
      CookiesAgree jwt request
  | refused :
      request.bearerToken = none →
      jwt.access (request.cookies accessCookie) = none →
      truthy (request.cookies guardCookie) = false ∨
        jwt.access (jwt.token request) = none →
      CookiesAgree jwt request
  | copied {payload : JwtPayload} :
      request.bearerToken = none →
      jwt.access (request.cookies accessCookie) = some payload →
      truthy (request.cookies guardCookie) = true →
      jwt.access (jwt.token request) = some payload →
      CookiesAgree jwt request

section Guard

variable {jwt : JwtPlugin pluginCookie} {request : GuardedRequest}
  {payload : JwtPayload}

/-- The guard asks for one token, and the plugin verifies perhaps another. -/
theorem requireAuth_eq_ok_iff :
    requireAuth jwt request = .ok payload ↔
      truthy request.token = true ∧
        jwt.access (jwt.token request) = some payload := by
  unfold requireAuth JwtPlugin.access
  rw [jwt.jwtVerify_eq]
  split
  · rename_i given
    simp only [given, true_and]
    cases (jwt.token request).bind jwt.verify with
    | none => simp
    | some verified =>
        by_cases access : verified.type = .access
        · simp [access, Option.filter]
        · simp [access, Option.filter]
  · rename_i missing
    simp [missing]

theorem requireAuth_of_header {token : String}
    (given : request.bearerToken = some token)
    (one : ' ' ∉ token.toList) :
    requireAuth jwt request = .ok payload ↔
      jwt.access (some token) = some payload := by
  rw [requireAuth_eq_ok_iff, jwt.token_of_bearer given, if_neg one]
  by_cases empty : token = ""
  · subst empty
    rw [jwt.access_empty]
    simp
  · have asked : truthy request.token = true := by
      have nonempty : truthy request.bearerToken = true := by
        rw [given]
        exact decide_eq_true empty
      rw [GuardedRequest.token, if_pos nonempty]
      exact nonempty
    rw [asked]
    exact and_iff_right rfl

theorem not_requireAuth_of_blank {token : String}
    (given : request.bearerToken = some token)
    (blank : ' ' ∈ token.toList) :
    requireAuth jwt request ≠ .ok payload := by
  intro passes
  obtain ⟨-, verified⟩ := requireAuth_eq_ok_iff.mp passes
  rw [jwt.token_of_bearer given, if_pos blank, jwt.access_none] at verified
  cases verified

/-- Without `Bearer ` in the header the guard asks for one cookie, and the
plugin verifies another or the token of a header that the guard passed
over. -/
theorem requireAuth_of_cookies (missing : request.bearerToken = none) :
    requireAuth jwt request = .ok payload ↔
      truthy (request.cookies guardCookie) = true ∧
        jwt.access (jwt.token request) = some payload := by
  rw [requireAuth_eq_ok_iff, GuardedRequest.token, missing]
  rfl

theorem verifies_iff_of_bearer {token : String}
    (header : request.bearerToken = some token) :
    VerifiesCredential jwt request ↔ CookiesAgree jwt request := by
  have credential : request.credential = some token := by
    rw [GuardedRequest.credential, header, Option.some_or]
  unfold VerifiesCredential
  rw [credential]
  by_cases blank : ' ' ∈ token.toList
  · constructor
    · intro verifies
      apply CookiesAgree.invalid header
      apply Option.eq_none_iff_forall_ne_some.mpr
      intro payload valid
      have passes := (verifies payload).mpr valid
      exact not_requireAuth_of_blank header blank passes
    · intro agree payload
      apply iff_of_false (not_requireAuth_of_blank header blank)
      intro valid
      cases agree with
      | header given one =>
          cases header.symm.trans given
          exact one blank
      | invalid given refused =>
          cases header.symm.trans given
          rw [refused] at valid
          cases valid
      | refused missing => cases header.symm.trans missing
      | copied missing => cases header.symm.trans missing
  · constructor
    · intro _
      exact .header header blank
    · intro _ payload
      exact requireAuth_of_header header blank

theorem verifies_iff_of_missing (header : request.bearerToken = none) :
    VerifiesCredential jwt request ↔ CookiesAgree jwt request := by
  have credential : request.credential = request.cookies accessCookie := by
    rw [GuardedRequest.credential, header, Option.none_or]
  unfold VerifiesCredential
  simp only [requireAuth_of_cookies header, credential]
  constructor
  · intro verifies
    cases valid : jwt.access (request.cookies accessCookie) with
    | none =>
        refine .refused header valid ?_
        by_contra passes
        rw [not_or, Bool.not_eq_false] at passes
        obtain ⟨payload, verified⟩ := Option.ne_none_iff_exists'.mp passes.2
        have accepted := (verifies payload).mp ⟨passes.1, verified⟩
        rw [valid] at accepted
        cases accepted
    | some payload =>
        obtain ⟨asked, verified⟩ := (verifies payload).mpr valid
        exact .copied header valid asked verified
  · intro agree payload
    cases agree with
    | header given => cases header.symm.trans given
    | invalid given => cases header.symm.trans given
    | refused _ valid refused =>
        rw [valid]
        rcases refused with notAsked | notVerified
        · simp [notAsked]
        · simp [notVerified]
    | copied _ valid asked verified =>
        rw [valid, asked, verified]
        exact and_iff_right rfl

end Guard

/-- The guard verifies the credential of a request if and only if it makes no
difference where a token is looked for. -/
theorem requireAuth_verifies_iff (jwt : JwtPlugin pluginCookie)
    (request : GuardedRequest) :
    VerifiesCredential jwt request ↔ CookiesAgree jwt request := by
  cases header : request.bearerToken with
  | some token => exact verifies_iff_of_bearer header
  | none => exact verifies_iff_of_missing header

/-! ## Browser sessions -/

/-- A `Set-Cookie` header; a cookie without a value is cleared. -/
structure SetCookie where
  name : String
  value : Option String

def setAccessCookie (token : String) : SetCookie := ⟨accessCookie, some token⟩

def setRefreshCookie (token : String) : SetCookie :=
  ⟨refreshCookie, some token⟩

/-- The cookies of a browser after these headers, one after another. -/
def cookiesAfter (headers : List SetCookie) : String → Option String :=
  headers.foldl
    (fun cookies header => Function.update cookies header.name header.value)
    fun _ => none

theorem cookiesAfter_eq_none {headers : List SetCookie} {name : String}
    (unnamed : ∀ header ∈ headers, header.name ≠ name) :
    cookiesAfter headers name = none := by
  induction headers using List.reverseRecOn with
  | nil => rfl
  | append_singleton headers header induction =>
      have other : name ≠ header.name := by
        apply Ne.symm
        exact unnamed header (by simp)
      have earlier : cookiesAfter headers name = none := by
        apply induction
        intro other member
        exact unnamed other (List.mem_append_left _ member)
      rw [cookiesAfter, List.foldl_append]
      exact (Function.update_of_ne other _ _).trans earlier

/-- No session that rests on the cookies of the API gets past the guard. -/
theorem requireAuth_of_session (jwt : JwtPlugin pluginCookie)
    {headers : List SetCookie}
    (own : ∀ header ∈ headers,
      header.name = accessCookie ∨ header.name = refreshCookie) :
    requireAuth jwt ⟨none, cookiesAfter headers⟩ =
      .error (unauthorizedError "No authentication token provided") := by
  have absent : cookiesAfter headers guardCookie = none := by
    apply cookiesAfter_eq_none
    intro header member isGuard
    rcases own header member with isAccess | isRefresh
    · exact absurd (isGuard.symm.trans isAccess) (by decide)
    · exact absurd (isGuard.symm.trans isRefresh) (by decide)
  apply if_neg
  show ¬truthy (cookiesAfter headers guardCookie) = true
  rw [absent]
  exact Bool.false_ne_true

/-- A bearer header as the plugin reads it: the scheme in any case, a blank
and one token. -/
def schemeToken (header : String) : Option (Option String) :=
  if (header.toList.take 7).map Char.toLower = "bearer ".toList then
    some (if ' ' ∈ header.toList.drop 7 then none
      else some (String.ofList (header.toList.drop 7)))
  else none

theorem schemeToken_of_bearerText {header token : String}
    (bearer : bearerText header = some token) :
    schemeToken header =
      some (if ' ' ∈ token.toList then none else some token) := by
  unfold bearerText at bearer
  split at bearer
  · rename_i starts
    cases bearer
    have scheme : header.toList.take 7 = "Bearer ".toList := by
      exact (List.prefix_iff_eq_take.mp
        (List.isPrefixOf_iff_prefix.mp starts)).symm
    rw [schemeToken, scheme, if_pos (by decide), String.toList_ofList]
  · cases bearer

/-- The plugin over a function that verifies tokens. -/
def JwtPlugin.ofVerify (cookieName : String)
    (verify : String → Option JwtPayload) (verify_empty : verify "" = none) :
    JwtPlugin cookieName where
  verify := verify
  headerToken := schemeToken
  jwtVerify request :=
    match request.authorization.bind schemeToken with
    | some taken => taken.bind verify
    | none => (request.cookies cookieName).bind verify
  verify_empty := verify_empty
  headerToken_bearer := schemeToken_of_bearerText
  ofHeader := by
    intro request taken given
    rw [given]
  ofCookie := by
    intro request missing
    rw [missing]

/-- A plugin for which one text is a valid access token. -/
def JwtPlugin.sample : JwtPlugin pluginCookie :=
  .ofVerify pluginCookie
    (fun text =>
      if text = "signed" then some ⟨1, "a@b.c", .member, .access, none⟩
      else none)
    (by decide)

/-- After a login the guard refuses the access cookie. -/
theorem access_cookie_refused :
    JwtPlugin.sample.access
        (GuardedRequest.mk none
          (cookiesAfter
            [setRefreshCookie "renewing", setAccessCookie "signed"])).credential =
      some ⟨1, "a@b.c", .member, .access, none⟩ ∧
    requireAuth JwtPlugin.sample
        ⟨none,
          cookiesAfter
            [setRefreshCookie "renewing", setAccessCookie "signed"]⟩ =
      .error (unauthorizedError "No authentication token provided") ∧
    ¬VerifiesCredential JwtPlugin.sample
      ⟨none,
        cookiesAfter
          [setRefreshCookie "renewing", setAccessCookie "signed"]⟩ := by
  have own : ∀ header ∈
      [setRefreshCookie "renewing", setAccessCookie "signed"],
      header.name = accessCookie ∨ header.name = refreshCookie := by
    simp [setRefreshCookie, setAccessCookie]
  have refused := requireAuth_of_session JwtPlugin.sample own
  refine ⟨rfl, refused, ?_⟩
  intro verifies
  have passes := (verifies ⟨1, "a@b.c", .member, .access, none⟩).mpr rfl
  rw [refused] at passes
  cases passes

/-- A scheme in another case: the guard asks for its cookie, and the plugin
verifies the token of the header. -/
example :
    requireAuth JwtPlugin.sample
        ⟨some "bearer signed", cookiesAfter [⟨guardCookie, some "x"⟩]⟩ =
      .ok ⟨1, "a@b.c", .member, .access, none⟩ := by
  rfl

end Chronos.Auth
