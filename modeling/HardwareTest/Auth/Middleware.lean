import HardwareTest.Auth.Session

/-!
# Who may change the state

The middleware in front of the router, and the routes behind it.

* `authenticate` — the four authenticators, from the headers of a request to its principal;
* `routes`, `dispatch` — the route table and how the router picks an endpoint;
* `serve` — the middleware and the router for one request;
* `Endpoint.call` — the endpoints that call the coordinator to change something;
* `state_changes_authorized` — such a call comes from a principal with every role or with the role of
  an operator, and without a principal only the public endpoints are reached.
-/

namespace HardwareTest.Auth

open HardwareTest.Lib HardwareTest.Lib.Json HardwareTest.Python HardwareTest.Runner

/-! ## Requests -/

/-- An HTTP request, as far as the middleware and the router read its scope. -/
structure Request where
  path : Str
  method : Str
  headers : List (Bytes × Bytes)

/-- The bytes of an ASCII name. -/
def ascii (name : String) : Bytes := encodeAscii (codes name)

/-- `dict(headers).get(name, b"").decode("latin-1")`: the last header of a name counts. -/
def header (request : Request) (name : String) : Text :=
  match request.headers.reverse.lookup (ascii name) with
  | none => []
  | some value => value.map fun b => Char.ofNat b.toNat

/-- `s.casefold()` of a Latin-1 text, by code points. -/
def casefold (s : Text) : Str :=
  s.flatMap fun c =>
    let n := c.toNat
    if 0x41 ≤ n ∧ n ≤ 0x5A then [n + 32]
    else if n = 0xB5 then [0x3BC]
    else if 0xC0 ≤ n ∧ n ≤ 0xDE ∧ n ≠ 0xD7 then [n + 32]
    else if n = 0xDF then [0x73, 0x73]
    else [n]

/-- `_bearer_value`. -/
def bearerValue (authorization : Text) : Option Text :=
  match partition ' ' authorization with
  | (scheme, separator, token) =>
    if separator = false ∨ casefold scheme ≠ codes "bearer" ∨ token = [] then none else some token

/-- `_cookie_value`. -/
def cookieValue (cookies : Text) (name : Text) : Option Text :=
  (cookies.splitOn ';').findSome? fun item =>
    match partition '=' (strip item) with
    | (key, separator, value) => if separator = true ∧ key = name then some value else none

/-- The session cookie of a request. -/
def sessionCookie (request : Request) : Option Text :=
  cookieValue (header request "cookie") "test_runner_session".toList

/-! ## Authenticators -/

/-- What `verify_access_token` does with a token: the claims, the `OidcError` (`none`), or another
exception. -/
abbrev Verifier := Text → Except Raised (Option (List (Str × JsonValue)))

def disabledPrincipal : Principal where
  subject := codes "anonymous"
  username := none
  roles := [codes "viewer", codes "operator"]
  method := codes "disabled"
  expiresAt := none

def localApiPrincipal : Principal where
  subject := codes "local-api-token"
  username := none
  roles := [codes "viewer", codes "operator"]
  method := codes "api_token"
  expiresAt := none

/-- `_string_items`. -/
def stringItems : Option JsonValue → List Str
  | some (.list items) => strings items
  | _ => []

/-- `token_roles`, sorted. -/
def tokenRoles (claims : List (Str × JsonValue)) (clientId : Str) : List Str :=
  let realm := match Python.get claims (codes "realm_access") with
    | some (.dict access) => stringItems (Python.get access (codes "roles"))
    | _ => []
  let client := match Python.get claims (codes "resource_access") with
    | some (.dict resources) =>
      match Python.get resources clientId with
      | some (.dict access) => stringItems (Python.get access (codes "roles"))
      | _ => []
    | _ => []
  (realm ++ client).dedup.insertionSort (· ≤ ·)

/-- `_principal_from_claims`. -/
def principalFromClaims (py : Platform) (settings : AuthSettings) (claims : List (Str × JsonValue))
    (method : Str) : Except Raised Principal :=
  match settings.oidcClientId with
  | none => .error (.runtimeError "Keycloak settings were not validated")
  | some clientId => do
    let subject ← getItem (.dict claims) (codes "sub")
    let expiresAt ← optionalInt (Python.get claims (codes "exp"))
    return { subject := py.text subject
             username := optionalText py (Python.get claims (codes "preferred_username"))
             roles := tokenRoles claims (toStr clientId)
             method := method
             expiresAt := expiresAt }

/-- `_valid_static_bearer_token`. -/
def validStaticBearerToken (authorization : Text) (settings : AuthSettings) : Bool :=
  match settings.authApiToken, bearerValue authorization with
  | some expected, some token => decide (expected ≠ []) && Utf8.encode token == Utf8.encode expected
  | _, _ => false

/-- `_is_ui_page`. -/
def isUiPage (request : Request) : Bool := request.path == codes "/" || request.path == codes "/artifact-runs"

/-- The principal of the session cookie, when there is one. -/
def cookiePrincipal (py : Platform) (settings : AuthSettings) (now : ℤ) (request : Request) :
    Except Raised (Option Principal) :=
  match sessionCookie request with
  | none => .ok none
  | some cookie => decodeSession py settings now (toStr cookie)

inductive Authenticator
  | disabled
  | «local»
  | keycloak (verify : Verifier)
  | keycloakUiLocalApi

/-- `authenticator.authenticate(scope)` at the time `now`. -/
def authenticate (py : Platform) (settings : AuthSettings) (now : ℤ) (authenticator : Authenticator)
    (request : Request) : Except Raised (Option Principal) :=
  let authorization := header request "authorization"
  match authenticator with
  | .disabled => .ok (some disabledPrincipal)
  | .local =>
    if validStaticBearerToken authorization settings then .ok (some localApiPrincipal)
    else cookiePrincipal py settings now request
  | .keycloak verify =>
    match bearerValue authorization with
    | some bearer => do
      match ← verify bearer with
      | none => return none
      | some claims => return some (← principalFromClaims py settings claims (codes "oidc_bearer"))
    | none => cookiePrincipal py settings now request
  | .keycloakUiLocalApi =>
    if isUiPage request then cookiePrincipal py settings now request
    else if authorization ≠ [] then
      if validStaticBearerToken authorization settings then .ok (some localApiPrincipal) else .ok none
    else cookiePrincipal py settings now request

/-- `create_authenticator`. -/
def createAuthenticator (settings : AuthSettings) (oidc : Option Verifier) : Except Raised Authenticator :=
  match settings.authMode, oidc with
  | .disabled, _ => .ok .disabled
  | .local, _ => .ok .local
  | _, none => .error (.runtimeError "Keycloak authentication requires an OIDC client")
  | .keycloakUiLocalApi, some _ => .ok .keycloakUiLocalApi
  | .keycloak, some verify => .ok (.keycloak verify)

/-! ## Roles -/

/-- `_PUBLIC_PATHS`. -/
def publicPaths : List Str :=
  [codes "/health", codes "/login", codes "/auth/status", codes "/auth/login", codes "/auth/callback",
    codes "/auth/logout"]

inductive Role
  | viewer
  | operator
  deriving DecidableEq

/-- `_required_role`. -/
def requiredRole (request : Request) : Role :=
  if ¬codes "/v1/" <+: request.path then .viewer
  else if request.method ∈ [codes "POST", codes "PUT", codes "PATCH", codes "DELETE"] then .operator
  else .viewer

/-- `_has_role`. -/
def hasRole (principal : Principal) (role : Role) (settings : AuthSettings) : Bool :=
  if principal.method ∈ [codes "disabled", codes "local", codes "api_token"] then true
  else
    let viewer := toStr settings.oidcViewerRole
    let operator := toStr settings.oidcOperatorRole
    match role with
    | .operator => decide (operator ∈ principal.roles)
    | .viewer => decide (viewer ∈ principal.roles ∨ operator ∈ principal.roles)

/-! ## Routes -/

inductive Endpoint
  | documentation
  | health
  | current
  | uiConfig
  | buildImage
  | pullImage
  | runTests
  | cancel
  | events
  | artifacts
  | artifact
  | artifactRuns
  | historicalArtifact
  | authStatus
  | loginPage
  | login
  | callback
  | logout
  | index
  | artifactRunsPage
  deriving DecidableEq

/-- A part of a route's path: text, or a parameter, which takes at least one character other than `/`. -/
inductive Segment
  | literal (text : Str)
  | parameter
  deriving DecidableEq

structure Route where
  methods : List Str
  path : List Segment
  endpoint : Endpoint
  deriving DecidableEq

/-- A route without parameters. -/
def Route.at (methods : List String) (path : String) (endpoint : Endpoint) : Route :=
  ⟨methods.map codes, [.literal (codes path)], endpoint⟩

/-- The routes in the order of their registration: the framework's own, `create_router`,
`create_auth_router` and the pages. -/
def routes : List Route :=
  [.at ["GET", "HEAD"] "/openapi.json" .documentation,
    .at ["GET", "HEAD"] "/docs" .documentation,
    .at ["GET", "HEAD"] "/docs/oauth2-redirect" .documentation,
    .at ["GET", "HEAD"] "/redoc" .documentation,
    .at ["GET"] "/health" .health,
    .at ["GET"] "/v1/current" .current,
    .at ["GET"] "/v1/config" .uiConfig,
    .at ["POST"] "/v1/images/build" .buildImage,
    .at ["POST"] "/v1/images/pull" .pullImage,
    .at ["POST"] "/v1/runs" .runTests,
    .at ["POST"] "/v1/current/cancel" .cancel,
    .at ["GET"] "/v1/current/events" .events,
    .at ["GET"] "/v1/current/artifacts" .artifacts,
    ⟨[codes "GET"], [.literal (codes "/v1/current/artifacts/"), .parameter], .artifact⟩,
    .at ["GET"] "/v1/artifact-runs" .artifactRuns,
    ⟨[codes "GET"], [.literal (codes "/v1/artifact-runs/"), .parameter, .literal (codes "/"), .parameter],
      .historicalArtifact⟩,
    .at ["GET"] "/auth/status" .authStatus,
    .at ["GET"] "/login" .loginPage,
    .at ["POST"] "/auth/login" .login,
    .at ["GET"] "/auth/callback" .callback,
    .at ["POST"] "/auth/logout" .logout,
    .at ["GET"] "/" .index,
    .at ["GET"] "/artifact-runs" .artifactRunsPage]

/-- The regular expression of a route's path: its end also matches before a last line feed. -/
def matchPath : List Segment → Str → Bool
  | [], s => s == [] || s == [10]
  | .literal text :: path, s => text.isPrefixOf s && matchPath path (s.drop text.length)
  | .parameter :: path, s =>
    let value := s.takeWhile (· != 47)
    !value.isEmpty && matchPath path (s.drop value.length)

/-- The endpoint of the first route that matches path and method. -/
def dispatch (request : Request) : Option Endpoint :=
  (routes.find? fun route => matchPath route.path request.path && decide (request.method ∈ route.methods)).map
    Route.endpoint

/-! ## Serving a request -/

inductive Outcome
  | raised (e : Raised)
  | redirectedToLogin
  | unauthorized
  | forbidden
  | notServed
  | invalid
  | served (endpoint : Endpoint)
  deriving DecidableEq

/-- The router: `valid` is the framework's validation of an endpoint's parameters. -/
def route (valid : Endpoint → Request → Bool) (request : Request) : Outcome :=
  match dispatch request with
  | none => .notServed
  | some endpoint => if valid endpoint request then .served endpoint else .invalid

/-- `AuthenticationMiddleware.__call__` in front of the router. -/
def serve (py : Platform) (settings : AuthSettings) (valid : Endpoint → Request → Bool) (now : ℤ)
    (authenticator : Authenticator) (request : Request) : Outcome :=
  if request.path ∈ publicPaths then route valid request
  else
    match authenticate py settings now authenticator request with
    | .error e => .raised e
    | .ok none => if isUiPage request then .redirectedToLogin else .unauthorized
    | .ok (some principal) =>
      if hasRole principal (requiredRole request) settings then route valid request else .forbidden

/-- The calls that change the state of the coordinator. -/
inductive Call
  | startBuild
  | startPull
  | startRun
  | cancel
  deriving DecidableEq

/-- What an endpoint calls of the coordinator. -/
def Endpoint.call : Endpoint → Option Call
  | .buildImage => some .startBuild
  | .pullImage => some .startPull
  | .runTests => some .startRun
  | .cancel => some .cancel
  | _ => none

/-- The endpoints behind the public paths. -/
def Endpoint.isPublic : Endpoint → Bool
  | .health | .loginPage | .authStatus | .login | .callback | .logout => true
  | _ => false

/-! ## What is served -/

/-- What a matched literal says about the path. -/
theorem prefix_of_matchPath {text : Str} {path : List Segment} {s : Str}
    (h : matchPath (.literal text :: path) s = true) : text <+: s := by
  rw [matchPath, Bool.and_eq_true] at h
  exact List.isPrefixOf_iff_prefix.mp h.1

/-- The endpoint is that of a route that matches. -/
theorem route_of_dispatch {request : Request} {e : Endpoint} (h : dispatch request = some e) :
    ∃ r ∈ routes, r.endpoint = e ∧ matchPath r.path request.path = true ∧ request.method ∈ r.methods := by
  obtain ⟨r, hfind, rfl⟩ := Option.map_eq_some_iff.mp h
  have hmatch := List.find?_some hfind
  rw [Bool.and_eq_true, decide_eq_true_eq] at hmatch
  exact ⟨r, List.mem_of_find?_eq_some hfind, rfl, hmatch⟩

/-- A route that changes the state: one literal below `/v1/`, with one method. -/
def Route.isStateChange (r : Route) : Bool :=
  decide (r.methods = [codes "POST"]) &&
    match r.path with
    | .literal text :: _ => decide (codes "/v1/" <+: text)
    | _ => false

/-- The classifier agrees with the routes: what changes the state requires an operator. -/
theorem requiredRole_of_call {request : Request} {e : Endpoint} {c : Call}
    (hdispatch : dispatch request = some e) (hcall : e.call = some c) : requiredRole request = .operator := by
  have hroutes : ∀ r ∈ routes, r.endpoint.call.isSome = true → r.isStateChange = true := by decide +kernel
  obtain ⟨r, hr, rfl, hpath, hmethod⟩ := route_of_dispatch hdispatch
  have hchange := hroutes r hr (by rw [hcall]; rfl)
  rcases r with ⟨methods, path, e⟩
  rw [Route.isStateChange, Bool.and_eq_true, decide_eq_true_eq] at hchange
  obtain ⟨rfl, hliteral⟩ := hchange
  rcases path with _ | ⟨⟨text⟩ | _, path⟩
  · cases hliteral
  · have hprefix : codes "/v1/" <+: request.path :=
      (of_decide_eq_true hliteral).trans (prefix_of_matchPath hpath)
    rw [requiredRole, if_neg (not_not.mpr hprefix), if_pos]
    rw [List.mem_singleton.mp hmethod]
    exact List.mem_cons_self
  · cases hliteral

/-- The public paths lead to public endpoints. -/
theorem isPublic_of_dispatch {request : Request} {e : Endpoint} (hpath : request.path ∈ publicPaths)
    (hdispatch : dispatch request = some e) : e.isPublic = true := by
  have hroutes : ∀ path ∈ publicPaths, ∀ r ∈ routes, matchPath r.path path = true →
      r.endpoint.isPublic = true := by decide +kernel
  obtain ⟨r, hr, rfl, hmatch, -⟩ := route_of_dispatch hdispatch
  exact hroutes _ hpath r hr hmatch

section

variable (py : Platform) (settings : AuthSettings) (valid : Endpoint → Request → Bool) (now : ℤ)
  (authenticator : Authenticator)

/-- A request that reaches an endpoint was dispatched to it, on a public path or for a principal with
the required role. -/
theorem admitted_of_served {request : Request} {e : Endpoint}
    (h : serve py settings valid now authenticator request = .served e) :
    dispatch request = some e ∧
      (request.path ∈ publicPaths ∨
        ∃ p, authenticate py settings now authenticator request = .ok (some p) ∧
          hasRole p (requiredRole request) settings = true) := by
  have hroute : route valid request = .served e → dispatch request = some e := by
    intro h
    rw [route] at h
    rcases hdispatch : dispatch request with _ | e'
    · rw [hdispatch] at h
      cases h
    · rw [hdispatch] at h
      by_cases hvalid : valid e' request = true
      · exact congrArg some (Outcome.served.inj ((if_pos hvalid).symm.trans h))
      · cases (if_neg hvalid).symm.trans h
  by_cases hpath : request.path ∈ publicPaths
  · rw [serve, if_pos hpath] at h
    exact ⟨hroute h, .inl hpath⟩
  · rw [serve, if_neg hpath] at h
    rcases hauth : authenticate py settings now authenticator request with _ | _ | p
    · rw [hauth] at h
      cases h
    · rw [hauth] at h
      by_cases hpage : isUiPage request = true
      · cases (if_pos hpage).symm.trans h
      · cases (if_neg hpage).symm.trans h
    · rw [hauth] at h
      by_cases hrole : hasRole p (requiredRole request) settings = true
      · exact ⟨hroute ((if_pos hrole).symm.trans h), .inr ⟨p, rfl, hrole⟩⟩
      · cases (if_neg hrole).symm.trans h

/-- A principal with the required role gets to the router. -/
theorem serve_of_hasRole {request : Request} (hpath : request.path ∉ publicPaths) {p : Principal}
    (hauth : authenticate py settings now authenticator request = .ok (some p))
    (hrole : hasRole p (requiredRole request) settings = true) :
    serve py settings valid now authenticator request = route valid request := by
  rw [serve, if_neg hpath, hauth]
  exact if_pos hrole

/-- A principal of the local login or of the static token, or one with the role of an operator. -/
def MayOperate (settings : AuthSettings) (p : Principal) : Prop :=
  p.method = codes "local" ∨ p.method = codes "api_token" ∨ toStr settings.oidcOperatorRole ∈ p.roles

/-- Who has the role of an operator. -/
theorem mayOperate_of_hasRole {p : Principal} (h : hasRole p .operator settings = true) :
    MayOperate settings p ∨ p.method = codes "disabled" := by
  rw [hasRole] at h
  by_cases hmethod : p.method ∈ [codes "disabled", codes "local", codes "api_token"]
  · simp only [List.mem_cons, List.not_mem_nil, or_false] at hmethod
    rcases hmethod with hm | hm | hm
    · exact .inr hm
    · exact .inl (.inl hm)
    · exact .inl (.inr (.inl hm))
  · rw [if_neg hmethod] at h
    exact .inl (.inr (.inr (of_decide_eq_true h)))

/-- A call of the coordinator is made for a principal with the role of an operator. -/
theorem operator_of_served {request : Request} {e : Endpoint} {c : Call}
    (h : serve py settings valid now authenticator request = .served e) (hcall : e.call = some c) :
    ∃ p, authenticate py settings now authenticator request = .ok (some p) ∧
      (MayOperate settings p ∨ p.method = codes "disabled") := by
  obtain ⟨hdispatch, hpath | ⟨p, hauth, hrole⟩⟩ := admitted_of_served py settings valid now authenticator h
  · have hpublic := isPublic_of_dispatch hpath hdispatch
    cases e <;> simp [Endpoint.call, Endpoint.isPublic] at hcall hpublic
  · rw [requiredRole_of_call hdispatch hcall] at hrole
    exact ⟨p, hauth, mayOperate_of_hasRole settings hrole⟩

end

/-! ## Where principals come from -/

section

variable {py : Platform} {settings : AuthSettings} {now : ℤ}

theorem method_of_claims {claims : List (Str × JsonValue)} {method : Str} {p : Principal}
    (h : principalFromClaims py settings claims method = .ok p) : p.method = method := by
  rw [principalFromClaims] at h
  rcases hid : settings.oidcClientId with _ | clientId
  · rw [hid] at h
    cases h
  rcases hsub : getItem (.dict claims) (codes "sub") with e | subject
  · simp [hid, hsub, bind, Except.bind] at h
  rcases hexp : optionalInt (Python.get claims (codes "exp")) with e | expiresAt
  · simp [hid, hsub, hexp, bind, Except.bind] at h
  · simp only [hid, hsub, hexp, bind, Except.bind, pure, Except.pure, Except.ok.injEq] at h
    rw [← h]

/-- An accepted credential is the static token, a verified bearer token or a session cookie. -/
theorem authenticate_cases {authenticator : Authenticator} (hauth : authenticator ≠ .disabled)
    {request : Request} {p : Principal}
    (h : authenticate py settings now authenticator request = .ok (some p)) :
    p.method = codes "api_token" ∨ p.method = codes "oidc_bearer" ∨
      cookiePrincipal py settings now request = .ok (some p) := by
  have htoken : ∀ {b : Bool} {other : Except Raised (Option Principal)},
      (if b then .ok (some localApiPrincipal) else other) = .ok (some p) →
      p.method = codes "api_token" ∨ other = .ok (some p) := by
    rintro (_ | _) other h
    · exact .inr h
    · left
      rw [← Option.some.inj (Except.ok.inj h)]
      rfl
  cases authenticator with
  | disabled => exact absurd rfl hauth
  | «local» => exact (htoken h).imp_right .inr
  | keycloak verify =>
    rw [authenticate] at h
    rcases hbearer : bearerValue (header request "authorization") with _ | bearer
    · simp only [hbearer] at h
      exact .inr (.inr h)
    · rcases hverify : verify bearer with e | _ | claims
      · simp [hbearer, hverify, bind, Except.bind] at h
      · simp [hbearer, hverify, bind, Except.bind, pure, Except.pure] at h
      · rcases hclaims : principalFromClaims py settings claims (codes "oidc_bearer") with e | q
        · simp [hbearer, hverify, hclaims, bind, Except.bind] at h
        · simp only [hbearer, hverify, hclaims, bind, Except.bind, pure, Except.pure, Except.ok.injEq,
            Option.some.injEq] at h
          exact .inr (.inl (h ▸ method_of_claims hclaims))
  | keycloakUiLocalApi =>
    rw [authenticate] at h
    split_ifs at h
    · exact .inr (.inr h)
    · left
      rw [← Option.some.inj (Except.ok.inj h)]
      rfl
    · cases h
    · exact .inr (.inr h)

/-- The principal of a password login. -/
def loginPrincipal (username : Str) : Principal where
  subject := codes "local:" ++ username
  username := some username
  roles := [codes "viewer", codes "operator"]
  method := codes "local"
  expiresAt := none

/-- The session cookies that the service sets: after a password login and after the callback of the
identity provider. -/
inductive Issued (py : Platform) (settings : AuthSettings) : Str → Prop
  | login (username token : Str) (p : CarriedPrincipal) (t : Instant) (hp : p.toPrincipal = loginPrincipal username)
      (htoken : encodeSigned py settings t.seconds (asdict p.toPrincipal) = .ok token) : Issued py settings token
  | callback (claims : List (Str × JsonValue)) (token : Str) (p : CarriedPrincipal) (t : Instant)
      (hp : principalFromClaims py settings claims (codes "oidc_session") = .ok p.toPrincipal)
      (htoken : encodeSigned py settings t.seconds (asdict p.toPrincipal) = .ok token) : Issued py settings token

/-- An issued session is decoded to the principal it was issued for. -/
theorem eq_of_issued {secret : Text} (hsecret : settings.authSessionSecret = some secret)
    {p : CarriedPrincipal} {t : Instant} {token : Str}
    (htoken : encodeSigned py settings t.seconds (asdict p.toPrincipal) = .ok token) {q : Principal}
    (h : decodeSession py settings now token = .ok (some q)) : q = p.toPrincipal := by
  obtain ⟨token', htoken', hdecode⟩ := decodeSession_encodeSigned py settings hsecret p t now
  obtain rfl : token' = token := Except.ok.inj (htoken'.symm.trans htoken)
  rw [h] at hdecode
  split_ifs at hdecode
  · exact Option.some.inj (Except.ok.inj hdecode)
  · cases hdecode

theorem method_of_issued {secret : Text} (hsecret : settings.authSessionSecret = some secret) {token : Str}
    (hissued : Issued py settings token) {p : Principal}
    (h : decodeSession py settings now token = .ok (some p)) :
    p.method = codes "local" ∨ p.method = codes "oidc_session" := by
  cases hissued with
  | login username _ q t hq htoken =>
    left
    rw [eq_of_issued hsecret htoken h, hq]
    rfl
  | callback claims _ q t hq htoken =>
    right
    rw [eq_of_issued hsecret htoken h]
    exact method_of_claims hq

/-- With authentication no authenticator is the disabled one. -/
theorem ne_disabled_of_create {oidc : Option Verifier} {authenticator : Authenticator}
    (hmode : settings.authMode ≠ .disabled) (h : createAuthenticator settings oidc = .ok authenticator) :
    authenticator ≠ .disabled := by
  rintro rfl
  rw [createAuthenticator.eq_def] at h
  rcases hm : settings.authMode with _ | _ | _ | _
  · exact hmode hm
  all_goals
    rw [hm] at h
    cases oidc <;> cases h

/-- No accepted credential is one of the disabled mode, as long as the sessions are issued ones. -/
theorem method_ne_disabled {authenticator : Authenticator} (hauth : authenticator ≠ .disabled)
    (hmode : settings.authMode ≠ .disabled) {request : Request}
    (hissued : ∀ cookie, sessionCookie request = some cookie → Issued py settings (toStr cookie))
    {p : Principal} (h : authenticate py settings now authenticator request = .ok (some p)) :
    p.method ≠ codes "disabled" := by
  obtain ⟨secret, hsecret⟩ : ∃ secret, settings.authSessionSecret = some secret := by
    have hset := settings.secret_set hmode
    rcases hs : settings.authSessionSecret with _ | secret
    · rw [hs] at hset
      cases hset
    · exact ⟨secret, rfl⟩
  rcases authenticate_cases hauth h with hm | hm | hcookie
  · rw [hm]
    decide
  · rw [hm]
    decide
  · rw [cookiePrincipal] at hcookie
    rcases hc : sessionCookie request with _ | cookie
    · rw [hc] at hcookie
      cases hcookie
    · rw [hc] at hcookie
      rcases method_of_issued hsecret (hissued cookie hc) hcookie with hm | hm <;> rw [hm] <;> decide

end

/-- **Authorization of state-changing calls**, in every mode with authentication: such a call is made
for the principal of a credential that the authenticator accepted, one that may operate or one of the
disabled mode; one that may operate, when the session cookies are those that the service issued; and a
request without an accepted credential reaches public endpoints on public paths only. -/
theorem state_changes_authorized (py : Platform) (settings : AuthSettings)
    (valid : Endpoint → Request → Bool) (now : ℤ) (oidc : Option Verifier) (authenticator : Authenticator)
    (hmode : settings.authMode ≠ .disabled) (hcreate : createAuthenticator settings oidc = .ok authenticator)
    (request : Request) (e : Endpoint) (hserved : serve py settings valid now authenticator request = .served e) :
    (e.call.isSome = true →
      ∃ p, authenticate py settings now authenticator request = .ok (some p) ∧
        (MayOperate settings p ∨ p.method = codes "disabled") ∧
        ((∀ cookie, sessionCookie request = some cookie → Issued py settings (toStr cookie)) →
          MayOperate settings p)) ∧
    ((∀ p, authenticate py settings now authenticator request ≠ .ok (some p)) →
      request.path ∈ publicPaths ∧ e.isPublic = true) := by
  refine ⟨fun hcall => ?_, fun hnone => ?_⟩
  · obtain ⟨c, hc⟩ := Option.isSome_iff_exists.mp hcall
    obtain ⟨p, hauth, hp⟩ := operator_of_served py settings valid now authenticator hserved hc
    refine ⟨p, hauth, hp, fun hissued => hp.resolve_right ?_⟩
    exact method_ne_disabled (ne_disabled_of_create hmode hcreate) hmode hissued hauth
  · obtain ⟨hdispatch, hpath | ⟨p, hauth, -⟩⟩ :=
      admitted_of_served py settings valid now authenticator hserved
    · exact ⟨hpath, isPublic_of_dispatch hpath hdispatch⟩
    · exact absurd hauth (hnone p)

/-- A request to run tests, with one header. -/
def runRequest (name value : String) : Request where
  path := codes "/v1/runs"
  method := codes "POST"
  headers := [(ascii name, ascii value)]

/-- `localSettings` with a static token. -/
def tokenSettings : AuthSettings :=
  { localSettings with
    authApiToken := some "ci-api-token".toList
    token_unset := by decide
    token_set := fun _ => by decide }

/-- A request with the static token runs tests. -/
theorem state_changes_authorized_token :
    serve alicePlatform tokenSettings (fun _ _ => true) 1700000060 .local
        (runRequest "authorization" "Bearer ci-api-token") = .served .runTests ∧
      ∃ p, authenticate alicePlatform tokenSettings 1700000060 .local
          (runRequest "authorization" "Bearer ci-api-token") = .ok (some p) ∧
        (MayOperate tokenSettings p ∨ p.method = codes "disabled") ∧
        ((∀ cookie, sessionCookie (runRequest "authorization" "Bearer ci-api-token") = some cookie →
            Issued alicePlatform tokenSettings (toStr cookie)) → MayOperate tokenSettings p) :=
  have hserved : serve alicePlatform tokenSettings (fun _ _ => true) 1700000060 .local
      (runRequest "authorization" "Bearer ci-api-token") = .served .runTests := by decide +kernel
  ⟨hserved, (state_changes_authorized alicePlatform tokenSettings (fun _ _ => true) 1700000060 none .local
    (by decide) rfl _ .runTests hserved).1 rfl⟩

/-- A session of the disabled mode, signed with the secret of the service. -/
def forgedCookie : String :=
  "test_runner_session=eyJleHBpcmVzX2F0IjpudWxsLCJpYXQiOjE3MDAwMDAwMDAsIm1ldGhvZCI6ImRpc2FibGVkIiwicm9s"
    ++ "ZXMiOltdLCJzdWJqZWN0IjoibWFsbG9yeSIsInVzZXJuYW1lIjpudWxsfQ.332901e766b14fe8f6b9799a1ddb119"
    ++ "bc586d8d5018f4bc8359752bcc41f188b"

/-- The platform on the session in `forgedCookie`. -/
def forgedPlatform : Platform :=
  { alicePlatform with
    hexdigest := fun _ _ => codes "332901e766b14fe8f6b9799a1ddb119bc586d8d5018f4bc8359752bcc41f188b"
    digest_ascii := fun _ _ => by decide }

/-- Whoever has the secret can sign a session of the disabled mode: its principal has no role and is
neither local nor of the static token, and it runs tests. -/
theorem forged_session_runs_tests :
    serve forgedPlatform localSettings (fun _ _ => true) 1700000060 .local (runRequest "cookie" forgedCookie)
        = .served .runTests ∧
      authenticate forgedPlatform localSettings 1700000060 .local (runRequest "cookie" forgedCookie)
        = .ok (some ⟨codes "mallory", none, [], codes "disabled", none⟩) ∧
      ¬MayOperate localSettings ⟨codes "mallory", none, [], codes "disabled", none⟩ := by
  have hauth : authenticate forgedPlatform localSettings 1700000060 .local (runRequest "cookie" forgedCookie)
      = .ok (some ⟨codes "mallory", none, [], codes "disabled", none⟩) := by decide +kernel
  refine ⟨?_, hauth, ?_⟩
  · exact serve_of_hasRole _ _ _ _ _ (by decide) hauth (by decide)
  · rw [MayOperate]
    decide

end HardwareTest.Auth
