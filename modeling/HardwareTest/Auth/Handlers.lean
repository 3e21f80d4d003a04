import HardwareTest.Auth.Middleware

/-!
# Login and callback

The handlers that give out the two cookies: the login page and the callback of the OIDC login, and the
password login.

* `loginPage`, `login`, `callback` — the handlers of the router;
* `decodeSigned_ok_iff`, `decodeSession_ok_iff` — which tokens are decided on;
* `authentication_decides_iff` — for which requests the authenticators and the handlers come to a
  decision, and that all others end in an exception.
-/

namespace HardwareTest.Auth

open HardwareTest.Lib HardwareTest.Lib.Json HardwareTest.Python HardwareTest.Runner

/-- The settings of the router, with what `validate_authentication_settings` establishes about them. -/
structure RouterSettings extends AuthSettings where
  authUsername : Option Text
  authPassword : Option Text
  authCookieSecure : Bool
  credentials_set : authMode = .local →
    hasSecretValue authUsername = true ∧ hasSecretValue authPassword = true

/-- A `LoginRequest`. -/
structure LoginRequest where
  username : Str
  password : Str

/-- A `Set-Cookie` header. -/
structure SetCookie where
  key : Str
  value : Str
  maxAge : ℤ
  httponly : Bool
  secure : Bool
  samesite : String
  deriving DecidableEq

inductive Content
  | json (members : List (String × String))
  | loginHtml
  | redirect (location : Str)
  deriving DecidableEq

structure Response where
  status : ℕ
  content : Content
  cookies : List SetCookie
  deriving DecidableEq

/-- A response that only tells a detail. -/
def Response.detail (status : ℕ) (text : String) : Response := ⟨status, .json [("detail", text)], []⟩

def Response.setCookie (response : Response) (cookie : SetCookie) : Response :=
  { response with cookies := response.cookies ++ [cookie] }

/-- `response.delete_cookie(key)`. -/
def Response.deleteCookie (response : Response) (key : Str) : Response :=
  response.setCookie ⟨key, [], 0, false, false, "lax"⟩

/-- What the `OidcClient` does: the answer, the `OidcError` (`none`), or another exception. -/
structure OidcClient where
  authorizationUrl : Str → Str → Str → Except Raised (Option Str)
  exchangeCode : Str → Str → Except Raised (Option (List (Str × JsonValue)))
  verifyIdToken : Str → Str → Except Raised (Option (List (Str × JsonValue)))

/-- `SESSION_COOKIE`. -/
def sessionCookieName : Str := codes "test_runner_session"

/-- `OIDC_TRANSACTION_COOKIE`. -/
def oidcTransactionCookieName : Str := codes "test_runner_oidc_transaction"

/-- `_uses_keycloak_ui`. -/
def usesKeycloakUi (settings : AuthSettings) : Bool :=
  settings.authMode == .keycloak || settings.authMode == .keycloakUiLocalApi

/-- `_credentials_match`. -/
def credentialsMatch (settings : RouterSettings) (request : LoginRequest) : Except Raised Bool :=
  match settings.authUsername, settings.authPassword with
  | some username, some password => do
    if ← compareDigest request.username (toStr username) then
      let given ← encode request.password
      return given == Utf8.encode password
    else return false
  | _, _ => throw (.runtimeError "authentication settings were not validated")

/-- `_set_session_cookie` at the time `now`. -/
def setSessionCookie (py : Platform) (settings : RouterSettings) (now : ℤ) (principal : Principal)
    (response : Response) : Except Raised Response := do
  let maxAge := match principal.expiresAt with
    | none => settings.authSessionTtlSeconds
    | some expiresAt => min settings.authSessionTtlSeconds (max 0 (expiresAt - now))
  let token ← encodeSigned py settings.toAuthSettings now (asdict principal)
  return response.setCookie
    ⟨sessionCookieName, token, maxAge, true, settings.authCookieSecure, "lax"⟩

/-- `login`. -/
def login (py : Platform) (settings : RouterSettings) (now : ℤ) (request : LoginRequest) :
    Except Raised Response := do
  if settings.authMode = .disabled then return ⟨200, .json [("status", "disabled")], []⟩
  else if settings.authMode ≠ .local then return .detail 404 "password login is not available"
  else if !(← credentialsMatch settings request) then return .detail 401 "invalid username or password"
  else
    setSessionCookie py settings now (loginPrincipal request.username)
      ⟨200, .json [("status", "authenticated")], []⟩

/-- The strings that `login_page` generates for one login, with `secrets.token_urlsafe`. -/
structure Generated where
  state : Str
  nonce : Str
  verifier : Str
  state_ascii : ∀ c ∈ state, c < 128
  nonce_ascii : ∀ c ∈ nonce, c < 128
  verifier_ascii : ∀ c ∈ verifier, c < 128

/-- `login_page`. -/
def loginPage (py : Platform) (sha256 : Bytes → Bytes) (settings : RouterSettings) (now : ℤ)
    (oidc : Option OidcClient) (generated : Generated) : Except Raised (Option Response) :=
  match settings.authMode, oidc with
  | .disabled, _ => .ok (some ⟨303, .redirect (codes "/"), []⟩)
  | .local, _ => .ok (some ⟨200, .loginHtml, []⟩)
  | _, none => .error (.runtimeError "Keycloak authentication requires an OIDC client")
  | _, some oidc => do
    let challenge := base64url (sha256 (← encode generated.verifier))
    match ← oidc.authorizationUrl generated.state generated.nonce challenge with
    | none => return none
    | some location =>
      let token ← encodeSigned py settings.toAuthSettings now
        (transaction generated.state generated.nonce generated.verifier)
      return some (Response.setCookie ⟨303, .redirect location, []⟩
        ⟨oidcTransactionCookieName, token, 600, true, settings.authCookieSecure, "lax"⟩)

/-- `str(transaction.get("state", ""))`. -/
def transactionState (py : Platform) (transaction : List (Str × JsonValue)) : Str :=
  match Python.get transaction (codes "state") with
  | none => []
  | some state => py.text state

/-- The `try` block of `callback`: the principal, or `none` for an `OidcError`. -/
def identify (py : Platform) (settings : AuthSettings) (oidc : OidcClient) (code : Str)
    (transaction : List (Str × JsonValue)) : Except Raised (Option Principal) := do
  let verifier ← getItem (.dict transaction) (codes "verifier")
  match ← oidc.exchangeCode code (py.text verifier) with
  | none => return none
  | some tokens =>
    let idToken ← getItem (.dict tokens) (codes "id_token")
    let nonce ← getItem (.dict transaction) (codes "nonce")
    match ← oidc.verifyIdToken (py.text idToken) (py.text nonce) with
    | none => return none
    | some claims => return some (← principalFromClaims py settings claims (codes "oidc_session"))

/-- `callback` at the time `now`. -/
def callback (py : Platform) (settings : RouterSettings) (now : ℤ) (oidc : Option OidcClient)
    (code state : Str) (transactionCookie : Option Str) : Except Raised Response :=
  match usesKeycloakUi settings.toAuthSettings, oidc with
  | true, some oidc => do
    match ← decodeSigned py settings.toAuthSettings now transactionCookie 600 with
    | none => return .detail 401 "invalid authentication transaction"
    | some transaction =>
      if !(← compareDigest (transactionState py transaction) state) then
        return .detail 401 "invalid authentication transaction"
      else
        match identify py settings.toAuthSettings oidc code transaction with
        | .error .keyError | .ok none => return .detail 401 "identity provider authentication failed"
        | .error e => throw e
        | .ok (some principal) =>
          if !hasRole principal .viewer settings.toAuthSettings then
            return .detail 403 "insufficient permissions"
          else
            setSessionCookie py settings now principal
              (Response.deleteCookie ⟨303, .redirect (codes "/"), []⟩ oidcTransactionCookieName)
  | _, _ => return .detail 404 "not found"

/-! ## Decisions on tokens -/

/-- The computation does not raise. -/
def Returns {α : Type} (x : Except Raised α) : Prop := ∃ a, x = .ok a

section Returns

variable {α β : Type}

@[simp] theorem returns_ok (a : α) : Returns (.ok a) := ⟨a, rfl⟩

@[simp] theorem returns_pure (a : α) : Returns (pure a) := ⟨a, rfl⟩

@[simp] theorem returns_error (e : Raised) : ¬Returns (.error e : Except Raised α) := nofun

@[simp] theorem returns_throw (e : Raised) : ¬Returns (throw e : Except Raised α) := nofun

theorem returns_bind {x : Except Raised α} {f : α → Except Raised β} :
    Returns (x >>= f) ↔ ∃ a, x = .ok a ∧ Returns (f a) := by
  cases x with
  | error e => exact ⟨nofun, nofun⟩
  | ok a =>
    constructor
    · exact fun h => ⟨a, rfl, h⟩
    · rintro ⟨b, hb, h⟩
      cases hb
      exact h

/-- Going on with an answer that may be missing. -/
theorem returns_option {x : Except Raised (Option α)} {f : Option α → Except Raised β}
    (hnone : Returns (f none)) :
    Returns (x >>= f) ↔ Returns x ∧ ∀ a, x = .ok (some a) → Returns (f (some a)) := by
  rw [returns_bind]
  constructor
  · rintro ⟨answer, hx, h⟩
    refine ⟨⟨answer, hx⟩, fun a ha => ?_⟩
    rw [ha] at hx
    rwa [Except.ok.inj hx]
  · rintro ⟨⟨answer, hx⟩, h⟩
    refine ⟨answer, hx, ?_⟩
    cases answer with
    | none => exact hnone
    | some a => exact h a hx

theorem error_of_bind {x : Except Raised α} {f : α → Except Raised β} {e : Raised}
    (h : x >>= f = .error e) : x = .error e ∨ ∃ a, x = .ok a ∧ f a = .error e := by
  cases x with
  | error e' =>
    cases h
    exact .inl rfl
  | ok a => exact .inr ⟨a, rfl, h⟩

/-- The computation raises nothing but `KeyError`. -/
def OnlyKeyError (x : Except Raised α) : Prop := ∀ e, x = .error e → e = .keyError

theorem onlyKeyError_ok (a : α) : OnlyKeyError (.ok a) := nofun

theorem onlyKeyError_bind {x : Except Raised α} {f : α → Except Raised β} :
    OnlyKeyError (x >>= f) ↔ OnlyKeyError x ∧ ∀ a, x = .ok a → OnlyKeyError (f a) := by
  cases x with
  | error e =>
    have hsame : ∀ e', (.error e >>= f) = .error e' ↔ (.error e : Except Raised α) = .error e' :=
      fun e' => ⟨fun h => by cases h; rfl, fun h => by cases h; rfl⟩
    exact ⟨fun h => ⟨fun e' he => h e' ((hsame e').mpr he), nofun⟩,
      fun h e' he => h.1 e' ((hsame e').mp he)⟩
  | ok a =>
    constructor
    · intro h
      refine ⟨nofun, fun b hb => ?_⟩
      cases hb
      exact h
    · exact fun h => h.2 a rfl

/-- Going on with an answer that may be missing. -/
theorem onlyKeyError_option {x : Except Raised (Option α)} {f : Option α → Except Raised β}
    (hnone : OnlyKeyError (f none)) :
    OnlyKeyError (x >>= f) ↔ OnlyKeyError x ∧ ∀ a, x = .ok (some a) → OnlyKeyError (f (some a)) := by
  rw [onlyKeyError_bind]
  refine and_congr_right fun _ => ⟨fun h a => h (some a), fun h answer => ?_⟩
  cases answer with
  | none => exact fun _ => hnone
  | some a => exact h a

end Returns

/-- A payload on which the reader comes to a decision: it nests no deeper than the reader follows, and
its time of issue is not infinite. -/
def ReadablePayload (py : Platform) (data : Bytes) : Prop :=
  loads py data ≠ .error .recursionError ∧
    ∀ members negative, loads py data = .ok (.dict members) →
      Python.get members (codes "iat") ≠ some (.float (.infinite negative))

/-- A token on which a decision is made: what is before its first dot can be encoded, its signature is
ASCII, and if the signature is right, the payload is readable. -/
def ReadableToken (py : Platform) (settings : AuthSettings) (value : Str) : Prop :=
  ∀ encoded given, partition 46 value = (encoded, true, given) →
    Returns (encode encoded) ∧ (∀ c ∈ given, c < 128) ∧
      (signature py settings encoded = .ok given →
        ∀ data, base64urlDecode encoded = .ok data → ReadablePayload py data)

/-- What `int` raises of a value of JSON. -/
theorem toInt_refused_iff (v : JsonValue) :
    (∀ e, toInt v = .error e → e.isRefusal = true) ↔ ∀ negative, v ≠ .float (.infinite negative) := by
  constructor
  · rintro h negative rfl
    exact absurd (h _ rfl) (by decide)
  · intro h e he
    cases v with
    | float x =>
      cases x with
      | finite q => cases he
      | infinite negative => exact absurd rfl (h negative)
      | nan => cases he; rfl
    | str s =>
      rw [toInt] at he
      cases hint : (characters s).bind Python.int with
      | none => rw [hint] at he; cases he; rfl
      | some n => rw [hint] at he; cases he
    | int n => cases he
    | bool b => cases he
    | null => cases he; rfl
    | list items => cases he; rfl
    | dict members => cases he; rfl

/-- What `value[key]` raises is refused. -/
theorem getItem_refused {v : JsonValue} {key : Str} {e : Raised} (h : getItem v key = .error e) :
    e = .keyError ∨ e = .typeError := by
  cases v with
  | dict members =>
    rw [getItem] at h
    split at h
    · cases h
      exact .inl rfl
    · cases h
  | _ =>
    cases h
    exact .inr rfl

/-- A value that is no integer is a `ValueError`. -/
theorem optionalInt_error {v : Option JsonValue} {e : Raised} (h : optionalInt v = .error e) :
    e = .valueError := by
  rw [optionalInt.eq_def] at h
  split at h
  · cases h
  · cases h
  · cases h
  · exact (Except.error.inj h).symm

theorem loads_error {py : Platform} {data : Bytes} {e : Raised} (h : loads py data = .error e) :
    e = .recursionError ∨ e = .valueError := by
  rw [loads] at h
  split at h
  · cases h
  · cases h
    exact .inl rfl
  · cases h
    exact .inr rfl

/-- What reading the time of issue raises is refused, unless the time is infinite. -/
theorem issuedAt_refused_iff (v : JsonValue) :
    (∀ e, (getItem v (codes "iat") >>= toInt) = .error e → e.isRefusal = true) ↔
      ∀ members negative, v = .dict members →
        Python.get members (codes "iat") ≠ some (.float (.infinite negative)) := by
  cases hitem : getItem v (codes "iat") with
  | error e =>
    constructor
    · rintro - members negative rfl hget
      rw [getItem, hget] at hitem
      cases hitem
    · rintro - e' ⟨⟩
      rcases getItem_refused hitem with rfl | rfl <;> rfl
  | ok w =>
    show (∀ e, toInt w = .error e → _) ↔ _
    rw [toInt_refused_iff]
    cases v with
    | dict members =>
      have hget : Python.get members (codes "iat") = some w := by
        rw [getItem] at hitem
        split at hitem
        · cases hitem
        · rename_i hget
          rw [hget, Except.ok.inj hitem]
      constructor
      · rintro h _ negative ⟨⟩ hinf
        rw [hget] at hinf
        exact h negative (Option.some.inj hinf)
      · rintro h negative rfl
        exact h members negative rfl hget
    | _ => cases hitem

theorem readPayload_of_loads {py : Platform} {encoded : Str} {data : Bytes}
    (hdata : base64urlDecode encoded = .ok data) : readPayload py encoded
      = loads py data >>= fun v => (getItem v (codes "iat") >>= toInt).map fun n => (v, n) := by
  rw [readPayload, hdata]
  show (loads py data >>= _) = _
  congr 1
  funext v
  cases getItem v (codes "iat") with
  | error e => rfl
  | ok w => cases hw : toInt w <;> simp [bind, Except.bind, Except.map, hw, pure, Except.pure]

/-- What the reader of a payload raises is refused, if the payload is readable, and only then. -/
theorem readPayload_refused_iff (py : Platform) (encoded : Str) :
    (∀ e, readPayload py encoded = .error e → e.isRefusal = true) ↔
      ∀ data, base64urlDecode encoded = .ok data → ReadablePayload py data := by
  rcases hdata : base64urlDecode encoded with e | data
  · have he : e = .valueError := by
      rw [base64urlDecode] at hdata
      split at hdata
      · exact (Except.error.inj hdata).symm
      · cases hdata
    have hread : readPayload py encoded = .error .valueError := by
      rw [readPayload, hdata, he]
      rfl
    rw [hread]
    constructor
    · rintro - data h
      cases h
    · rintro - e h
      cases h
      rfl
  rw [readPayload_of_loads hdata]
  have hone : (∀ data', (.ok data : Except Raised Bytes) = .ok data' → ReadablePayload py data') ↔
      ReadablePayload py data :=
    ⟨fun h => h data rfl, fun h data' heq => Except.ok.inj heq ▸ h⟩
  rw [hone, ReadablePayload]
  cases hloads : loads py data with
  | error e =>
    show (∀ e', Except.error e = .error e' → _) ↔ _
    rcases loads_error hloads with rfl | rfl
    · constructor
      · intro h
        exact absurd (h _ rfl) (by decide)
      · intro h
        exact absurd rfl h.1
    · constructor
      · rintro -
        exact ⟨fun h => (by cases h), fun _ _ h => (by cases h)⟩
      · rintro - e ⟨⟩
        rfl
  | ok v =>
    have hmap : ∀ e, ((.ok v : Except Raised JsonValue) >>= fun v =>
        (getItem v (codes "iat") >>= toInt).map fun n => (v, n)) = .error e ↔
          (getItem v (codes "iat") >>= toInt) = .error e := by
      intro e
      show Except.map _ _ = _ ↔ _
      cases getItem v (codes "iat") >>= toInt with
      | error e => exact ⟨fun h => by cases h; rfl, fun h => by cases h; rfl⟩
      | ok n => exact ⟨fun h => (by cases h), fun h => (by cases h)⟩
    simp only [hmap]
    rw [issuedAt_refused_iff]
    constructor
    · exact fun h => ⟨fun h => (by cases h), fun members negative hv => h members negative (Except.ok.inj hv)⟩
    · exact fun h members negative hv => h.2 members negative (congrArg _ hv)

/-- Strings are compared when both are ASCII. -/
theorem compareDigest_of_ascii {a b : Str} (ha : ∀ c ∈ a, c < 128) (hb : ∀ c ∈ b, c < 128) :
    compareDigest a b = .ok (a == b) := by
  rw [compareDigest, if_pos]
  rw [List.all_eq_true]
  intro c hc
  rcases List.mem_append.mp hc with hc | hc
  · exact decide_eq_true (ha c hc)
  · exact decide_eq_true (hb c hc)

theorem ascii_of_compareDigest {a b : Str} (h : Returns (compareDigest a b)) :
    (∀ c ∈ a, c < 128) ∧ ∀ c ∈ b, c < 128 := by
  rw [compareDigest] at h
  split at h
  · rename_i hall
    rw [List.all_eq_true] at hall
    exact ⟨fun c hc => of_decide_eq_true (hall c (List.mem_append_left b hc)),
      fun c hc => of_decide_eq_true (hall c (List.mem_append_right a hc))⟩
  · exact absurd h (returns_error _)

section Tokens

variable {py : Platform} {settings : AuthSettings} {secret : Text}

/-- With a secret, what can be encoded has a signature in ASCII. -/
theorem signature_of_encode (py : Platform) (hsecret : settings.authSessionSecret = some secret)
    {encoded : Str} {data : Bytes} (hdata : encode encoded = .ok data) :
    ∃ expected, signature py settings encoded = .ok expected ∧ ∀ c ∈ expected, c < 128 := by
  refine ⟨py.hexdigest (Utf8.encode secret) data, ?_, py.digest_ascii _ _⟩
  rw [signature, hsecret, hdata]
  rfl

/-- **Which tokens are decided on.** -/
theorem decodeSigned_returns_iff (hsecret : settings.authSessionSecret = some secret) (now maxAge : ℤ)
    (value : Str) :
    Returns (decodeSigned py settings now (some value) maxAge) ↔ ReadableToken py settings value := by
  rcases hpart : partition 46 value with ⟨encoded, found, given⟩
  have hreadable : ReadableToken py settings value ↔ (found = true →
      Returns (encode encoded) ∧ (∀ c ∈ given, c < 128) ∧
        (signature py settings encoded = .ok given →
          ∀ data, base64urlDecode encoded = .ok data → ReadablePayload py data)) := by
    rw [ReadableToken, hpart]
    constructor
    · rintro h rfl
      exact h encoded given rfl
    · rintro h _ _ ⟨⟩
      exact h rfl
  rw [hreadable]
  cases found with
  | false =>
    have hnone : decodeSigned py settings now (some value) maxAge = .ok none := by
      rw [decodeSigned, hpart]
    rw [hnone]
    exact ⟨fun _ h => (by cases h), fun _ => returns_ok none⟩
  | true =>
    rewrite [decodeSigned, hpart]
    dsimp only
    rw [← readPayload_refused_iff]
    simp only [forall_const]
    cases hdata : encode encoded with
    | error e =>
      have hsignature : signature py settings encoded = .error e := by
        rw [signature, hsecret, hdata]
        rfl
      rw [hsignature]
      exact ⟨fun h => absurd h (returns_error _), fun h => absurd h.1 (returns_error _)⟩
    | ok data =>
      obtain ⟨expected, hsignature, hascii⟩ := signature_of_encode py hsecret hdata
      rw [hsignature]
      show Returns (compareDigest given expected >>= _) ↔ _
      constructor
      · intro h
        obtain ⟨equal, hcompare, h⟩ := returns_bind.mp h
        obtain ⟨hgiven, -⟩ := ascii_of_compareDigest ⟨equal, hcompare⟩
        refine ⟨returns_ok _, hgiven, fun hsame e he => ?_⟩
        rw [compareDigest_of_ascii hgiven hascii, Except.ok.inj hsame, beq_self_eq_true] at hcompare
        rw [← Except.ok.inj hcompare, if_pos rfl, he] at h
        change Returns (if e.isRefusal = true then _ else throw e) at h
        by_contra hrefusal
        rw [if_neg hrefusal] at h
        exact absurd h (returns_throw _)
      · rintro ⟨-, hgiven, hrefused⟩
        rw [compareDigest_of_ascii hgiven hascii]
        show Returns (if (given == expected) = true then _ else _)
        split
        · rename_i hequal
          split
          · exact returns_pure _
          · rename_i e he
            rw [if_pos (hrefused (by rw [eq_of_beq hequal]) e he)]
            exact returns_pure _
        · exact returns_pure _

/-- What `principalOf` raises is refused. -/
theorem principalOf_refused {payload : List (Str × JsonValue)} {e : Raised}
    (h : principalOf py payload = .error e) : e.isRefusal = true := by
  have hitem : ∀ {key : Str}, getItem (.dict payload) key = .error e → e.isRefusal = true := by
    intro key h
    rcases getItem_refused h with rfl | rfl <;> rfl
  rw [principalOf] at h
  rcases error_of_bind h with h | ⟨roles, -, h⟩
  · exact hitem h
  split at h
  · rcases error_of_bind h with h | ⟨subject, -, h⟩
    · exact hitem h
    rcases error_of_bind h with h | ⟨method, -, h⟩
    · exact hitem h
    rcases error_of_bind h with h | ⟨expiresAt, -, h⟩
    · rw [optionalInt_error h]
      rfl
    · cases h
  · cases h

/-- **Which session cookies are decided on.** -/
theorem decodeSession_returns_iff (hsecret : settings.authSessionSecret = some secret) (now : ℤ)
    (value : Str) : Returns (decodeSession py settings now value) ↔ ReadableToken py settings value := by
  rw [← decodeSigned_returns_iff hsecret now settings.authSessionTtlSeconds, decodeSession, returns_bind]
  constructor
  · rintro ⟨payload, h, -⟩
    exact ⟨payload, h⟩
  · rintro ⟨payload, h⟩
    refine ⟨payload, h, ?_⟩
    cases payload with
    | none => exact returns_pure none
    | some payload =>
      dsimp only
      split
      · exact returns_pure _
      · rename_i e he
        rw [if_pos (principalOf_refused he)]
        exact returns_pure _

end Tokens

/-! ## Decisions on requests -/

theorem exists_of_hasSecretValue {value : Option Text} (h : hasSecretValue value = true) :
    ∃ s, value = some s := by
  cases value with
  | none => cases h
  | some s => exact ⟨s, rfl⟩

/-- The time of expiry is absent or an integer. -/
def IntegerExpiry (claims : List (Str × JsonValue)) : Prop :=
  ∀ v, Python.get claims (codes "exp") = some v → v = .null ∨ ∃ n, v = .int n

theorem optionalInt_returns_iff (v : Option JsonValue) :
    Returns (optionalInt v) ↔ ∀ w, v = some w → w = .null ∨ ∃ n, w = .int n := by
  constructor
  · rintro ⟨n, hn⟩ w rfl
    cases w with
    | null => exact .inl rfl
    | int n => exact .inr ⟨n, rfl⟩
    | _ => cases hn
  · intro h
    cases v with
    | none => exact returns_ok none
    | some w =>
      rcases h w rfl with rfl | ⟨n, rfl⟩
      · exact returns_ok none
      · exact returns_ok (some n)

/-- Its `ValueError` is not a `KeyError`. -/
theorem optionalInt_onlyKeyError_iff (claims : List (Str × JsonValue)) :
    OnlyKeyError (optionalInt (Python.get claims (codes "exp"))) ↔ IntegerExpiry claims := by
  rw [IntegerExpiry, ← optionalInt_returns_iff]
  cases h : optionalInt (Python.get claims (codes "exp")) with
  | ok n => exact ⟨fun _ => returns_ok n, fun _ => onlyKeyError_ok n⟩
  | error e =>
    rw [optionalInt_error h]
    exact ⟨fun h => absurd (h _ rfl) (by decide), fun h => absurd h (returns_error _)⟩

section Requests

variable {py : Platform} {settings : AuthSettings}

/-- From which claims a principal is made. -/
theorem principalFromClaims_returns_iff {clientId : Text} (hclient : settings.oidcClientId = some clientId)
    (claims : List (Str × JsonValue)) (method : Str) :
    Returns (principalFromClaims py settings claims method) ↔
      (Python.get claims (codes "sub")).isSome = true ∧ IntegerExpiry claims := by
  rw [principalFromClaims, hclient, IntegerExpiry, ← optionalInt_returns_iff]
  show Returns (getItem (.dict claims) (codes "sub") >>= _) ↔ _
  rw [getItem]
  cases Python.get claims (codes "sub") with
  | none => exact ⟨fun h => absurd h (returns_error _), fun h => absurd h.1 Bool.false_ne_true⟩
  | some subject =>
    show Returns (optionalInt _ >>= _) ↔ _
    rw [returns_bind]
    constructor
    · rintro ⟨n, hn, -⟩
      exact ⟨rfl, n, hn⟩
    · rintro ⟨-, n, hn⟩
      exact ⟨n, hn, returns_pure _⟩

/-- The session cookie, if there is one, is decided on. -/
def ReadableCookie (py : Platform) (settings : AuthSettings) (request : Request) : Prop :=
  ∀ cookie, sessionCookie request = some cookie → ReadableToken py settings (toStr cookie)

theorem cookiePrincipal_returns_iff {secret : Text} (hsecret : settings.authSessionSecret = some secret)
    (now : ℤ) (request : Request) :
    Returns (cookiePrincipal py settings now request) ↔ ReadableCookie py settings request := by
  rw [cookiePrincipal, ReadableCookie]
  cases sessionCookie request with
  | none => exact ⟨fun _ _ h => (by cases h), fun _ => returns_ok none⟩
  | some cookie =>
    show Returns (decodeSession py settings now (toStr cookie)) ↔ _
    rw [decodeSession_returns_iff hsecret]
    exact ⟨fun h cookie' heq => Option.some.inj heq ▸ h, fun h => h cookie rfl⟩

/-- The requests on which an authenticator comes to a decision: those with a valid static token; those
with a bearer token that the OIDC client refuses or whose claims have a subject and an integer as the
time of expiry; and those with a readable session cookie or none, where the cookie counts. -/
def Authenticable (py : Platform) (settings : AuthSettings) (authenticator : Authenticator)
    (request : Request) : Prop :=
  let authorization := header request "authorization"
  match authenticator with
  | .disabled => True
  | .local => validStaticBearerToken authorization settings = true ∨ ReadableCookie py settings request
  | .keycloak verify =>
    match bearerValue authorization with
    | none => ReadableCookie py settings request
    | some bearer => ∃ answer, verify bearer = .ok answer ∧ ∀ claims, answer = some claims →
        (Python.get claims (codes "sub")).isSome = true ∧ IntegerExpiry claims
  | .keycloakUiLocalApi =>
    (isUiPage request = false ∧ authorization ≠ []) ∨ ReadableCookie py settings request

theorem authenticate_returns_iff {secret : Text} (hsecret : settings.authSessionSecret = some secret)
    {authenticator : Authenticator}
    (hclient : ∀ verify, authenticator = .keycloak verify → ∃ clientId, settings.oidcClientId = some clientId)
    (now : ℤ) (request : Request) :
    Returns (authenticate py settings now authenticator request) ↔
      Authenticable py settings authenticator request := by
  have hcookie : Returns (cookiePrincipal py settings now request) ↔ ReadableCookie py settings request :=
    cookiePrincipal_returns_iff hsecret now request
  cases authenticator with
  | disabled => exact ⟨fun _ => trivial, fun _ => returns_ok _⟩
  | «local» =>
    show Returns (if _ then _ else _) ↔ (_ ∨ _)
    by_cases htoken : validStaticBearerToken (header request "authorization") settings = true
    · rw [if_pos htoken]
      exact ⟨fun _ => .inl htoken, fun _ => returns_ok _⟩
    · rw [if_neg htoken, hcookie]
      exact ⟨.inr, fun h => h.resolve_left htoken⟩
  | keycloak verify =>
    obtain ⟨clientId, hclient⟩ := hclient verify rfl
    rw [authenticate, Authenticable]
    cases bearerValue (header request "authorization") with
    | none => exact hcookie
    | some bearer =>
      show Returns (verify bearer >>= _) ↔ _
      rw [returns_bind]
      refine exists_congr fun answer => and_congr_right fun _ => ?_
      cases answer with
      | none => exact ⟨fun _ _ h => (by cases h), fun _ => returns_pure none⟩
      | some claims =>
        show Returns (principalFromClaims py settings claims (codes "oidc_bearer") >>= _) ↔ _
        rw [returns_bind]
        constructor
        · rintro ⟨p, hp, -⟩ _ ⟨⟩
          exact (principalFromClaims_returns_iff hclient claims _).mp ⟨p, hp⟩
        · intro h
          obtain ⟨p, hp⟩ := (principalFromClaims_returns_iff hclient claims (codes "oidc_bearer")).mpr
            (h claims rfl)
          exact ⟨p, hp, returns_pure _⟩
  | keycloakUiLocalApi =>
    rw [authenticate, Authenticable]
    cases hpage : isUiPage request with
    | true =>
      rw [if_pos rfl, hcookie]
      exact ⟨.inr, fun h => h.resolve_left fun h => Bool.false_ne_true h.1.symm⟩
    | false =>
      rw [if_neg Bool.false_ne_true]
      by_cases hempty : header request "authorization" = []
      · rw [if_neg (not_not.mpr hempty), hcookie]
        exact ⟨.inr, fun h => h.resolve_left fun h => h.2 hempty⟩
      · rw [if_pos hempty]
        refine ⟨fun _ => .inl ⟨rfl, hempty⟩, fun _ => ?_⟩
        split
        · exact returns_ok _
        · exact returns_ok _

/-- The password logins on which a decision is made: both usernames are ASCII, and with the right one the
password can be encoded. -/
def Loginable (settings : RouterSettings) (request : LoginRequest) : Prop :=
  settings.authMode = .local → ∀ username, settings.authUsername = some username →
    (∀ c ∈ request.username, c < 128) ∧ (∀ c ∈ toStr username, c < 128) ∧
      (request.username = toStr username → Returns (encode request.password))

/-- What the service signs it can sign. -/
theorem encodeSigned_returns {secret : Text} (hsecret : settings.authSessionSecret = some secret) (now : ℤ)
    (payload : List (Str × JsonValue)) : Returns (encodeSigned py settings now payload) := by
  obtain ⟨s, hs, -⟩ := signature_ascii py settings hsecret
    fun c (hc : c ∈ base64url (encodeAscii (dumps (body now payload).sortKeys))) => (mem_base64url hc).1
  exact ⟨_, by rw [encodeSigned, hs]; rfl⟩

theorem setSessionCookie_returns {settings : RouterSettings} {secret : Text}
    (hsecret : settings.authSessionSecret = some secret) (now : ℤ) (principal : Principal)
    (response : Response) : Returns (setSessionCookie py settings now principal response) := by
  obtain ⟨token, htoken⟩ : Returns (encodeSigned py settings.toAuthSettings now (asdict principal)) :=
    encodeSigned_returns hsecret now _
  rw [setSessionCookie, htoken]
  exact returns_pure _

theorem credentialsMatch_returns_iff {settings : RouterSettings} {username password : Text}
    (husername : settings.authUsername = some username) (hpassword : settings.authPassword = some password)
    (request : LoginRequest) :
    Returns (credentialsMatch settings request) ↔ (∀ c ∈ request.username, c < 128) ∧
      (∀ c ∈ toStr username, c < 128) ∧
      (request.username = toStr username → Returns (encode request.password)) := by
  rw [credentialsMatch, husername, hpassword]
  show Returns (compareDigest request.username (toStr username) >>= _) ↔ _
  rw [returns_bind]
  constructor
  · rintro ⟨equal, hequal, h⟩
    obtain ⟨hgiven, hset⟩ := ascii_of_compareDigest ⟨equal, hequal⟩
    refine ⟨hgiven, hset, fun hsame => ?_⟩
    rw [compareDigest_of_ascii hgiven hset, hsame, beq_self_eq_true] at hequal
    rw [← Except.ok.inj hequal, if_pos rfl] at h
    obtain ⟨data, hdata, -⟩ := returns_bind.mp h
    exact ⟨data, hdata⟩
  · rintro ⟨hgiven, hset, hencode⟩
    refine ⟨_, compareDigest_of_ascii hgiven hset, ?_⟩
    split
    · rename_i hequal
      obtain ⟨data, hdata⟩ := hencode (eq_of_beq hequal)
      exact returns_bind.mpr ⟨data, hdata, returns_pure _⟩
    · exact returns_pure _

theorem login_returns_iff (settings : RouterSettings) (now : ℤ) (request : LoginRequest) :
    Returns (login py settings now request) ↔ Loginable settings request := by
  rw [login, Loginable]
  by_cases hdisabled : settings.authMode = .disabled
  · rw [if_pos hdisabled]
    refine ⟨fun _ hlocal => ?_, fun _ => returns_pure _⟩
    rw [hdisabled] at hlocal
    cases hlocal
  rw [if_neg hdisabled]
  by_cases hlocal : settings.authMode = .local
  · rw [if_neg (not_not.mpr hlocal)]
    obtain ⟨husername, hpassword⟩ := settings.credentials_set hlocal
    obtain ⟨username, husername⟩ := exists_of_hasSecretValue husername
    obtain ⟨password, hpassword⟩ := exists_of_hasSecretValue hpassword
    obtain ⟨secret, hsecret⟩ := exists_of_hasSecretValue (settings.secret_set hdisabled)
    have hone : (settings.authMode = .local → ∀ username', settings.authUsername = some username' →
        (∀ c ∈ request.username, c < 128) ∧ (∀ c ∈ toStr username', c < 128) ∧
          (request.username = toStr username' → Returns (encode request.password))) ↔
        Returns (credentialsMatch settings request) := by
      rw [credentialsMatch_returns_iff husername hpassword]
      constructor
      · exact fun h => h hlocal username husername
      · intro h _ username' heq
        rw [husername] at heq
        exact Option.some.inj heq ▸ h
    rw [hone]
    show Returns (credentialsMatch settings request >>= _) ↔ _
    rw [returns_bind]
    constructor
    · rintro ⟨b, hb, -⟩
      exact ⟨b, hb⟩
    · rintro ⟨b, hb⟩
      refine ⟨b, hb, ?_⟩
      cases b with
      | false => exact returns_pure _
      | true => exact setSessionCookie_returns hsecret now _ _
  · rw [if_pos hlocal]
    exact ⟨fun _ h => absurd h hlocal, fun _ => returns_pure _⟩

/-- The logins at the identity provider on which a decision is made: the OIDC client raises nothing but
the `OidcError` and `KeyError`, and if the claims have a subject, their time of expiry is an integer. -/
def Identifiable (py : Platform) (oidc : OidcClient) (code : Str) (transaction : List (Str × JsonValue)) :
    Prop :=
  ∀ verifier, Python.get transaction (codes "verifier") = some verifier →
    (∀ e, oidc.exchangeCode code (py.text verifier) = .error e → e = .keyError) ∧
    ∀ tokens idToken nonce, oidc.exchangeCode code (py.text verifier) = .ok (some tokens) →
      Python.get tokens (codes "id_token") = some idToken →
      Python.get transaction (codes "nonce") = some nonce →
      (∀ e, oidc.verifyIdToken (py.text idToken) (py.text nonce) = .error e → e = .keyError) ∧
      ∀ claims, oidc.verifyIdToken (py.text idToken) (py.text nonce) = .ok (some claims) →
        (Python.get claims (codes "sub")).isSome = true → IntegerExpiry claims

/-- The callbacks on which a decision is made: the transaction cookie is readable, and once a transaction
is accepted, its state and the given one are ASCII, and if they are equal, the login is identifiable. -/
def Returnable (py : Platform) (settings : AuthSettings) (now : ℤ) (oidc : Option OidcClient)
    (code state : Str) (transactionCookie : Option Str) : Prop :=
  usesKeycloakUi settings = true → ∀ client, oidc = some client →
    (∀ value, transactionCookie = some value → ReadableToken py settings value) ∧
    ∀ transaction, decodeSigned py settings now transactionCookie 600 = .ok (some transaction) →
      (∀ c ∈ transactionState py transaction, c < 128) ∧ (∀ c ∈ state, c < 128) ∧
        (transactionState py transaction = state → Identifiable py client code transaction)

/-- What the `except` clause of `callback` does not catch. -/
theorem identify_error_iff {clientId : Text} (hclient : settings.oidcClientId = some clientId)
    (oidc : OidcClient) (code : Str) (transaction : List (Str × JsonValue)) :
    (∀ e, identify py settings oidc code transaction = .error e → e = .keyError) ↔
      Identifiable py oidc code transaction := by
  have hitem : ∀ (members : List (Str × JsonValue)) (key : Str) {β : Type}
      (f : JsonValue → Except Raised β), OnlyKeyError (getItem (.dict members) key >>= f) ↔
        ∀ v, Python.get members key = some v → OnlyKeyError (f v) := by
    intro members key β f
    rw [getItem]
    cases Python.get members key with
    | none => exact ⟨fun _ => nofun, fun _ e h => by cases h; rfl⟩
    | some v => exact ⟨fun h w hw => Option.some.inj hw ▸ h, fun h => h v rfl⟩
  have hclaims : ∀ claims, OnlyKeyError (do
        return some (← principalFromClaims py settings claims (codes "oidc_session"))) ↔
      ((Python.get claims (codes "sub")).isSome = true → IntegerExpiry claims) := by
    intro claims
    rw [onlyKeyError_bind, principalFromClaims, hclient]
    show OnlyKeyError (getItem (.dict claims) (codes "sub") >>= _) ∧ _ ↔ _
    rw [hitem]
    simp only [onlyKeyError_bind, optionalInt_onlyKeyError_iff, Option.isSome_iff_exists]
    constructor
    · rintro ⟨h, -⟩ ⟨v, hv⟩
      exact (h v hv).1
    · exact fun h => ⟨fun v hv => ⟨h ⟨v, hv⟩, fun _ _ => onlyKeyError_ok _⟩, fun _ _ => onlyKeyError_ok _⟩
  have hverified : ∀ tokens, OnlyKeyError (do
        let idToken ← getItem (.dict tokens) (codes "id_token")
        let nonce ← getItem (.dict transaction) (codes "nonce")
        match ← oidc.verifyIdToken (py.text idToken) (py.text nonce) with
        | none => return none
        | some claims => return some (← principalFromClaims py settings claims (codes "oidc_session"))) ↔
      ∀ idToken, Python.get tokens (codes "id_token") = some idToken →
        ∀ nonce, Python.get transaction (codes "nonce") = some nonce →
          (∀ e, oidc.verifyIdToken (py.text idToken) (py.text nonce) = .error e → e = .keyError) ∧
          ∀ claims, oidc.verifyIdToken (py.text idToken) (py.text nonce) = .ok (some claims) →
            (Python.get claims (codes "sub")).isSome = true → IntegerExpiry claims := by
    intro tokens
    rw [hitem]
    refine forall₂_congr fun idToken _ => ?_
    rw [hitem]
    refine forall₂_congr fun nonce _ => ?_
    refine (onlyKeyError_option ?_).trans (and_congr_right fun _ => forall₂_congr fun claims _ => ?_)
    · exact onlyKeyError_ok none
    · exact hclaims claims
  show OnlyKeyError (identify py settings oidc code transaction) ↔ _
  rw [identify, hitem]
  refine forall₂_congr fun verifier _ => ?_
  refine (onlyKeyError_option ?_).trans (and_congr_right fun _ => ?_)
  · exact onlyKeyError_ok none
  constructor
  · intro h tokens idToken nonce htokens hid hnonce
    exact (hverified tokens).mp (h tokens htokens) idToken hid nonce hnonce
  · intro h tokens htokens
    exact (hverified tokens).mpr fun idToken hid nonce hnonce => h tokens idToken nonce htokens hid hnonce

/-- A callback with an accepted transaction. -/
theorem accepted_returns_iff (py : Platform) {settings : RouterSettings} {secret clientId : Text}
    (hsecret : settings.authSessionSecret = some secret) (hclient : settings.oidcClientId = some clientId)
    (now : ℤ) (oidc : OidcClient) (code state : Str) (transaction : List (Str × JsonValue)) :
    Returns (do
      if !(← compareDigest (transactionState py transaction) state) then
        return Response.detail 401 "invalid authentication transaction"
      else
        match identify py settings.toAuthSettings oidc code transaction with
        | .error .keyError | .ok none => return .detail 401 "identity provider authentication failed"
        | .error e => throw e
        | .ok (some principal) =>
          if !hasRole principal .viewer settings.toAuthSettings then
            return .detail 403 "insufficient permissions"
          else
            setSessionCookie py settings now principal
              (Response.deleteCookie ⟨303, .redirect (codes "/"), []⟩ oidcTransactionCookieName)) ↔
      (∀ c ∈ transactionState py transaction, c < 128) ∧ (∀ c ∈ state, c < 128) ∧
        (transactionState py transaction = state → Identifiable py oidc code transaction) := by
  rw [returns_bind]
  constructor
  · rintro ⟨equal, hequal, h⟩
    obtain ⟨hstored, hgiven⟩ := ascii_of_compareDigest ⟨equal, hequal⟩
    refine ⟨hstored, hgiven, fun hsame => (identify_error_iff hclient oidc code transaction).mp ?_⟩
    intro e he
    rw [compareDigest_of_ascii hstored hgiven, hsame, beq_self_eq_true] at hequal
    rw [← Except.ok.inj hequal, he] at h
    by_contra hne
    cases e with
    | keyError => exact hne rfl
    | _ => exact absurd h (returns_throw _)
  · rintro ⟨hstored, hgiven, h⟩
    refine ⟨_, compareDigest_of_ascii hstored hgiven, ?_⟩
    cases hequal : transactionState py transaction == state with
    | false => exact returns_pure _
    | true =>
      have hkey := (identify_error_iff hclient oidc code transaction).mpr (h (eq_of_beq hequal))
      rw [Bool.not_true, if_neg Bool.false_ne_true]
      cases hidentify : identify py settings.toAuthSettings oidc code transaction with
      | error e =>
        rw [hkey e hidentify]
        exact returns_pure _
      | ok answer =>
        cases answer with
        | none => exact returns_pure _
        | some principal =>
          show Returns (if _ then _ else _)
          split
          · exact returns_pure _
          · exact setSessionCookie_returns hsecret now _ _

/-- **Which callbacks are decided on.** -/
theorem callback_returns_iff (settings : RouterSettings) (now : ℤ) (oidc : Option OidcClient)
    (code state : Str) (transactionCookie : Option Str) :
    Returns (callback py settings now oidc code state transactionCookie) ↔
      Returnable py settings.toAuthSettings now oidc code state transactionCookie := by
  unfold callback Returnable
  cases hui : usesKeycloakUi settings.toAuthSettings with
  | false => exact ⟨nofun, fun _ => returns_pure _⟩
  | true =>
    cases oidc with
    | none => exact ⟨fun _ _ => nofun, fun _ => returns_pure _⟩
    | some client =>
      have hmode : settings.authMode = .keycloak ∨ settings.authMode = .keycloakUiLocalApi := by
        rw [usesKeycloakUi, Bool.or_eq_true, beq_iff_eq, beq_iff_eq] at hui
        exact hui
      have hdisabled : settings.authMode ≠ .disabled := by
        rcases hmode with h | h <;> rw [h] <;> decide
      obtain ⟨secret, hsecret⟩ := exists_of_hasSecretValue (settings.secret_set hdisabled)
      obtain ⟨clientId, hclient⟩ := exists_of_hasSecretValue (settings.client_set hmode)
      have hreadable : (∀ value, transactionCookie = some value →
          ReadableToken py settings.toAuthSettings value) ↔
          Returns (decodeSigned py settings.toAuthSettings now transactionCookie 600) := by
        cases transactionCookie with
        | none => exact ⟨fun _ => returns_ok none, fun _ => nofun⟩
        | some value =>
          rw [decodeSigned_returns_iff hsecret]
          exact ⟨fun h => h value rfl, fun h value' heq => Option.some.inj heq ▸ h⟩
      have haccepted := accepted_returns_iff py hsecret hclient now client code state
      simp only [forall_const, Option.some.injEq, forall_eq', hreadable]
      refine (returns_option ?_).trans (and_congr_right fun _ => forall₂_congr fun transaction _ => ?_)
      · exact returns_pure _
      · exact haccepted transaction

end Requests

/-- **Where authentication ends in a decision.**  In every mode the authenticator returns a principal or
`None` on exactly the authenticable requests, the password login responds to exactly the loginable ones,
and the callback to exactly the returnable ones; on all others an exception escapes. -/
theorem authentication_decides_iff (py : Platform) (settings : RouterSettings) (now : ℤ)
    (verify : Option Verifier) (authenticator : Authenticator)
    (hcreate : createAuthenticator settings.toAuthSettings verify = .ok authenticator) :
    (∀ request, (∃ principal, authenticate py settings.toAuthSettings now authenticator request = .ok principal) ↔
      Authenticable py settings.toAuthSettings authenticator request) ∧
    (∀ request, (∃ response, login py settings now request = .ok response) ↔ Loginable settings request) ∧
    (∀ oidc code state transactionCookie,
      (∃ response, callback py settings now oidc code state transactionCookie = .ok response) ↔
        Returnable py settings.toAuthSettings now oidc code state transactionCookie) := by
  refine ⟨fun request => ?_, login_returns_iff settings now, callback_returns_iff settings now⟩
  by_cases hdisabled : settings.authMode = .disabled
  · have hauthenticator : authenticator = .disabled := by
      rw [createAuthenticator.eq_def, hdisabled] at hcreate
      exact (Except.ok.inj hcreate).symm
    rw [hauthenticator]
    exact ⟨fun _ => trivial, fun _ => returns_ok _⟩
  · obtain ⟨secret, hsecret⟩ := exists_of_hasSecretValue (settings.secret_set hdisabled)
    refine authenticate_returns_iff hsecret (fun verifier hkeycloak => ?_) now request
    refine exists_of_hasSecretValue (settings.client_set (.inl ?_))
    rw [createAuthenticator.eq_def, hkeycloak] at hcreate
    rcases hm : settings.authMode with _ | _ | _ | _
    · exact absurd hm hdisabled
    · rw [hm] at hcreate
      cases verify <;> cases hcreate
    · rfl
    · rw [hm] at hcreate
      cases verify <;> cases hcreate

/-- The router of a service with password login. -/
def localRouter : RouterSettings :=
  { localSettings with
    authUsername := some "alice".toList
    authPassword := some "secret-password".toList
    authCookieSecure := false
    credentials_set := fun _ => by decide }

/-- The router of a service with the OIDC login. -/
def keycloakRouter : RouterSettings where
  authMode := .keycloak
  authSessionSecret := some "session-secret".toList
  authApiToken := none
  authSessionTtlSeconds := 3600
  oidcClientId := some "hardware-test-runner".toList
  oidcViewerRole := "hardware-test-runner.viewer".toList
  oidcOperatorRole := "hardware-test-runner.operator".toList
  ttl_pos := by decide
  secret_set := fun _ => by decide
  client_set := fun _ => by decide
  token_unset := by decide
  token_set := by decide
  authUsername := none
  authPassword := none
  authCookieSecure := true
  credentials_set := by decide

/-- A request without credentials is decided on. -/
theorem authentication_decides_iff_anonymous :
    (∃ principal, authenticate alicePlatform localRouter.toAuthSettings 1700000000 .local
        ⟨codes "/v1/current", codes "GET", []⟩ = .ok principal) ↔
      Authenticable alicePlatform localRouter.toAuthSettings .local ⟨codes "/v1/current", codes "GET", []⟩ :=
  (authentication_decides_iff alicePlatform localRouter 1700000000 none .local rfl).1 _

/-- A verifier that accepts a token whose time of expiry is a floating point number. -/
def fractionalExpiry : Verifier := fun _ =>
  .ok (some [(codes "sub", .str (codes "alice")), (codes "exp", .float (.finite (1700003600 + 1 / 2)))])

/-- **Exceptions escape**: from a session cookie with a byte above ASCII in its signature, from a password
login with such a username, from a callback with such a transaction cookie, and from a bearer token
whose time of expiry is not an integer. -/
theorem authentication_raises :
    authenticate alicePlatform localRouter.toAuthSettings 1700000000 .local
        ⟨codes "/v1/current", codes "GET", [(ascii "cookie", ascii "test_runner_session=." ++ [0xE9])]⟩
      = .error .typeError ∧
    login alicePlatform localRouter 1700000000 ⟨[0xE9], codes "secret-password"⟩ = .error .typeError ∧
    callback alicePlatform keycloakRouter 1700000000
        (some ⟨fun _ _ _ => .ok none, fun _ _ => .ok none, fun _ _ => .ok none⟩)
        (codes "code") (codes "state") (some [46, 0xE9]) = .error .typeError ∧
    authenticate alicePlatform keycloakRouter.toAuthSettings 1700000000 (.keycloak fractionalExpiry)
        (runRequest "authorization" "Bearer token") = .error .valueError := by
  refine ⟨by decide +kernel, by decide +kernel, by decide +kernel, by decide +kernel⟩

end HardwareTest.Auth
