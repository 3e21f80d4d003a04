import HardwareTest.Auth.Handlers

/-!
# Where cookies come from

The cookies that the service has given out over its lifetime, in any sequence of modes with one session
secret, and what a request can do with one of them.

* `Visit`, `Answered` — the requests that are answered with a cookie, and their responses;
* `given_cases` — each cookie that was given out is a session of a password login, a session of the
  callback, a transaction of the login page, or the deletion of one;
* `keycloak_session_iff` — the sessions that the Keycloak modes accept;
* `callback_bound` — the login at the identity provider ends with the browser that started it.
-/

namespace HardwareTest.Auth

open HardwareTest.Lib HardwareTest.Lib.Json HardwareTest.Python HardwareTest.Runner

/-! ## The tokens of one secret -/

section Tokens

variable {py : Platform} {settings other : AuthSettings}

/-- A signature depends on the secret only. -/
theorem signature_congr (h : other.authSessionSecret = settings.authSessionSecret) (payload : Str) :
    signature py other payload = signature py settings payload := by
  rw [signature, signature, h]

theorem encodeSigned_congr (h : other.authSessionSecret = settings.authSessionSecret) (now : ℤ)
    (payload : List (Str × JsonValue)) :
    encodeSigned py other now payload = encodeSigned py settings now payload := by
  rw [encodeSigned, encodeSigned, signature_congr h]

/-- Payloads that are spelled alike have the same token. -/
theorem encodeSigned_spelled {now : ℤ} {payload payload' : List (Str × JsonValue)}
    (h : dumps (body now payload).sortKeys = dumps (body now payload').sortKeys) :
    encodeSigned py settings now payload = encodeSigned py settings now payload' := by
  rw [encodeSigned, encodeSigned, h]

theorem dumpsItems_str_congr {items items' : List Str} (h : items.map dumpsString = items'.map dumpsString) :
    dumpsItems (F := PyFloat) (items.map .str) = dumpsItems (F := PyFloat) (items'.map .str) := by
  induction items generalizing items' with
  | nil =>
    rw [List.map_nil, eq_comm, List.map_eq_nil_iff] at h
    rw [h]
  | cons s items ih =>
    cases items' with
    | nil => cases h
    | cons s' items' =>
      rw [List.map_cons, List.map_cons, List.cons.injEq] at h
      have hrest := ih h.2
      cases items with
      | nil =>
        have hnil := List.map_eq_nil_iff.mp h.2.symm
        rw [hnil]
        exact h.1
      | cons t items =>
        cases items' with
        | nil => cases h.2
        | cons t' items' =>
          show dumpsString s ++ 44 :: dumpsItems (F := PyFloat) ((t :: items).map .str)
            = dumpsString s' ++ 44 :: dumpsItems (F := PyFloat) ((t' :: items').map .str)
          rw [h.1, hrest]

theorem exists_joined_items (items : List Str) :
    ∃ items' : List Str, (∀ s ∈ items', Joined s) ∧ items'.map dumpsString = items.map dumpsString := by
  induction items with
  | nil => exact ⟨[], List.forall_mem_nil _, rfl⟩
  | cons s items ih =>
    obtain ⟨items', hjoined, hspelled⟩ := ih
    obtain ⟨t, ht, hs⟩ := exists_joined s
    refine ⟨t :: items', List.forall_mem_cons.mpr ⟨ht, hjoined⟩, ?_⟩
    rw [List.map_cons, List.map_cons, hspelled, dumpsString, dumpsString, hs]

/-- **Every session is spelled like one of a carried principal.** -/
theorem exists_carried (p : Principal) (hmethod : Joined p.method)
    (hexpires : ∀ e ∈ p.expiresAt, e.natAbs < 10 ^ Json.maxStrDigits) :
    ∃ q : CarriedPrincipal, q.method = p.method ∧ q.expiresAt = p.expiresAt ∧
      ∀ now, dumps (.dict (sessionBody now q.toPrincipal) : JsonValue)
        = dumps (.dict (sessionBody now p)) := by
  obtain ⟨subject, hsubject, hs⟩ := exists_joined p.subject
  obtain ⟨roles, hroles, hr⟩ := exists_joined_items p.roles
  have husername : ∃ username : Option Str, (∀ s ∈ username, Joined s) ∧
      dumps (username.elim .null .str : JsonValue) = dumps (p.username.elim .null .str : JsonValue) := by
    cases p.username with
    | none => exact ⟨none, nofun, rfl⟩
    | some s =>
      obtain ⟨t, ht, hspelled⟩ := exists_joined s
      refine ⟨some t, fun u hu => Option.some.inj hu ▸ ht, ?_⟩
      show dumpsString t = dumpsString s
      rw [dumpsString, dumpsString, hspelled]
  obtain ⟨username, hjoined, hu⟩ := husername
  refine ⟨⟨⟨subject, username, roles, p.method, p.expiresAt⟩, hsubject, hjoined, hroles, hmethod, hexpires⟩,
    rfl, rfl, fun now => ?_⟩
  have hdumps : dumpsString subject = dumpsString p.subject := by rw [dumpsString, dumpsString, hs]
  simp only [sessionBody, dumps, dumpsMembers, hdumps, hu, dumpsItems_str_congr hr]

/-- The token of a session is that of a carried principal. -/
theorem encodeSigned_carried (py : Platform) (settings : AuthSettings) {p : Principal}
    (hmethod : Joined p.method) (hexpires : ∀ e ∈ p.expiresAt, e.natAbs < 10 ^ Json.maxStrDigits) (now : ℤ) :
    ∃ q : CarriedPrincipal, q.method = p.method ∧ q.expiresAt = p.expiresAt ∧
      encodeSigned py settings now (asdict p) = encodeSigned py settings now (asdict q.toPrincipal) := by
  obtain ⟨q, hq, hqe, hspelled⟩ := exists_carried p hmethod hexpires
  refine ⟨q, hq, hqe, encodeSigned_spelled ?_⟩
  rw [sortKeys_session, sortKeys_session, hspelled]

variable {secret : Text}

/-- **What a session token is decoded to**: a principal of the same method while it lasts. -/
theorem decodeSession_minted (hsecret : settings.authSessionSecret = some secret) {p : Principal}
    (hmethod : Joined p.method) (hexpires : ∀ e ∈ p.expiresAt, e.natAbs < 10 ^ Json.maxStrDigits)
    (t₀ : Instant) (now : ℤ) {token : Str}
    (htoken : encodeSigned py settings t₀.seconds (asdict p) = .ok token) :
    ∃ q : Principal, q.method = p.method ∧ decodeSession py settings now token
      = .ok (if (0 ≤ now - t₀.seconds ∧ now - t₀.seconds ≤ settings.authSessionTtlSeconds) ∧
          ∀ e ∈ p.expiresAt, now ≤ e then some q else none) := by
  obtain ⟨q, hq, hqe, hsame⟩ := encodeSigned_carried py settings hmethod hexpires t₀.seconds
  obtain ⟨token', htoken', hdecode⟩ := decodeSession_encodeSigned py settings hsecret q t₀ now
  obtain rfl : token' = token := Except.ok.inj (htoken'.symm.trans (hsame.symm.trans htoken))
  exact ⟨q.toPrincipal, hq, hqe ▸ hdecode⟩

/-- A session token is no transaction: its payload has no state. -/
theorem no_state_of_session (hsecret : settings.authSessionSecret = some secret) {p : Principal}
    (hmethod : Joined p.method) (hexpires : ∀ e ∈ p.expiresAt, e.natAbs < 10 ^ Json.maxStrDigits)
    (t₀ : Instant) {now maxAge : ℤ} {token : Str} {payload : List (Str × JsonValue)}
    (htoken : encodeSigned py settings t₀.seconds (asdict p) = .ok token)
    (hdecode : decodeSigned py settings now (some token) maxAge = .ok (some payload)) :
    Python.get payload (codes "state") = none := by
  obtain ⟨q, -, -, hsame⟩ := encodeSigned_carried py settings hmethod hexpires t₀.seconds
  obtain ⟨s, hs, hread⟩ := decodeSigned_token py settings hsecret now maxAge (regular_session t₀ q)
    (depth_session _ _) (getItem_session _ _)
  have hq := encodeSigned_eq (congrArg dumps (sortKeys_session t₀.seconds q.toPrincipal)) hs
  obtain rfl := Except.ok.inj (hq.symm.trans (hsame.symm.trans htoken))
  rw [hdecode] at hread
  rw [eq_of_current (Except.ok.inj hread).symm]
  rfl

/-- **What a transaction token is decoded to**: its own payload, for as long as asked. -/
theorem eq_of_decodeSigned_transaction (hsecret : settings.authSessionSecret = some secret)
    {state nonce verifier : Str} (hstate : Joined state) (hnonce : Joined nonce) (hverifier : Joined verifier)
    (t₀ : Instant) {now maxAge : ℤ} {token : Str} {payload : List (Str × JsonValue)}
    (htoken : encodeSigned py settings t₀.seconds (transaction state nonce verifier) = .ok token)
    (hdecode : decodeSigned py settings now (some token) maxAge = .ok (some payload)) :
    payload = transactionBody t₀.seconds state nonce verifier ∧
      0 ≤ now - t₀.seconds ∧ now - t₀.seconds ≤ maxAge := by
  obtain ⟨s, hs, hread⟩ := decodeSigned_token py settings hsecret now maxAge
    (regular_transaction t₀ hstate hnonce hverifier) (Nat.le_succ 1) (getItem_transaction _ _ _ _)
  have hq := encodeSigned_eq (congrArg dumps (sortKeys_transaction t₀.seconds state nonce verifier)) hs
  obtain rfl := Except.ok.inj (hq.symm.trans htoken)
  rw [hdecode] at hread
  have hcurrent := (Except.ok.inj hread).symm
  refine ⟨eq_of_current hcurrent, ?_⟩
  rw [current] at hcurrent
  by_contra hage
  rw [if_neg hage] at hcurrent
  cases hcurrent

end Tokens

/-! ## The cookies that were given out -/

/-- The query of a callback: FastAPI refuses an empty code or state. -/
structure CallbackQuery where
  code : Str
  state : Str
  code_nonempty : code ≠ []
  state_nonempty : state ≠ []

/-- A request to one of the handlers that give out cookies. -/
inductive Visit
  | loginPage (generated : Generated)
  | login (request : LoginRequest)
  | callback (query : CallbackQuery) (transactionCookie : Option Str)

/-- A visit as it was answered: under which settings, with which OIDC client, and when.  The claims that
the client returns were read from JSON, so their time of expiry has no more digits than the reader takes. -/
structure Answered where
  settings : RouterSettings
  oidc : Option OidcClient
  now : Instant
  visit : Visit
  expiry_read : ∀ client, oidc = some client → ∀ token nonce claims n,
    client.verifyIdToken token nonce = .ok (some claims) →
    Python.get claims (codes "exp") = some (.int n) → n.natAbs < 10 ^ Json.maxStrDigits

section Given

variable (py : Platform) (sha256 : Bytes → Bytes)

/-- What the visitor got, or the exception. -/
def Answered.result (a : Answered) : Except Raised (Option Response) :=
  match a.visit with
  | .loginPage generated => loginPage py sha256 a.settings a.now.seconds a.oidc generated
  | .login request => (login py a.settings a.now.seconds request).map some
  | .callback query transactionCookie =>
    (callback py a.settings a.now.seconds a.oidc query.code query.state transactionCookie).map some

/-- The cookies of the response. -/
def Answered.cookies (a : Answered) : List SetCookie :=
  match a.result py sha256 with
  | .ok (some response) => response.cookies
  | _ => []

/-- The cookies that were given out in a history. -/
def given (history : List Answered) : List SetCookie := history.flatMap (Answered.cookies py sha256)

theorem mem_given {history : List Answered} {c : SetCookie} :
    c ∈ given py sha256 history ↔ ∃ a ∈ history, c ∈ a.cookies py sha256 :=
  List.mem_flatMap

/-- The result that a cookie came with. -/
theorem result_of_mem_cookies {a : Answered} {c : SetCookie} (h : c ∈ a.cookies py sha256) :
    ∃ response, a.result py sha256 = .ok (some response) ∧ c ∈ response.cookies := by
  rw [Answered.cookies] at h
  split at h
  · exact ⟨_, by assumption, h⟩
  · cases h

end Given

/-! ## What each handler gives out -/

theorem map_some_eq_ok {α : Type} {x : Except Raised α} {b : α} (h : x.map some = .ok (some b)) :
    ∃ a, x = .ok a ∧ a = b := by
  cases x with
  | error e => cases h
  | ok a =>
    cases h
    exact ⟨b, rfl, rfl⟩

theorem ok_of_bind {α β : Type} {x : Except Raised α} {f : α → Except Raised β} {b : β}
    (h : x >>= f = .ok b) : ∃ a, x = .ok a ∧ f a = .ok b := by
  cases x with
  | error e => cases h
  | ok a => exact ⟨a, rfl, h⟩

section Handlers

variable {py : Platform} {settings : RouterSettings} {now : ℤ} {response : Response} {c : SetCookie}

/-- The login page gives out one transaction, in the Keycloak modes. -/
theorem loginPage_cookie {sha256 : Bytes → Bytes} {oidc : Option OidcClient} {generated : Generated}
    (h : loginPage py sha256 settings now oidc generated = .ok (some response)) (hc : c ∈ response.cookies) :
    usesKeycloakUi settings.toAuthSettings = true ∧ c.key = oidcTransactionCookieName ∧
      encodeSigned py settings.toAuthSettings now
        (transaction generated.state generated.nonce generated.verifier) = .ok c.value := by
  rw [loginPage.eq_def] at h
  split at h
  · cases h
    cases hc
  · cases h
    cases hc
  · cases h
  · rename_i client hdisabled hlocal
    obtain ⟨data, -, h⟩ := ok_of_bind h
    obtain ⟨answer, -, h⟩ := ok_of_bind h
    cases answer with
    | none => cases h
    | some location =>
      obtain ⟨token, htoken, h⟩ := ok_of_bind h
      cases h
      rw [Response.setCookie, List.nil_append, List.mem_singleton] at hc
      subst hc
      refine ⟨?_, rfl, htoken⟩
      rcases hm : settings.authMode with _ | _ | _ | _
      · exact absurd hm hdisabled
      · exact absurd hm hlocal
      · rw [usesKeycloakUi, hm]
        rfl
      · rw [usesKeycloakUi, hm]
        rfl

/-- A session cookie is the token of the principal. -/
theorem setSessionCookie_cookie {principal : Principal} {start : Response}
    (h : setSessionCookie py settings now principal start = .ok response) (hc : c ∈ response.cookies) :
    c ∈ start.cookies ∨ c.key = sessionCookieName ∧
      encodeSigned py settings.toAuthSettings now (asdict principal) = .ok c.value := by
  obtain ⟨token, htoken, h⟩ := ok_of_bind h
  cases h
  rcases List.mem_append.mp hc with hc | hc
  · exact .inl hc
  · rw [List.mem_singleton] at hc
    subst hc
    exact .inr ⟨rfl, htoken⟩

/-- The password login gives out one session, in the local mode. -/
theorem login_cookie {request : LoginRequest} (h : login py settings now request = .ok response)
    (hc : c ∈ response.cookies) :
    settings.authMode = .local ∧ c.key = sessionCookieName ∧
      encodeSigned py settings.toAuthSettings now (asdict (loginPrincipal request.username)) = .ok c.value := by
  rw [login] at h
  split at h
  · cases h
    cases hc
  split at h
  · cases h
    cases hc
  rename_i hlocal
  obtain ⟨matched, -, h⟩ := ok_of_bind h
  cases matched with
  | false =>
    cases h
    cases hc
  | true =>
    obtain hc | hc := setSessionCookie_cookie h hc
    · cases hc
    · exact ⟨not_not.mp hlocal, hc⟩

/-- How a callback came to its principal: the transaction was accepted, its state is the given one, the
code was exchanged with its verifier, the ID token verified against its nonce, and the claims contain the
role of a viewer or of an operator. -/
structure Completed (py : Platform) (settings : RouterSettings) (now : ℤ) (client : OidcClient)
    (code state : Str) (transactionCookie : Option Str) (transaction claims : List (Str × JsonValue))
    (principal : Principal) : Prop where
  accepted : decodeSigned py settings.toAuthSettings now transactionCookie 600 = .ok (some transaction)
  state_eq : transactionState py transaction = state
  verified : ∃ verifier tokens idToken nonce,
    Python.get transaction (codes "verifier") = some verifier ∧
    client.exchangeCode code (py.text verifier) = .ok (some tokens) ∧
    Python.get tokens (codes "id_token") = some idToken ∧
    Python.get transaction (codes "nonce") = some nonce ∧
    client.verifyIdToken (py.text idToken) (py.text nonce) = .ok (some claims)
  principal_eq : principalFromClaims py settings.toAuthSettings claims (codes "oidc_session") = .ok principal
  role : hasRole principal .viewer settings.toAuthSettings = true

theorem get_of_getItem {members : List (Str × JsonValue)} {key : Str} {v : JsonValue}
    (h : getItem (.dict members) key = .ok v) : Python.get members key = some v := by
  rw [getItem] at h
  split at h
  · cases h
  · rename_i hget
    rw [hget, Except.ok.inj h]

/-- What `identify` did when it found a principal. -/
theorem identify_some {client : OidcClient} {code : Str} {transaction : List (Str × JsonValue)}
    {settings : AuthSettings} {principal : Principal}
    (h : identify py settings client code transaction = .ok (some principal)) :
    ∃ claims, (∃ verifier tokens idToken nonce,
      Python.get transaction (codes "verifier") = some verifier ∧
      client.exchangeCode code (py.text verifier) = .ok (some tokens) ∧
      Python.get tokens (codes "id_token") = some idToken ∧
      Python.get transaction (codes "nonce") = some nonce ∧
      client.verifyIdToken (py.text idToken) (py.text nonce) = .ok (some claims)) ∧
      principalFromClaims py settings claims (codes "oidc_session") = .ok principal := by
  obtain ⟨verifier, hverifier, h⟩ := ok_of_bind h
  obtain ⟨answer, hexchange, h⟩ := ok_of_bind h
  cases answer with
  | none => cases h
  | some tokens =>
    obtain ⟨idToken, hid, h⟩ := ok_of_bind h
    obtain ⟨nonce, hnonce, h⟩ := ok_of_bind h
    obtain ⟨answer, hverify, h⟩ := ok_of_bind h
    cases answer with
    | none => cases h
    | some claims =>
      obtain ⟨p, hp, h⟩ := ok_of_bind h
      cases h
      exact ⟨claims, ⟨verifier, tokens, idToken, nonce, get_of_getItem hverifier, hexchange,
        get_of_getItem hid, get_of_getItem hnonce, hverify⟩, hp⟩

/-- **What the callback gives out**: the deletion of the transaction and the session of a completed
login. -/
theorem callback_cookie {oidc : Option OidcClient} {code state : Str} {transactionCookie : Option Str}
    (h : callback py settings now oidc code state transactionCookie = .ok response)
    (hc : c ∈ response.cookies) :
    (c.key = oidcTransactionCookieName ∧ c.value = []) ∨
      c.key = sessionCookieName ∧ ∃ client transaction claims principal, oidc = some client ∧
        Completed py settings now client code state transactionCookie transaction claims principal ∧
        encodeSigned py settings.toAuthSettings now (asdict principal) = .ok c.value := by
  unfold callback at h
  split at h
  · rename_i client _
    obtain ⟨answer, haccepted, h⟩ := ok_of_bind h
    cases answer with
    | none =>
      cases h
      cases hc
    | some transaction =>
      obtain ⟨equal, hequal, h⟩ := ok_of_bind h
      cases equal with
      | false =>
        cases h
        cases hc
      | true =>
        simp only [Bool.not_true, Bool.false_eq_true, if_false] at h
        split at h
        · cases h
          cases hc
        · cases h
          cases hc
        · cases h
        · rename_i principal hidentify
          split at h
          · cases h
            cases hc
          · rename_i hrole
            obtain ⟨claims, hverified, hprincipal⟩ := identify_some hidentify
            obtain hc | ⟨hkey, htoken⟩ := setSessionCookie_cookie h hc
            · left
              rw [Response.deleteCookie, Response.setCookie, List.nil_append, List.mem_singleton] at hc
              subst hc
              exact ⟨rfl, rfl⟩
            · right
              refine ⟨hkey, client, transaction, claims, principal, rfl,
                ⟨haccepted, eq_of_compareDigest hequal, hverified, hprincipal, ?_⟩, htoken⟩
              simpa using hrole
  · cases h
    cases hc

end Handlers

/-- What a principal keeps of its claims. -/
theorem kept_of_claims {py : Platform} {settings : AuthSettings} {claims : List (Str × JsonValue)}
    {method : Str} {p : Principal} (h : principalFromClaims py settings claims method = .ok p) :
    p.method = method ∧ optionalInt (Python.get claims (codes "exp")) = .ok p.expiresAt ∧
      ∃ clientId, settings.oidcClientId = some clientId ∧ p.roles = tokenRoles claims (toStr clientId) := by
  rw [principalFromClaims] at h
  split at h
  · cases h
  · rename_i clientId hclient
    obtain ⟨subject, -, h⟩ := ok_of_bind h
    obtain ⟨expiresAt, hexpires, h⟩ := ok_of_bind h
    cases h
    exact ⟨rfl, hexpires, clientId, hclient, rfl⟩

section History

variable {py : Platform} {sha256 : Bytes → Bytes}

/-- The time of expiry that a completed callback puts into its session. -/
theorem Answered.expiry_bounded (a : Answered) {client : OidcClient} (hclient : a.oidc = some client)
    {code state : Str} {transactionCookie : Option Str} {transaction claims : List (Str × JsonValue)}
    {principal : Principal} (h : Completed py a.settings a.now.seconds client code state transactionCookie
      transaction claims principal) :
    ∀ e ∈ principal.expiresAt, e.natAbs < 10 ^ Json.maxStrDigits := by
  intro e he
  obtain ⟨_, _, _, _, -, -, -, -, hverify⟩ := h.verified
  obtain ⟨-, hexpires, -⟩ := kept_of_claims h.principal_eq
  rw [Option.mem_def.mp he] at hexpires
  refine a.expiry_read client hclient _ _ claims e hverify ?_
  rcases hget : Python.get claims (codes "exp") with _ | v
  · rw [hget] at hexpires
    cases hexpires
  · rw [hget] at hexpires
    cases v with
    | int n =>
      cases hexpires
      rfl
    | _ => cases hexpires

/-- **Each cookie that was given out** is a transaction, the session of a password login, the session of a
callback, or empty. -/
theorem given_cases {a : Answered} {c : SetCookie} (hc : c ∈ a.cookies py sha256) :
    (∃ generated, a.visit = .loginPage generated ∧ c.key = oidcTransactionCookieName ∧
      encodeSigned py a.settings.toAuthSettings a.now.seconds
        (transaction generated.state generated.nonce generated.verifier) = .ok c.value) ∨
    (∃ request, a.visit = .login request ∧ c.key = sessionCookieName ∧
      encodeSigned py a.settings.toAuthSettings a.now.seconds (asdict (loginPrincipal request.username))
        = .ok c.value) ∨
    (∃ query transactionCookie client transaction claims principal,
      a.visit = .callback query transactionCookie ∧ c.key = sessionCookieName ∧ a.oidc = some client ∧
      Completed py a.settings a.now.seconds client query.code query.state transactionCookie transaction claims
        principal ∧
      encodeSigned py a.settings.toAuthSettings a.now.seconds (asdict principal) = .ok c.value) ∨
    (c.key = oidcTransactionCookieName ∧ c.value = []) := by
  obtain ⟨response, hresult, hc⟩ := result_of_mem_cookies py sha256 hc
  rw [Answered.result.eq_def] at hresult
  split at hresult
  · rename_i generated hvisit
    obtain ⟨-, hkey, htoken⟩ := loginPage_cookie hresult hc
    exact .inl ⟨generated, hvisit, hkey, htoken⟩
  · rename_i request hvisit
    obtain ⟨response', hlogin, rfl⟩ := map_some_eq_ok hresult
    obtain ⟨-, hkey, htoken⟩ := login_cookie hlogin hc
    exact .inr (.inl ⟨request, hvisit, hkey, htoken⟩)
  · rename_i query transactionCookie hvisit
    obtain ⟨response', hcallback, rfl⟩ := map_some_eq_ok hresult
    rcases callback_cookie hcallback hc with hdeleted |
      ⟨hkey, client, t, claims, principal, hclient, hcompleted, htoken⟩
    · exact .inr (.inr (.inr hdeleted))
    · exact .inr (.inr (.inl ⟨query, transactionCookie, client, t, claims, principal, hvisit, hkey, hclient,
        hcompleted, htoken⟩))

/-- A token that is not forged: if its signature is right, it was given out. -/
def Unforged (py : Platform) (settings : AuthSettings) (cookies : List SetCookie) (token : Str) : Prop :=
  ∀ encoded s, token = encoded ++ 46 :: s → 46 ∉ encoded → signature py settings encoded = .ok s →
    ∃ c ∈ cookies, c.value = token

/-! ## Sessions in the Keycloak modes -/

/-- In a Keycloak mode the session cookie counts. -/
def ThroughCookie (settings : AuthSettings) (request : Request) : Prop :=
  match settings.authMode with
  | .keycloak => bearerValue (header request "authorization") = none
  | .keycloakUiLocalApi => isUiPage request = true ∨ header request "authorization" = []
  | _ => False

/-- The session was given out after a password login. -/
def MintedByLogin (py : Platform) (sha256 : Bytes → Bytes) (a : Answered) (token : Str) : Prop :=
  (∃ request, a.visit = .login request) ∧
    ∃ c ∈ a.cookies py sha256, c.key = sessionCookieName ∧ c.value = token

/-- The session was given out after a callback. -/
def MintedByCallback (py : Platform) (sha256 : Bytes → Bytes) (a : Answered) (token : Str) : Prop :=
  (∃ query transactionCookie, a.visit = .callback query transactionCookie) ∧
    ∃ c ∈ a.cookies py sha256, c.key = sessionCookieName ∧ c.value = token

theorem authenticate_throughCookie {settings : AuthSettings} {verify : Option Verifier}
    {authenticator : Authenticator} (hcreate : createAuthenticator settings verify = .ok authenticator)
    {request : Request} (hthrough : ThroughCookie settings request) (now : ℤ) :
    authenticate py settings now authenticator request = cookiePrincipal py settings now request := by
  rw [createAuthenticator.eq_def] at hcreate
  rw [ThroughCookie] at hthrough
  rcases hm : settings.authMode with _ | _ | _ | _
  · rw [hm] at hthrough
    exact hthrough.elim
  · rw [hm] at hthrough
    exact hthrough.elim
  · rw [hm] at hthrough hcreate
    cases verify with
    | none => cases hcreate
    | some verify =>
      cases hcreate
      rw [authenticate, show bearerValue (header request "authorization") = none from hthrough]
  · rw [hm] at hthrough hcreate
    cases verify with
    | none => cases hcreate
    | some verify =>
      cases hcreate
      rw [authenticate]
      split
      · rfl
      · rename_i hpage
        rw [if_neg (not_not.mpr (hthrough.resolve_left hpage))]

/-- A session of a password login is accepted in every mode, as long as it lasts. -/
theorem decodeSession_login {settings : AuthSettings} {secret : Text}
    (hsecret : settings.authSessionSecret = some secret) {a : Answered}
    (ha : a.settings.authSessionSecret = some secret) {token : Str} (h : MintedByLogin py sha256 a token)
    (now : ℤ) :
    ∃ q : Principal, q.method = codes "local" ∧ decodeSession py settings now token
      = .ok (if 0 ≤ now - a.now.seconds ∧ now - a.now.seconds ≤ settings.authSessionTtlSeconds then some q
          else none) := by
  obtain ⟨⟨request, hvisit⟩, c, hc, hkey, rfl⟩ := h
  rcases given_cases hc with ⟨g, hv, -⟩ | ⟨request', hv, -, htoken⟩ | ⟨q, t, _, _, _, _, hv, -⟩ | ⟨hdeleted, -⟩
  · rw [hvisit] at hv
    cases hv
  · rw [encodeSigned_congr (ha.trans hsecret.symm)] at htoken
    have hmethod : Joined (loginPrincipal request'.username).method :=
      joined_codes (s := codes "local") (by decide)
    have hnone : ∀ {P : ℤ → Prop}, ∀ e ∈ (loginPrincipal request'.username).expiresAt, P e := by
      intro P e he
      cases he
    obtain ⟨q, hq, hdecode⟩ := decodeSession_minted hsecret hmethod hnone a.now now htoken
    refine ⟨q, hq, hdecode.trans ?_⟩
    congr 1
    exact if_congr (and_iff_left hnone) rfl rfl
  · rw [hvisit] at hv
    cases hv
  · rw [hkey] at hdeleted
    exact absurd hdeleted (by decide)

/-- **Sessions in the Keycloak modes.**  Over any history under one session secret, a request in a
Keycloak mode whose session cookie counts is authenticated only through a session of the callback if
and only if its cookie is not the session of a password login, given out at most the lifetime of a
session ago. -/
theorem keycloak_session_iff (py : Platform) (sha256 : Bytes → Bytes) {secret : Text}
    (history : List Answered) (hhistory : ∀ a ∈ history, a.settings.authSessionSecret = some secret)
    (settings : RouterSettings) (hsecret : settings.authSessionSecret = some secret)
    (verify : Option Verifier) (authenticator : Authenticator)
    (hcreate : createAuthenticator settings.toAuthSettings verify = .ok authenticator) (now : ℤ)
    (request : Request) (hthrough : ThroughCookie settings.toAuthSettings request) {cookie : Text}
    (hcookie : sessionCookie request = some cookie)
    (hunforged : Unforged py settings.toAuthSettings (given py sha256 history) (toStr cookie)) :
    (∀ p, authenticate py settings.toAuthSettings now authenticator request = .ok (some p) →
      (∃ a ∈ history, MintedByCallback py sha256 a (toStr cookie)) ∧ p.method = codes "oidc_session") ↔
    ∀ a ∈ history, MintedByLogin py sha256 a (toStr cookie) →
      ¬(0 ≤ now - a.now.seconds ∧ now - a.now.seconds ≤ settings.authSessionTtlSeconds) := by
  have hauth : authenticate py settings.toAuthSettings now authenticator request
      = decodeSession py settings.toAuthSettings now (toStr cookie) := by
    rw [authenticate_throughCookie hcreate hthrough, cookiePrincipal, hcookie]
  rw [hauth]
  constructor
  · intro h a ha hminted hlasts
    obtain ⟨q, hq, hdecode⟩ := decodeSession_login hsecret (hhistory a ha) hminted now
    rw [if_pos hlasts] at hdecode
    have hmethod := (h q hdecode).2
    rw [hq] at hmethod
    exact absurd hmethod (by decide)
  · intro h p hp
    obtain ⟨encoded, s, heq, hdot, hs⟩ := signed_of_decodeSession py settings.toAuthSettings hp
    obtain ⟨c, hc, hvalue⟩ := hunforged encoded s heq hdot hs
    obtain ⟨a, ha, hc⟩ := (mem_given py sha256).mp hc
    have hsame : a.settings.authSessionSecret = settings.authSessionSecret := (hhistory a ha).trans hsecret.symm
    rcases given_cases hc with ⟨g, -, -, htoken⟩ | ⟨r, hvisit, hkey, -⟩ |
      ⟨query, t, client, transaction, claims, principal, hvisit, hkey, hclient, hcompleted, htoken⟩ |
      ⟨-, hempty⟩
    · rw [encodeSigned_congr hsame, hvalue] at htoken
      obtain ⟨token', htoken', hnone⟩ := decodeSession_transaction py settings.toAuthSettings hsecret
        g.state g.nonce g.verifier a.now now
      obtain rfl : token' = toStr cookie := Except.ok.inj (htoken'.symm.trans htoken)
      rw [hp] at hnone
      cases hnone
    · have hminted : MintedByLogin py sha256 a (toStr cookie) := ⟨⟨r, hvisit⟩, c, hc, hkey, hvalue⟩
      obtain ⟨q, -, hdecode⟩ := decodeSession_login hsecret (hhistory a ha) hminted now
      rw [if_neg (h a ha hminted), hp] at hdecode
      cases hdecode
    · refine ⟨⟨a, ha, ⟨query, t, hvisit⟩, c, hc, hkey, hvalue⟩, ?_⟩
      have hmethod := (kept_of_claims hcompleted.principal_eq).1
      rw [encodeSigned_congr hsame, hvalue] at htoken
      obtain ⟨q, hq, hdecode⟩ := decodeSession_minted hsecret (by rw [hmethod]; exact joined_codes (by decide))
        (a.expiry_bounded hclient hcompleted) a.now now htoken
      rw [hp] at hdecode
      split_ifs at hdecode
      · rw [Option.some.inj (Except.ok.inj hdecode), hq, hmethod]
      · cases hdecode
    · rw [hempty] at hvalue
      rw [heq] at hvalue
      simp at hvalue

end History

/-- The password login of `alice`. -/
def aliceVisit : Answered where
  settings := localRouter
  oidc := none
  now := aliceLogin
  visit := .login ⟨codes "alice", codes "secret-password"⟩
  expiry_read := nofun

/-- The session that `alice` was given. -/
def aliceToken : String :=
  "eyJleHBpcmVzX2F0IjpudWxsLCJpYXQiOjE3MDAwMDAwMDAsIm1ldGhvZCI6ImxvY2FsIiwicm9sZXMiOlsidmlld2VyIiwib3Bl"
    ++ "cmF0b3IiXSwic3ViamVjdCI6ImxvY2FsOmFsaWNlIiwidXNlcm5hbWUiOiJhbGljZSJ9.11606e275f4a1a3aabf2669161a7e2"
    ++ "5dc363b35bdeb6270b2e72d82c79bb5400"

/-- `alice` runs tests with her session. -/
def aliceRequest : Request := runRequest "cookie" ("test_runner_session=" ++ aliceToken)

theorem aliceRequest_cookie : sessionCookie aliceRequest = some aliceToken.toList := by decide +kernel

theorem aliceVisit_cookies :
    (aliceVisit.cookies alicePlatform id).map SetCookie.value = [toStr aliceToken.toList] := by
  decide +kernel

theorem aliceToken_unforged : Unforged alicePlatform keycloakRouter.toAuthSettings
    (given alicePlatform id [aliceVisit]) (toStr aliceToken.toList) := by
  rintro - - - - -
  have hmem : toStr aliceToken.toList ∈ (aliceVisit.cookies alicePlatform id).map SetCookie.value := by
    rw [aliceVisit_cookies]
    exact List.mem_singleton_self _
  obtain ⟨c, hc, hvalue⟩ := List.mem_map.mp hmem
  exact ⟨c, (mem_given alicePlatform id).mpr ⟨aliceVisit, List.mem_singleton_self _, hc⟩, hvalue⟩

/-- **A session of the password login runs tests in a Keycloak mode.**  After the change of the mode from
local to Keycloak, the session of `alice` is accepted, and no role is asked of her. -/
theorem local_session_in_keycloak :
    ThroughCookie keycloakRouter.toAuthSettings aliceRequest ∧
    Unforged alicePlatform keycloakRouter.toAuthSettings (given alicePlatform id [aliceVisit])
      (toStr aliceToken.toList) ∧
    sessionCookie aliceRequest = some aliceToken.toList ∧
    authenticate alicePlatform keycloakRouter.toAuthSettings 1700000060 (.keycloak fractionalExpiry)
      aliceRequest = .ok (some alice.toPrincipal) ∧
    alice.method = codes "local" ∧
    (∀ a ∈ [aliceVisit], ¬MintedByCallback alicePlatform id a (toStr aliceToken.toList)) ∧
    serve alicePlatform keycloakRouter.toAuthSettings (fun _ _ => true) 1700000060
      (.keycloak fractionalExpiry) aliceRequest = .served .runTests := by
  have hauth : authenticate alicePlatform keycloakRouter.toAuthSettings 1700000060
      (.keycloak fractionalExpiry) aliceRequest = .ok (some alice.toPrincipal) := by decide +kernel
  refine ⟨by show bearerValue _ = none; decide +kernel, aliceToken_unforged, aliceRequest_cookie, hauth, rfl,
    ?_, ?_⟩
  · rintro a ha ⟨⟨query, t, hvisit⟩, -⟩
    rw [List.mem_singleton.mp ha] at hvisit
    cases hvisit
  · exact (serve_of_hasRole _ _ _ _ _ (by decide) hauth (by decide)).trans (by decide +kernel)

/-- The session of `alice` after its last second. -/
theorem keycloak_session_iff_expired :
    (∀ p, authenticate alicePlatform keycloakRouter.toAuthSettings 1700003601 (.keycloak fractionalExpiry)
        aliceRequest = .ok (some p) →
      (∃ a ∈ [aliceVisit], MintedByCallback alicePlatform id a (toStr aliceToken.toList)) ∧
        p.method = codes "oidc_session") ↔
    ∀ a ∈ [aliceVisit], MintedByLogin alicePlatform id a (toStr aliceToken.toList) →
      ¬(0 ≤ 1700003601 - a.now.seconds ∧
        1700003601 - a.now.seconds ≤ keycloakRouter.authSessionTtlSeconds) :=
  keycloak_session_iff alicePlatform id [aliceVisit]
    (fun a ha => by rw [List.mem_singleton.mp ha]; rfl) keycloakRouter rfl
    (some fractionalExpiry) (.keycloak fractionalExpiry) rfl 1700003601 aliceRequest
    (by show bearerValue _ = none; decide +kernel) aliceRequest_cookie aliceToken_unforged

/-! ## The login at the identity provider -/

/-- No client forges a transaction: what a callback presents with a right signature was given out before. -/
def NoForgery (py : Platform) (sha256 : Bytes → Bytes) (history : List Answered) : Prop :=
  ∀ before a after query token, history = before ++ a :: after → a.visit = .callback query (some token) →
    Unforged py a.settings.toAuthSettings (given py sha256 before) token

/-- The session `c` that the callback `a` gave out ends the login that `b` began: the browser presents the
transaction that `b` gave it, at most 600 seconds later and with its state; the code was exchanged with
its verifier and the ID token verified against its nonce; and the session has the roles and the time of
expiry of the verified claims, with the role of a viewer or of an operator among them. -/
structure EndsLogin (py : Platform) (sha256 : Bytes → Bytes) (b a : Answered) (query : CallbackQuery)
    (token : Str) (generated : Generated) (client : OidcClient) (claims : List (Str × JsonValue))
    (principal : Principal) (c : SetCookie) : Prop where
  began : b.visit = .loginPage generated
  given : ∃ t ∈ b.cookies py sha256, t.key = oidcTransactionCookieName ∧ t.value = token
  in_time : 0 ≤ a.now.seconds - b.now.seconds ∧ a.now.seconds - b.now.seconds ≤ 600
  state_eq : query.state = generated.state
  verified : ∃ tokens idToken, client.exchangeCode query.code generated.verifier = .ok (some tokens) ∧
    Python.get tokens (codes "id_token") = some idToken ∧
    client.verifyIdToken (py.text idToken) generated.nonce = .ok (some claims)
  role : toStr a.settings.oidcViewerRole ∈ principal.roles ∨ toStr a.settings.oidcOperatorRole ∈ principal.roles
  roles_eq : ∃ clientId, a.settings.oidcClientId = some clientId ∧
    principal.roles = tokenRoles claims (toStr clientId)
  expiry_eq : optionalInt (Python.get claims (codes "exp")) = .ok principal.expiresAt
  token_eq : encodeSigned py a.settings.toAuthSettings a.now.seconds (asdict principal) = .ok c.value

/-- A principal of the callback has the role of a viewer only by its roles. -/
theorem role_of_hasRole {settings : AuthSettings} {p : Principal} (hmethod : p.method = codes "oidc_session")
    (h : hasRole p .viewer settings = true) :
    toStr settings.oidcViewerRole ∈ p.roles ∨ toStr settings.oidcOperatorRole ∈ p.roles := by
  rw [hasRole, if_neg (by rw [hmethod]; decide)] at h
  exact of_decide_eq_true h

/-- **The OIDC login is bound to the browser that started it.**  In every history of requests under one
session secret in which no token is forged, each session that a callback gives out ends a login that
began before it. -/
theorem callback_bound (py : Platform) (sha256 : Bytes → Bytes) {secret : Text} (history : List Answered)
    (hhistory : ∀ a ∈ history, a.settings.authSessionSecret = some secret)
    (hforgery : NoForgery py sha256 history) (before after : List Answered) (a : Answered)
    (hsplit : history = before ++ a :: after) (query : CallbackQuery) (transactionCookie : Option Str)
    (hvisit : a.visit = .callback query transactionCookie) (c : SetCookie) (hc : c ∈ a.cookies py sha256)
    (hkey : c.key = sessionCookieName) :
    ∃ token b generated client claims principal, transactionCookie = some token ∧ b ∈ before ∧
      a.oidc = some client ∧ EndsLogin py sha256 b a query token generated client claims principal c := by
  have hbefore : ∀ b ∈ before, b.settings.authSessionSecret = some secret := fun b hb =>
    hhistory b (hsplit ▸ List.mem_append_left _ hb)
  have ha : a.settings.authSessionSecret = some secret :=
    hhistory a (hsplit ▸ List.mem_append_right _ List.mem_cons_self)
  rcases given_cases hc with ⟨g, hv, -⟩ | ⟨r, hv, -⟩ |
    ⟨query', cookie', client, transaction, claims, principal, hv, -, hclient, hcompleted, htoken⟩ |
    ⟨hdeleted, -⟩
  · rw [hvisit] at hv
    cases hv
  · rw [hvisit] at hv
    cases hv
  · obtain ⟨rfl, rfl⟩ := Visit.callback.inj (hvisit.symm.trans hv)
    obtain ⟨hmethod, hexpires, hroles⟩ := kept_of_claims hcompleted.principal_eq
    obtain ⟨verifier, tokens, idToken, nonce, hverifier, hexchange, hid, hnonce, hverify⟩ := hcompleted.verified
    cases transactionCookie with
    | none => cases hcompleted.accepted
    | some token =>
      -- the presented transaction is one of those given out before
      obtain ⟨encoded, s, heq, hdot, hs⟩ := signed_of_decodeSigned py a.settings.toAuthSettings
        hcompleted.accepted
      obtain ⟨t, ht, hvalue⟩ := hforgery before a after query token hsplit hvisit encoded s heq hdot hs
      obtain ⟨b, hb, ht⟩ := (mem_given py sha256).mp ht
      have hsame : b.settings.authSessionSecret = a.settings.authSessionSecret :=
        (hbefore b hb).trans ha.symm
      have hsession : ∀ {p : Principal}, Joined p.method →
          (∀ e ∈ p.expiresAt, e.natAbs < 10 ^ Json.maxStrDigits) →
          encodeSigned py b.settings.toAuthSettings b.now.seconds (asdict p) ≠ .ok t.value := by
        intro p hjoined hbound htoken'
        rw [encodeSigned_congr hsame, hvalue] at htoken'
        have hnone := no_state_of_session ha hjoined hbound b.now htoken' hcompleted.accepted
        have hstate := hcompleted.state_eq
        rw [transactionState, hnone] at hstate
        exact query.state_nonempty hstate.symm
      rcases given_cases ht with ⟨g, hg, htkey, htoken'⟩ | ⟨r, -, -, htoken'⟩ |
        ⟨_, _, client', _, _, principal', -, -, hclient', hcompleted', htoken'⟩ | ⟨-, hempty⟩
      · rw [encodeSigned_congr hsame, hvalue] at htoken'
        obtain ⟨rfl, hage⟩ := eq_of_decodeSigned_transaction ha
          (joined_of_lt fun c hc => (g.state_ascii c hc).trans (by decide))
          (joined_of_lt fun c hc => (g.nonce_ascii c hc).trans (by decide))
          (joined_of_lt fun c hc => (g.verifier_ascii c hc).trans (by decide)) b.now htoken'
          hcompleted.accepted
        cases hverifier
        cases hnonce
        exact ⟨token, b, g, client, claims, principal, rfl, hb, hclient,
          { began := hg
            given := ⟨t, ht, htkey, hvalue⟩
            in_time := hage
            state_eq := hcompleted.state_eq.symm
            verified := ⟨tokens, idToken, hexchange, hid, hverify⟩
            role := role_of_hasRole hmethod hcompleted.role
            roles_eq := hroles
            expiry_eq := hexpires
            token_eq := htoken }⟩
      · refine absurd htoken' (hsession (joined_codes (s := codes "local") (by decide)) ?_)
        intro e he
        cases he
      · have hmethod' := (kept_of_claims hcompleted'.principal_eq).1
        exact absurd htoken' (hsession (by rw [hmethod']; exact joined_codes (by decide))
          (b.expiry_bounded hclient' hcompleted'))
      · rw [hempty] at hvalue
        rw [heq] at hvalue
        simp at hvalue
  · rw [hkey] at hdeleted
    exact absurd hdeleted (by decide)

/-- An identity provider that knows one viewer. -/
def viewerClient : OidcClient where
  authorizationUrl _ _ _ := .ok (some (codes "https://sso.example.internal/auth"))
  exchangeCode _ _ := .ok (some [(codes "id_token", .str (codes "id-token"))])
  verifyIdToken _ _ := .ok (some
    [(codes "sub", .str (codes "bob")), (codes "exp", .int 1700003600),
      (codes "realm_access", .dict [(codes "roles", .list [.str (codes "hardware-test-runner.viewer")])])])

/-- `bob` opens the login page. -/
def bobLogin : Answered where
  settings := keycloakRouter
  oidc := some viewerClient
  now := aliceLogin
  visit := .loginPage
    ⟨codes "state", codes "nonce", codes "verifier", by decide, by decide, by decide⟩
  expiry_read := by
    rintro _ ⟨⟩ token nonce claims n hclaims hexp
    rw [← Option.some.inj (Except.ok.inj hclaims)] at hexp
    have hn : n = 1700003600 := by
      have : (some (.int 1700003600) : Option JsonValue) = some (.int n) := hexp
      simpa using this.symm
    have hpow : ∀ k, 31 ≤ k → (1700003600 : ℤ).natAbs < 2 ^ k := fun k hk =>
      (by decide : (1700003600 : ℤ).natAbs < 2 ^ 31).trans_le (Nat.pow_le_pow_right (by decide) hk)
    rw [hn]
    exact (⟨1700003600, hpow 1024 (by decide)⟩ : Instant).lt

/-- The transaction that `bob` was given. -/
def bobToken : String :=
  "eyJpYXQiOjE3MDAwMDAwMDAsIm5vbmNlIjoibm9uY2UiLCJzdGF0ZSI6InN0YXRlIiwidmVyaWZpZXIiOiJ2ZXJpZmllciJ9.11"
    ++ "606e275f4a1a3aabf2669161a7e25dc363b35bdeb6270b2e72d82c79bb5400"

/-- `bob` comes back from the identity provider. -/
def bobCallback : Answered :=
  { bobLogin with
    visit := .callback ⟨codes "code", codes "state", by decide, by decide⟩ (some (codes bobToken)) }

theorem bobLogin_cookies :
    (bobLogin.cookies alicePlatform id).map SetCookie.value = [codes bobToken] := by
  decide +kernel

theorem bobCallback_cookies :
    (bobCallback.cookies alicePlatform id).map SetCookie.key
      = [oidcTransactionCookieName, sessionCookieName] := by
  decide +kernel

theorem bob_noForgery : NoForgery alicePlatform id [bobLogin, bobCallback] := by
  intro before a after query token hsplit hvisit
  rcases before with _ | ⟨b, _ | ⟨b', before⟩⟩
  · obtain ⟨rfl, -⟩ := List.cons.inj hsplit
    cases hvisit
  · obtain ⟨rfl, hrest⟩ := List.cons.inj hsplit
    obtain ⟨rfl, -⟩ := List.cons.inj hrest
    obtain ⟨-, htoken⟩ := Visit.callback.inj hvisit
    rw [← Option.some.inj htoken]
    rintro - - - - -
    have hmem : codes bobToken ∈ (bobLogin.cookies alicePlatform id).map SetCookie.value := by
      rw [bobLogin_cookies]
      exact List.mem_singleton_self _
    obtain ⟨c, hc, hvalue⟩ := List.mem_map.mp hmem
    exact ⟨c, (mem_given alicePlatform id).mpr ⟨bobLogin, List.mem_singleton_self _, hc⟩, hvalue⟩
  · have hlength := congrArg List.length hsplit
    simp at hlength

/-- The session of `bob` ends the login that he began. -/
theorem callback_bound_bob :
    ∃ c ∈ bobCallback.cookies alicePlatform id, c.key = sessionCookieName ∧
      ∃ query token b generated client claims principal, b ∈ [bobLogin] ∧
        EndsLogin alicePlatform id b bobCallback query token generated client claims principal c := by
  have hmem : sessionCookieName ∈ (bobCallback.cookies alicePlatform id).map SetCookie.key := by
    rw [bobCallback_cookies]
    exact List.mem_cons_of_mem _ (List.mem_singleton_self _)
  obtain ⟨c, hc, hkey⟩ := List.mem_map.mp hmem
  have hhistory : ∀ a ∈ [bobLogin, bobCallback],
      a.settings.authSessionSecret = some "session-secret".toList := by
    intro a ha
    rcases List.mem_pair.mp ha with rfl | rfl <;> rfl
  obtain ⟨token, b, generated, client, claims, principal, -, hb, -, hends⟩ :=
    callback_bound alicePlatform id [bobLogin, bobCallback] hhistory bob_noForgery [bobLogin] [] bobCallback
      rfl _ _ rfl c hc hkey
  exact ⟨c, hc, hkey, _, token, b, generated, client, claims, principal, hb, hends⟩

end HardwareTest.Auth
