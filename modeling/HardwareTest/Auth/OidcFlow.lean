import HardwareTest.Auth.SigningKeys
import HardwareTest.Lib.RelyGuarantee
import HardwareTest.Lib.UrlForm

/-!
# The login flow of the client

The methods of `OidcClient` that the handlers call: they send the browser to the identity provider,
exchange its code, verify tokens, and end the session.  The calls of one client run on one event loop,
share its endpoints and its keys, and are under way at the same time.

* `authorizationUrl`, `exchangeCode`, `verify`, `logoutUrl`, … — the methods, over the clock, the fields of
  the client, the two requests to the provider and the library for tokens;
* `Accepted`, `Held` — endpoints and keys that come from documents the provider has served;
* `contract` — what the calls rely on and what they guarantee to each other;
* `provider_requests_guarded` — where the requests of every run go, and what they carry;
* `replies_justified` — what stands behind every value that a method returns.
-/

namespace HardwareTest.Auth.Oidc

open HardwareTest.Lib HardwareTest.Lib.Json HardwareTest.Lib.UrlForm HardwareTest.Python

/-! ## The methods -/

/-- The settings of the client, with what its other methods read. -/
structure FlowSettings extends OidcSettings where
  oidcClientId : Option Str
  oidcClientSecret : Option Str
  oidcAudience : Option Str
  publicUrl : Option Str
  oidcClockSkewSeconds : ℕ

/-- What the libraries raise and the client does not handle; a form cannot hold a surrogate. -/
inductive Unhandled (E : Type)
  | unicodeEncodeError
  | library (e : E)

abbrev Raises (E : Type) := OidcRaised (Unhandled E)

/-- `jwt.decode(token, key, algorithms=["RS256"], audience=…, issuer=…, leeway=…)`. -/
structure Decode (K : Type) where
  token : Str
  key : K
  audience : Str
  issuer : Str
  leeway : ℕ

/-- What the methods ask of the client's clock, fields and fetches, of the token endpoint, and of the
library. -/
inductive FlowOp (K : Type)
  | client (op : OidcOp)
  | post (url body : Str)
  | decode (decode : Decode K)

/-- The library for tokens, as far as it is a function of its arguments; it raises a `PyJWTError` (`none`)
or another exception. -/
structure Jwt (E K : Type) where
  getUnverifiedHeader : Str → Except (Option (Unhandled E)) Dict
  fromDict : FromDict (Unhandled E) K

section Methods

variable {E K : Type}

abbrev FlowOp.Answer (E K : Type) : FlowOp K → Type
  | .client op => op.Answer (Unhandled E)
  | .post _ _ => Except (Raises E) Dict
  | .decode _ => Except (Option (Unhandled E)) Dict

abbrev FlowWork (E K α : Type) := Program (FlowOp K) (FlowOp.Answer E K) (Raises E) α

/-- A part of the client that only asks of its clock, fields and fetches. -/
def fromClient {α : Type} (p : OidcWork (Unhandled E) α) : FlowWork E K α := p.lift .client fun _ x => x

variable (settings : FlowSettings)

/-- A setting that was validated. -/
def validated (value : Option Str) : Except (Raises E) Str :=
  match value with
  | none => .error (.oidcError "OIDC settings were not validated")
  | some value => .ok value

/-- `_client_id`. -/
def clientId : Except (Raises E) Str := validated settings.oidcClientId

/-- `_redirect_uri`. -/
def redirectUri : Except (Raises E) Str := do
  let publicUrl ← validated settings.publicUrl
  return (publicUrl.reverse.dropWhile (· == '/'.toNat)).reverse ++ codes "/auth/callback"

/-- `urllib.parse.urlencode(data)`. -/
def encodeForm (data : List (Str × Str)) : Except (Raises E) Str :=
  match urlencode data with
  | none => .error (.other .unicodeEncodeError)
  | some form => .ok form

/-- `f"{endpoint}?{urllib.parse.urlencode(data)}"`. -/
def withQuery (endpoint : Str) (data : List (Str × Str)) : Except (Raises E) Str := do
  return endpoint ++ 63 :: (← encodeForm data)

/-- The parameters of `authorization_url`. -/
def authorizationData (state nonce challenge : Str) : Except (Raises E) (List (Str × Str)) := do
  return [(codes "client_id", ← clientId settings), (codes "redirect_uri", ← redirectUri settings),
    (codes "response_type", codes "code"), (codes "scope", codes "openid profile"), (codes "state", state),
    (codes "nonce", nonce), (codes "code_challenge", challenge), (codes "code_challenge_method", codes "S256")]

/-- `authorization_url`. -/
def authorizationUrl (state nonce challenge : Str) : FlowWork E K Str :=
  fromClient (getEndpoints settings.toOidcSettings) >>= fun endpoints =>
    .ofExcept (authorizationData settings state nonce challenge >>= withQuery endpoints.authorization)

/-- The form of `exchange_code`. -/
def exchangeData (secret code verifier : Str) : Except (Raises E) (List (Str × Str)) := do
  return [(codes "grant_type", codes "authorization_code"), (codes "code", code),
    (codes "redirect_uri", ← redirectUri settings), (codes "client_id", ← clientId settings),
    (codes "client_secret", secret), (codes "code_verifier", verifier)]

/-- `post_form`. -/
def postForm (url : Str) (data : List (Str × Str)) : FlowWork E K Dict :=
  .ofExcept (encodeForm data) >>= fun body => .call (.post url body) .ofExcept

/-- The part of `exchange_code` after its request. -/
def withIdToken (response : Dict) : Except (Raises E) Dict :=
  match Python.get response (codes "id_token") with
  | some (.str _) => .ok response
  | _ => .error (.oidcError "the identity provider did not return an ID token")

/-- `exchange_code`. -/
def exchangeCode (code verifier : Str) : FlowWork E K Dict :=
  fromClient (getEndpoints settings.toOidcSettings) >>= fun endpoints =>
    .ofExcept (validated settings.oidcClientSecret >>= fun secret => exchangeData settings secret code verifier)
      >>= fun data => postForm endpoints.token data >>= fun response => .ofExcept (withIdToken response)

/-- The `except` clauses of `_verify`: in its body only the library raises a `PyJWTError`. -/
def fromLibrary {α : Type} : Except (Option (Unhandled E)) α → Except (Raises E) α
  | .ok a => .ok a
  | .error none => .error (.oidcError "the token is invalid")
  | .error (some e) => .error (.other e)

/-- The identifier of the key in a token header. -/
def headerKid (header : Dict) : Except (Raises E) Str :=
  match Python.get header (codes "alg"), Python.get header (codes "kid") with
  | some (.str alg), some (.str kid) =>
    if alg = codes "RS256" then .ok kid else .error (.oidcError "the token header is invalid")
  | _, _ => .error (.oidcError "the token header is invalid")

/-- `_verify`. -/
def verify (jwt : Jwt E K) (token audience : Str) : FlowWork E K Dict :=
  .ofExcept (fromLibrary (jwt.getUnverifiedHeader token) >>= headerKid) >>= fun kid =>
    fromClient (key settings.toOidcSettings jwt.fromDict kid) >>= fun key =>
      .ofExcept (issuer settings.toOidcSettings) >>= fun issuer =>
        .call (.decode ⟨token, key, audience, issuer, settings.oidcClockSkewSeconds⟩) fun claims =>
          .ofExcept (fromLibrary claims)

/-- `verify_id_token`. -/
def verifyIdToken (jwt : Jwt E K) (token nonce : Str) : FlowWork E K Dict :=
  .ofExcept (clientId settings) >>= fun audience => verify settings jwt token audience >>= fun claims =>
    match Python.get claims (codes "nonce") with
    | some (.str value) =>
      if value = nonce then .pure claims else .throw (.oidcError "the ID token nonce is invalid")
    | _ => .throw (.oidcError "the ID token nonce is invalid")

/-- `verify_access_token`. -/
def verifyAccessToken (jwt : Jwt E K) (token : Str) : FlowWork E K Dict :=
  .ofExcept (validated settings.oidcAudience) >>= fun audience => verify settings jwt token audience

/-- The parameters of `logout_url`. -/
def logoutData (postLogoutRedirectUri : Str) : Except (Raises E) (List (Str × Str)) := do
  return [(codes "client_id", ← clientId settings), (codes "post_logout_redirect_uri", postLogoutRedirectUri)]

/-- `logout_url`. -/
def logoutUrl (postLogoutRedirectUri : Str) : FlowWork E K Str :=
  fromClient (getEndpoints settings.toOidcSettings) >>= fun endpoints =>
    match endpoints.endSession with
    | none => .pure postLogoutRedirectUri
    | some endpoint => .ofExcept (logoutData settings postLogoutRedirectUri >>= withQuery endpoint)

/-- A call of one of the methods. -/
inductive MethodCall
  | authorizationUrl (state nonce challenge : Str)
  | exchangeCode (code verifier : Str)
  | verifyIdToken (token nonce : Str)
  | verifyAccessToken (token : Str)
  | logoutUrl (postLogoutRedirectUri : Str)

/-- What a method returns. -/
inductive Reply
  | url (url : Str)
  | document (document : Dict)

/-- What a call of a method does. -/
def work (jwt : Jwt E K) : MethodCall → FlowWork E K Reply
  | .authorizationUrl state nonce challenge =>
    authorizationUrl settings state nonce challenge >>= fun url => .pure (.url url)
  | .exchangeCode code verifier => exchangeCode settings code verifier >>= fun d => .pure (.document d)
  | .verifyIdToken token nonce => verifyIdToken settings jwt token nonce >>= fun d => .pure (.document d)
  | .verifyAccessToken token => verifyAccessToken settings jwt token >>= fun d => .pure (.document d)
  | .logoutUrl uri => logoutUrl settings uri >>= fun url => .pure (.url url)

end Methods

/-! ## The client and the provider -/

/-- The client, with what was answered to it: the documents by their URL, the answers of the token endpoint
to the forms posted there, and the claims of the decoded tokens. -/
structure Shared (K : Type) where
  client : Client
  served : List (Str × Dict)
  exchanged : List (Str × Str × Dict)
  decoded : List (Decode K × Dict)

/-- What the provider answers to a request: nothing in time or no JSON, a value, or a response on which the
library raises something else. -/
inductive HttpAnswer (E : Type)
  | unavailable
  | value (value : JsonValue)
  | raises (e : E)

/-- `UrlLibJsonHttpClient._request`. -/
def response {E : Type} : HttpAnswer E → Except (Raises E) Dict
  | .unavailable => .error (.oidcError "the identity provider is unavailable")
  | .value (.dict document) => .ok document
  | .value _ => .error (.oidcError "the identity provider returned an invalid response")
  | .raises e => .error (.other (.library e))

/-- How the next call is answered, whichever it is: by the clock, the provider or the library. -/
structure Environment (E : Type) where
  delay : ℚ≥0
  http : HttpAnswer E
  decode : Except (Option (Unhandled E)) Dict

section Runs

variable {E K : Type}

def Shared.fresh (K : Type) (clock : ℚ) : Shared K := ⟨.fresh clock, [], [], []⟩

/-- What was answered, when it was. -/
def answered {ε α β : Type} (x : Except ε α) (f : α → β) (log : List β) : List β :=
  match x with
  | .ok a => log ++ [f a]
  | .error _ => log

/-- One call of a method.  A fetch counts when it is answered: between its beginning and then it changes
nothing here. -/
def handleFlow (env : Environment E) : (op : FlowOp K) → Shared K → FlowOp.Answer E K op × Shared K
  | .client .monotonic, s =>
    let client := { s.client with clock := s.client.clock + env.delay, readings := s.client.readings + 1 }
    (client.clock, { s with client := client })
  | .client .endpoints, s => (s.client.endpoints, s)
  | .client (.setEndpoints endpoints), s =>
    ((), { s with client := { s.client with endpoints := some endpoints } })
  | .client .jwks, s => (s.client.jwks, s)
  | .client (.setJwks jwks), s => ((), { s with client := { s.client with jwks := some jwks } })
  | .client .jwksLoadedAt, s => (s.client.jwksLoadedAt, s)
  | .client (.setJwksLoadedAt time), s => ((), { s with client := { s.client with jwksLoadedAt := time } })
  | .client (.getJson _ url), s => (response env.http, { s with served := answered (response env.http) (url, ·) s.served })
  | .post url body, s =>
    (response env.http, { s with exchanged := answered (response env.http) (url, body, ·) s.exchanged })
  | .decode decode, s => (env.decode, { s with decoded := answered env.decode (decode, ·) s.decoded })

abbrev FlowSystem (E K : Type) := Threads.System (FlowOp K) (FlowOp.Answer E K) (Raises E) Reply (Shared K)

/-- The requests of a client under way, one call of one of them after another. -/
def flowStep : FlowSystem E K → ℕ × Environment E → Option (FlowSystem E K) :=
  Threads.step fun _ env op s => handleFlow env op s

/-! ## What the provider has served -/

variable (E) (settings : FlowSettings)

/-- Endpoints of a discovery document that was served under the URL of the issuer. -/
def Accepted (s : Shared K) (endpoints : OidcEndpoints) : Prop :=
  ∃ url document, (url, document) ∈ s.served ∧
    discoveryUrl settings.toOidcSettings = (.ok url : Except (Raises E) Str) ∧
    discovered settings.toOidcSettings document = (.ok endpoints : Except (Raises E) OidcEndpoints)

/-- Keys that were served under the URL of accepted endpoints. -/
def Held (s : Shared K) (jwks : Dict) : Prop :=
  ∃ endpoints, Accepted E settings s endpoints ∧ (endpoints.jwks, jwks) ∈ s.served

variable {E}

/-- A token that may be decoded: its header names an entry of the keys that were served, and the issuer and
the audience are those of the settings. -/
structure Vouched (jwt : Jwt E K) (s : Shared K) (audience : Option Str) (decode : Decode K) : Prop where
  key : ∃ header kid jwks entry, jwt.getUnverifiedHeader decode.token = .ok header ∧
    headerKid header = (.ok kid : Except (Raises E) Str) ∧ Held E settings s jwks ∧
    findKey jwks kid = some entry ∧ jwt.fromDict entry = .ok decode.key
  audience : audience = some decode.audience
  issuer : issuer settings.toOidcSettings = (.ok decode.issuer : Except (Raises E) Str)
  leeway : decode.leeway = settings.oidcClockSkewSeconds

/-- The audience of the token that a method verifies. -/
def MethodCall.audience : MethodCall → Option Str
  | .verifyIdToken _ _ => settings.oidcClientId
  | .verifyAccessToken _ => settings.oidcAudience
  | _ => none

/-- A form that may be posted for a method: it goes to the token endpoint, and holds the code and the
verifier of the method. -/
def Exchanges (E : Type) (settings : FlowSettings) (method : MethodCall) (s : Shared K) (url body : Str) :
    Prop :=
  ∃ code verifier endpoints secret data, method = .exchangeCode code verifier ∧
    Accepted E settings s endpoints ∧ url = endpoints.token ∧ settings.oidcClientSecret = some secret ∧
    exchangeData settings secret code verifier = (.ok data : Except (Raises E) _) ∧ parseForm body = some data

/-- What a method may call. -/
def Allowed (jwt : Jwt E K) (method : MethodCall) (s : Shared K) : FlowOp K → Prop
  | .client (.getJson .discovery url) =>
    discoveryUrl settings.toOidcSettings = (.ok url : Except (Raises E) Str)
  | .client (.getJson .jwks url) => ∃ endpoints, Accepted E settings s endpoints ∧ url = endpoints.jwks
  | .client (.setEndpoints endpoints) => Accepted E settings s endpoints
  | .client (.setJwks jwks) => Held E settings s jwks
  | .post url body => Exchanges E settings method s url body
  | .decode decode => Vouched settings jwt s (method.audience settings) decode
  | _ => True

/-- What an answer tells. -/
def Told (E : Type) (settings : FlowSettings) : (op : FlowOp K) → FlowOp.Answer E K op → Shared K → Prop
  | .client .endpoints, some endpoints, s => Accepted E settings s endpoints
  | .client .jwks, some jwks, s => Held E settings s jwks
  | .client (.getJson _ url), .ok document, s => (url, document) ∈ s.served
  | .post url body, .ok document, s => (url, body, document) ∈ s.exchanged
  | .decode decode, .ok claims, s => (decode, claims) ∈ s.decoded
  | _, _, _ => True

end Runs

/-! ## What stands behind a reply -/

section Replies

variable {E K : Type}

/-- A location that the browser is sent to.  Its query reads back as the parameters, and it is the query of
the location exactly when the endpoint has no query and no fragment of its own. -/
def Location (endpoint : Str) (data : List (Str × Str)) (location : Str) : Prop :=
  ∃ query, location = endpoint ++ 63 :: query ∧ parseForm query = some data ∧
    (splitUrl location = (endpoint, some query) ↔ 63 ∉ endpoint ∧ 35 ∉ endpoint)

/-- Claims that the library has decoded from the token, with a key of the provider. -/
def Attested (settings : FlowSettings) (jwt : Jwt E K) (s : Shared K) (method : MethodCall) (token : Str)
    (claims : Dict) : Prop :=
  ∃ decode, decode.token = token ∧ Vouched settings jwt s (method.audience settings) decode ∧
    (decode, claims) ∈ s.decoded

/-- What stands behind the reply to a call. -/
def Justified (settings : FlowSettings) (jwt : Jwt E K) (s : Shared K) (method : MethodCall) (reply : Reply) :
    Prop :=
  match method, reply with
  | .authorizationUrl state nonce challenge, .url location => ∃ endpoints data, Accepted E settings s endpoints ∧
    authorizationData settings state nonce challenge = (.ok data : Except (Raises E) _) ∧
    Location endpoints.authorization data location
  | .exchangeCode _ _, .document response => ∃ url body idToken, Exchanges E settings method s url body ∧
    (url, body, response) ∈ s.exchanged ∧ Python.get response (codes "id_token") = some (.str idToken)
  | .verifyIdToken token nonce, .document claims => Attested settings jwt s method token claims ∧
    Python.get claims (codes "nonce") = some (.str nonce)
  | .verifyAccessToken token, .document claims => Attested settings jwt s method token claims
  | .logoutUrl uri, .url location => ∃ endpoints, Accepted E settings s endpoints ∧
    match endpoints.endSession with
    | none => location = uri
    | some endpoint => ∃ data, logoutData settings uri = (.ok data : Except (Raises E) _) ∧
      Location endpoint data location
  | _, _ => False

end Replies

/-! ## The contract -/

section Contract

variable {E K : Type} {settings : FlowSettings} {jwt : Jwt E K}

/-- More was answered. -/
structure Shared.Later (s t : Shared K) : Prop where
  served : s.served ⊆ t.served
  exchanged : s.exchanged ⊆ t.exchanged
  decoded : s.decoded ⊆ t.decoded

theorem Shared.Later.refl (s : Shared K) : s.Later s :=
  ⟨List.Subset.refl _, List.Subset.refl _, List.Subset.refl _⟩

theorem Shared.Later.trans {s t u : Shared K} (hst : s.Later t) (htu : t.Later u) : s.Later u :=
  ⟨List.Subset.trans hst.served htu.served, List.Subset.trans hst.exchanged htu.exchanged,
    List.Subset.trans hst.decoded htu.decoded⟩

theorem Accepted.later {s t : Shared K} (hst : s.Later t) {endpoints : OidcEndpoints}
    (h : Accepted E settings s endpoints) : Accepted E settings t endpoints := by
  obtain ⟨url, document, hmem, hurl, hdiscovered⟩ := h
  exact ⟨url, document, hst.served hmem, hurl, hdiscovered⟩

theorem Held.later {s t : Shared K} (hst : s.Later t) {jwks : Dict} (h : Held E settings s jwks) :
    Held E settings t jwks := by
  obtain ⟨endpoints, haccepted, hmem⟩ := h
  exact ⟨endpoints, haccepted.later hst, hst.served hmem⟩

theorem Vouched.later {s t : Shared K} (hst : s.Later t) {audience : Option Str} {decode : Decode K}
    (h : Vouched settings jwt s audience decode) : Vouched settings jwt t audience decode where
  key := by
    obtain ⟨header, kid, jwks, entry, hheader, hkid, hheld, hentry⟩ := h.key
    exact ⟨header, kid, jwks, entry, hheader, hkid, hheld.later hst, hentry⟩
  audience := h.audience
  issuer := h.issuer
  leeway := h.leeway

theorem Exchanges.later {s t : Shared K} (hst : s.Later t) {method : MethodCall} {url body : Str}
    (h : Exchanges E settings method s url body) : Exchanges E settings method t url body := by
  obtain ⟨code, verifier, endpoints, secret, data, hmethod, haccepted, hrest⟩ := h
  exact ⟨code, verifier, endpoints, secret, data, hmethod, haccepted.later hst, hrest⟩

theorem Allowed.later {s t : Shared K} (hst : s.Later t) {method : MethodCall} {op : FlowOp K}
    (h : Allowed settings jwt method s op) : Allowed settings jwt method t op := by
  cases op with
  | client op =>
    cases op with
    | getJson purpose url =>
      cases purpose with
      | discovery => exact h
      | jwks =>
        obtain ⟨endpoints, haccepted, hurl⟩ := h
        exact ⟨endpoints, haccepted.later hst, hurl⟩
    | setEndpoints endpoints => exact Accepted.later hst h
    | setJwks jwks => exact Held.later hst h
    | monotonic => trivial
    | endpoints => trivial
    | jwks => trivial
    | jwksLoadedAt => trivial
    | setJwksLoadedAt time => trivial
  | post url body => exact Exchanges.later hst h
  | decode decode => exact Vouched.later hst h

theorem Told.later {s t : Shared K} (hst : s.Later t) {op : FlowOp K} {x : FlowOp.Answer E K op}
    (h : Told E settings op x s) : Told E settings op x t := by
  cases op with
  | client op =>
    cases op with
    | getJson purpose url =>
      cases x with
      | ok document => exact hst.served h
      | error e => trivial
    | endpoints =>
      cases x with
      | some endpoints => exact Accepted.later hst h
      | none => trivial
    | jwks =>
      cases x with
      | some jwks => exact Held.later hst h
      | none => trivial
    | setEndpoints endpoints => trivial
    | setJwks jwks => trivial
    | monotonic => trivial
    | jwksLoadedAt => trivial
    | setJwksLoadedAt time => trivial
  | post url body =>
    cases x with
    | ok document => exact hst.exchanged h
    | error e => trivial
  | decode decode =>
    cases x with
    | ok claims => exact hst.decoded h
    | error e => trivial

theorem Attested.later {s t : Shared K} (hst : s.Later t) {method : MethodCall} {token : Str} {claims : Dict}
    (h : Attested settings jwt s method token claims) : Attested settings jwt t method token claims := by
  obtain ⟨decode, htoken, hvouched, hmem⟩ := h
  exact ⟨decode, htoken, hvouched.later hst, hst.decoded hmem⟩

theorem Justified.later {s t : Shared K} (hst : s.Later t) {method : MethodCall} {reply : Reply}
    (h : Justified settings jwt s method reply) : Justified settings jwt t method reply := by
  cases method with
  | authorizationUrl state nonce challenge =>
    cases reply with
    | url location =>
      obtain ⟨endpoints, data, haccepted, hrest⟩ := h
      exact ⟨endpoints, data, haccepted.later hst, hrest⟩
    | document d => exact h
  | exchangeCode code verifier =>
    cases reply with
    | url location => exact h
    | document d =>
      obtain ⟨url, body, idToken, hexchanges, hmem, htoken⟩ := h
      exact ⟨url, body, idToken, hexchanges.later hst, hst.exchanged hmem, htoken⟩
  | verifyIdToken token nonce =>
    cases reply with
    | url location => exact h
    | document claims => exact ⟨h.1.later hst, h.2⟩
  | verifyAccessToken token =>
    cases reply with
    | url location => exact h
    | document claims => exact Attested.later hst h
  | logoutUrl uri =>
    cases reply with
    | url location =>
      obtain ⟨endpoints, haccepted, hrest⟩ := h
      exact ⟨endpoints, haccepted.later hst, hrest⟩
    | document d => exact h

variable (settings jwt)

/-- What the methods that are under way guarantee to each other. -/
def contract (methods : List MethodCall) : Threads.Contract (FlowOp K) (FlowOp.Answer E K) (Shared K) where
  Changes := Shared.Later
  May i op s := ∃ method, methods[i]? = some method ∧ Allowed settings jwt method s op
  Tells := Told E settings
  refl := Shared.Later.refl
  trans := Shared.Later.trans
  may_stable hst := fun ⟨method, hmethod, hallowed⟩ => ⟨method, hmethod, hallowed.later hst⟩
  tells_stable hst htold := htold.later hst

/-- The contract of the parts that only ask of the client. -/
def clientContract (methods : List MethodCall) :
    Threads.Contract OidcOp (OidcOp.Answer (Unhandled E)) (Shared K) :=
  (contract settings jwt methods).comap .client fun _ x => x

end Contract

/-! ## The methods under the contract -/

section Verified

open Threads.Contract

variable {E K : Type} {settings : FlowSettings} {jwt : Jwt E K} {methods : List MethodCall} {i : ℕ}
  {method : MethodCall}

theorem verified_getEndpoints (hmethod : methods[i]? = some method) (s : Shared K) :
    Program.wp ((clientContract settings jwt methods).spec i) (getEndpoints settings.toOidcSettings)
      (OnReturn fun endpoints t => Accepted E settings t endpoints) s := by
  refine wp_calls ⟨method, hmethod, trivial⟩ ?_
  rintro (_ | endpoints) t - ⟨y, rfl, htold⟩
  · refine wp_then (P := fun url _ => discoveryUrl settings.toOidcSettings = (.ok url : Except (Raises E) Str))
      (wp_raised_or fun url hurl => hurl) fun url t _ hurl => ?_
    refine wp_then (P := fun document u => (url, document) ∈ u.served) ?_ fun document t _ hmem => ?_
    · refine wp_calls ⟨method, hmethod, hurl⟩ ?_
      rintro x u - ⟨y, rfl, htold⟩
      exact wp_raised_or fun document hdocument => by
        cases hdocument
        exact htold
    · refine wp_then (P := fun endpoints _ =>
          discovered settings.toOidcSettings document = (.ok endpoints : Except (Raises E) OidcEndpoints))
        (wp_raised_or fun endpoints hendpoints => hendpoints) fun endpoints u htu hendpoints => ?_
      have haccepted : Accepted E settings u endpoints := ⟨url, document, htu.served hmem, hurl, hendpoints⟩
      refine wp_calls ⟨method, hmethod, haccepted⟩ ?_
      intro x v huv _
      exact haccepted.later huv
  · exact htold

/-- What is cached, when it is, is held. -/
def HeldIfCached (E : Type) (settings : FlowSettings) (jwks : Option Dict) (s : Shared K) : Prop :=
  ∀ document, jwks = some document → Held E settings s document

theorem verified_readJwks (hmethod : methods[i]? = some method) (s : Shared K) :
    Program.wp ((clientContract settings jwt methods).spec i) (.call .jwks .pure : OidcWork (Unhandled E) _)
      (OnReturn (HeldIfCached E settings)) s := by
  refine wp_calls ⟨method, hmethod, trivial⟩ ?_
  rintro x t - ⟨y, rfl, htold⟩ document rfl
  exact htold

theorem verified_loadJwks (hmethod : methods[i]? = some method) (now : ℚ) (s : Shared K) :
    Program.wp ((clientContract settings jwt methods).spec i) (loadJwks settings.toOidcSettings now)
      (OnReturn (HeldIfCached E settings)) s := by
  refine wp_then (verified_getEndpoints hmethod s) fun endpoints t _ haccepted => ?_
  refine wp_then (P := fun document u => (endpoints.jwks, document) ∈ u.served) ?_ fun document u htu hmem => ?_
  · refine wp_calls ⟨method, hmethod, endpoints, haccepted, rfl⟩ ?_
    rintro x u - ⟨y, rfl, htold⟩
    exact wp_raised_or fun document hdocument => by
      cases hdocument
      exact htold
  · refine wp_calls ⟨method, hmethod, endpoints, haccepted.later htu, hmem⟩ fun _ v _ _ => ?_
    exact wp_calls ⟨method, hmethod, trivial⟩ fun _ w _ _ => verified_readJwks hmethod w

theorem verified_getJwks (hmethod : methods[i]? = some method) (force : Bool) (s : Shared K) :
    Program.wp ((clientContract settings jwt methods).spec i) (getJwks settings.toOidcSettings force)
      (OnReturn (HeldIfCached E settings)) s := by
  refine wp_calls ⟨method, hmethod, trivial⟩ fun now t _ _ => ?_
  refine wp_calls ⟨method, hmethod, trivial⟩ fun jwks u _ _ => ?_
  refine wp_calls ⟨method, hmethod, trivial⟩ fun loadedAt v _ _ => ?_
  split
  · exact verified_loadJwks hmethod now v
  · exact verified_readJwks hmethod v

/-- A key for an entry with the identifier in the keys that were served. -/
def KeyHeld (settings : FlowSettings) (jwt : Jwt E K) (kid : Str) (key : K) (s : Shared K) : Prop :=
  ∃ jwks entry, Held E settings s jwks ∧ findKey jwks kid = some entry ∧ jwt.fromDict entry = .ok key

theorem verified_lookUp {kid : Str} {again : OidcWork (Unhandled E) K} {jwks : Option Dict} {s : Shared K}
    (hheld : HeldIfCached E settings jwks s)
    (hagain : ∀ t, Program.wp ((clientContract settings jwt methods).spec i) again
      (OnReturn (KeyHeld settings jwt kid)) t) :
    Program.wp ((clientContract settings jwt methods).spec i) (lookUp jwt.fromDict kid again jwks)
      (OnReturn (KeyHeld settings jwt kid)) s := by
  cases jwks with
  | none => trivial
  | some document =>
    refine wp_then (P := fun entry t => findKey document kid = entry ∧ Held E settings t document)
      ⟨rfl, hheld document rfl⟩ fun entry t _ hentry => ?_
    cases entry with
    | none => exact hagain t
    | some entry =>
      refine wp_raised_or fun key hkey => ?_
      exact ⟨document, entry, hentry.2, hentry.1, signingKey_ok hkey⟩

/-- **The key of a verification** stands in keys that were served. -/
theorem verified_key (hmethod : methods[i]? = some method) (kid : Str) (s : Shared K) :
    Program.wp ((clientContract settings jwt methods).spec i) (key settings.toOidcSettings jwt.fromDict kid)
      (OnReturn (KeyHeld settings jwt kid)) s := by
  refine wp_then (verified_getJwks hmethod false s) fun jwks t _ hjwks => ?_
  refine verified_lookUp hjwks fun t => ?_
  refine wp_then (verified_getJwks hmethod true t) fun jwks u _ hjwks => ?_
  exact verified_lookUp hjwks fun v => wp_raised_or fun key hkey => by cases hkey

theorem verified_part {α : Type} {P : α → Shared K → Prop} {p : OidcWork (Unhandled E) α} {s : Shared K}
    (h : Program.wp ((clientContract settings jwt methods).spec i) p (OnReturn P) s) :
    Program.wp ((contract settings jwt methods).spec i) (fromClient p : FlowWork E K α) (OnReturn P) s :=
  wp_part h

/-- **A location** is an endpoint with the parameters in its query. -/
theorem location_of_withQuery {endpoint location : Str} {data : List (Str × Str)}
    (h : withQuery endpoint data = (.ok location : Except (Raises E) Str)) : Location endpoint data location := by
  cases hform : urlencode data with
  | none => simp [withQuery, encodeForm, hform] at h
  | some query =>
    have hlocation : location = endpoint ++ 63 :: query := by
      simp only [withQuery, encodeForm, hform] at h
      exact (Except.ok.inj h).symm
    subst hlocation
    exact ⟨query, rfl, parseForm_urlencode hform, splitUrl_query_iff (urlencode_plain hform).2.2⟩

theorem verified_authorizationUrl {state nonce challenge : Str}
    (hmethod : methods[i]? = some (.authorizationUrl state nonce challenge)) (s : Shared K) :
    Program.wp ((contract settings jwt methods).spec i) (authorizationUrl settings state nonce challenge)
      (OnReturn fun url t => Justified settings jwt t (.authorizationUrl state nonce challenge) (.url url)) s := by
  refine wp_then (verified_part (verified_getEndpoints hmethod s)) fun endpoints t _ haccepted => ?_
  refine wp_raised_or fun location hlocation => ?_
  cases hdata : (authorizationData settings state nonce challenge : Except (Raises E) _) with
  | error e =>
    rw [hdata] at hlocation
    cases hlocation
  | ok data =>
    rw [hdata] at hlocation
    exact ⟨endpoints, data, haccepted, hdata, location_of_withQuery hlocation⟩

theorem verified_exchangeCode {code verifier : Str} (hmethod : methods[i]? = some (.exchangeCode code verifier))
    (s : Shared K) :
    Program.wp ((contract settings jwt methods).spec i) (exchangeCode settings code verifier)
      (OnReturn fun d t => Justified settings jwt t (.exchangeCode code verifier) (.document d)) s := by
  refine wp_then (verified_part (verified_getEndpoints hmethod s)) fun endpoints t _ haccepted => ?_
  refine wp_then (P := fun data _ => ∃ secret, settings.oidcClientSecret = some secret ∧
    exchangeData settings secret code verifier = (.ok data : Except (Raises E) _))
    (wp_raised_or fun data hdata => ?_) fun data u htu hdata => ?_
  · cases hsecret : settings.oidcClientSecret with
    | none =>
      rw [hsecret] at hdata
      cases hdata
    | some secret =>
      rw [hsecret] at hdata
      exact ⟨secret, rfl, hdata⟩
  · obtain ⟨secret, hsecret, hdata⟩ := hdata
    refine wp_then (P := fun response v => ∃ body,
      Exchanges E settings (.exchangeCode code verifier) v endpoints.token body ∧
        (endpoints.token, body, response) ∈ v.exchanged) ?_ fun response v _ hresponse => ?_
    · refine wp_then (P := fun body _ => parseForm body = some data) (wp_raised_or fun body hbody => ?_)
        fun body v huv hbody => ?_
      · cases hform : urlencode data with
        | none => simp [encodeForm, hform] at hbody
        | some form =>
          simp only [encodeForm, hform] at hbody
          cases hbody
          exact parseForm_urlencode hform
      · have hlater := (haccepted.later htu).later huv
        have hexchanges : Exchanges E settings (.exchangeCode code verifier) v endpoints.token body :=
          ⟨code, verifier, endpoints, secret, data, rfl, hlater, rfl, hsecret, hdata, hbody⟩
        refine wp_calls ⟨_, hmethod, hexchanges⟩ fun response w hvw htold => ?_
        exact wp_raised_or fun document hdocument => by
          cases hdocument
          exact ⟨body, hexchanges.later hvw, htold⟩
    · obtain ⟨body, hexchanges, hmem⟩ := hresponse
      refine wp_raised_or fun document hdocument => ?_
      rw [withIdToken] at hdocument
      split at hdocument
      · rename_i idToken htoken
        cases hdocument
        exact ⟨endpoints.token, body, idToken, hexchanges, hmem, htoken⟩
      · cases hdocument

theorem fromLibrary_ok {α : Type} {x : Except (Option (Unhandled E)) α} {a : α}
    (h : fromLibrary x = .ok a) : x = .ok a := by
  cases x with
  | ok b =>
    cases h
    rfl
  | error e => cases e <;> cases h

theorem verified_verify (hmethod : methods[i]? = some method) {audience : Str}
    (haudience : method.audience settings = some audience) (token : Str) (s : Shared K) :
    Program.wp ((contract settings jwt methods).spec i) (verify settings jwt token audience)
      (OnReturn fun claims t => Attested settings jwt t method token claims) s := by
  refine wp_then (P := fun kid _ => ∃ header, jwt.getUnverifiedHeader token = .ok header ∧
    headerKid header = (.ok kid : Except (Raises E) Str)) (wp_raised_or fun kid hkid => ?_)
    fun kid t _ hkid => ?_
  · cases hheader : fromLibrary (jwt.getUnverifiedHeader token) with
    | error e =>
      rw [hheader] at hkid
      cases hkid
    | ok header =>
      rw [hheader] at hkid
      exact ⟨header, fromLibrary_ok hheader, hkid⟩
  · obtain ⟨header, hheader, hkid⟩ := hkid
    refine wp_then (verified_part (verified_key hmethod kid t)) fun key u _ hkey => ?_
    obtain ⟨jwks, entry, hheld, hentry, hfromDict⟩ := hkey
    refine wp_then (P := fun value _ => issuer settings.toOidcSettings = (.ok value : Except (Raises E) Str))
      (wp_raised_or fun value hvalue => hvalue) fun value v huv hissuer => ?_
    have hvouched : Vouched settings jwt v (method.audience settings)
        ⟨token, key, audience, value, settings.oidcClockSkewSeconds⟩ :=
      ⟨⟨header, kid, jwks, entry, hheader, hkid, hheld.later huv, hentry, hfromDict⟩, haudience, hissuer, rfl⟩
    refine wp_calls ⟨method, hmethod, hvouched⟩ fun claims w hvw htold => ?_
    refine wp_raised_or fun document hdocument => ?_
    cases fromLibrary_ok hdocument
    exact ⟨_, rfl, hvouched.later hvw, htold⟩

theorem validated_ok {value : Option Str} {a : Str} (h : validated value = (.ok a : Except (Raises E) Str)) :
    value = some a := by
  cases value with
  | none => cases h
  | some b =>
    cases h
    rfl

theorem verified_verifyIdToken {token nonce : Str} (hmethod : methods[i]? = some (.verifyIdToken token nonce))
    (s : Shared K) :
    Program.wp ((contract settings jwt methods).spec i) (verifyIdToken settings jwt token nonce)
      (OnReturn fun claims t => Justified settings jwt t (.verifyIdToken token nonce) (.document claims)) s := by
  refine wp_then (P := fun audience _ => settings.oidcClientId = some audience)
    (wp_raised_or fun audience h => validated_ok h) fun audience t _ haudience => ?_
  refine wp_then (verified_verify hmethod haudience token t) fun claims u _ hattested => ?_
  split
  · rename_i value hnonce
    split_ifs with hvalue
    · exact ⟨hattested, hvalue ▸ hnonce⟩
    · trivial
  · trivial

theorem verified_verifyAccessToken {token : Str} (hmethod : methods[i]? = some (.verifyAccessToken token))
    (s : Shared K) :
    Program.wp ((contract settings jwt methods).spec i) (verifyAccessToken settings jwt token)
      (OnReturn fun claims t => Justified settings jwt t (.verifyAccessToken token) (.document claims)) s := by
  refine wp_then (P := fun audience _ => settings.oidcAudience = some audience)
    (wp_raised_or fun audience h => validated_ok h) fun audience t _ haudience => ?_
  exact verified_verify hmethod haudience token t

theorem verified_logoutUrl {uri : Str} (hmethod : methods[i]? = some (.logoutUrl uri)) (s : Shared K) :
    Program.wp ((contract settings jwt methods).spec i) (logoutUrl settings uri)
      (OnReturn fun url t => Justified settings jwt t (.logoutUrl uri) (.url url)) s := by
  refine wp_then (verified_part (verified_getEndpoints hmethod s)) fun endpoints t _ haccepted => ?_
  cases hend : endpoints.endSession with
  | none =>
    refine ⟨endpoints, haccepted, ?_⟩
    rw [hend]
  | some endpoint =>
    refine wp_raised_or fun location hlocation => ⟨endpoints, haccepted, ?_⟩
    rw [hend]
    cases hdata : (logoutData settings uri : Except (Raises E) _) with
    | error e =>
      rw [hdata] at hlocation
      cases hlocation
    | ok data =>
      rw [hdata] at hlocation
      exact ⟨data, rfl, location_of_withQuery hlocation⟩

/-- **Every method keeps the contract**, and what stands behind its reply is known when it returns. -/
theorem verified_work (hmethod : methods[i]? = some method) (s : Shared K) :
    Program.wp ((contract settings jwt methods).spec i) (work settings jwt method)
      (OnReturn fun reply t => Justified settings jwt t method reply) s := by
  cases method with
  | authorizationUrl state nonce challenge =>
    exact wp_then (verified_authorizationUrl hmethod s) fun _ _ _ h => h
  | exchangeCode code verifier => exact wp_then (verified_exchangeCode hmethod s) fun _ _ _ h => h
  | verifyIdToken token nonce => exact wp_then (verified_verifyIdToken hmethod s) fun _ _ _ h => h
  | verifyAccessToken token => exact wp_then (verified_verifyAccessToken hmethod s) fun _ _ _ h => h
  | logoutUrl uri => exact wp_then (verified_logoutUrl hmethod s) fun _ _ _ h => h

/-! ## Runs -/

/-- What the client has cached comes from the provider. -/
structure Cached (E : Type) (settings : FlowSettings) (s : Shared K) : Prop where
  endpoints : ∀ endpoints, s.client.endpoints = some endpoints → Accepted E settings s endpoints
  jwks : HeldIfCached E settings s.client.jwks s

theorem subset_answered {ε α β : Type} (x : Except ε α) (f : α → β) (log : List β) : log ⊆ answered x f log := by
  cases x with
  | ok a => exact List.subset_append_left _ _
  | error e => exact List.Subset.refl _

theorem mem_answered {ε α β : Type} {x : Except ε α} {a : α} (h : x = .ok a) (f : α → β) (log : List β) :
    f a ∈ answered x f log := by
  rw [h]
  exact List.mem_append_right _ List.mem_cons_self

/-- Nothing that was answered is forgotten. -/
theorem handleFlow_later (env : Environment E) (op : FlowOp K) (s : Shared K) :
    s.Later (handleFlow env op s).2 := by
  cases op with
  | client op =>
    cases op with
    | getJson purpose url => exact ⟨subset_answered _ _ _, List.Subset.refl _, List.Subset.refl _⟩
    | monotonic => exact ⟨List.Subset.refl _, List.Subset.refl _, List.Subset.refl _⟩
    | endpoints => exact .refl s
    | setEndpoints endpoints => exact ⟨List.Subset.refl _, List.Subset.refl _, List.Subset.refl _⟩
    | jwks => exact .refl s
    | setJwks jwks => exact ⟨List.Subset.refl _, List.Subset.refl _, List.Subset.refl _⟩
    | jwksLoadedAt => exact .refl s
    | setJwksLoadedAt time => exact ⟨List.Subset.refl _, List.Subset.refl _, List.Subset.refl _⟩
  | post url body => exact ⟨List.Subset.refl _, subset_answered _ _ _, List.Subset.refl _⟩
  | decode decode => exact ⟨List.Subset.refl _, List.Subset.refl _, subset_answered _ _ _⟩

/-- **The answers tell what they should**, as long as only what comes from the provider is cached. -/
theorem handleFlow_told (env : Environment E) (op : FlowOp K) {s : Shared K} (hcached : Cached E settings s) :
    Told E settings op (handleFlow env op s).1 (handleFlow env op s).2 := by
  cases op with
  | client op =>
    cases op with
    | getJson purpose url =>
      cases hget : response env.http with
      | ok document =>
        have hmem := mem_answered hget (url, ·) s.served
        simp only [handleFlow, hget] at hmem ⊢
        exact hmem
      | error e =>
        simp only [handleFlow, hget]
        trivial
    | endpoints =>
      cases hendpoints : s.client.endpoints with
      | some endpoints =>
        simp only [handleFlow, hendpoints]
        exact hcached.endpoints endpoints hendpoints
      | none =>
        simp only [handleFlow, hendpoints]
        trivial
    | jwks =>
      cases hjwks : s.client.jwks with
      | some jwks =>
        simp only [handleFlow, hjwks]
        exact hcached.jwks jwks hjwks
      | none =>
        simp only [handleFlow, hjwks]
        trivial
    | monotonic => trivial
    | setEndpoints endpoints => trivial
    | setJwks jwks => trivial
    | jwksLoadedAt => trivial
    | setJwksLoadedAt time => trivial
  | post url body =>
    cases hpost : response env.http with
    | ok document =>
      have hmem := mem_answered hpost (url, body, ·) s.exchanged
      simp only [handleFlow, hpost] at hmem ⊢
      exact hmem
    | error e =>
      simp only [handleFlow, hpost]
      trivial
  | decode decode =>
    cases hdecode : env.decode with
    | ok claims =>
      have hmem := mem_answered hdecode (decode, ·) s.decoded
      simp only [handleFlow, hdecode] at hmem ⊢
      exact hmem
    | error e =>
      simp only [handleFlow, hdecode]
      trivial

/-- **Only what comes from the provider is cached**, by calls that may be made. -/
theorem handleFlow_cached (env : Environment E) {op : FlowOp K} {s : Shared K} (hcached : Cached E settings s)
    (hallowed : Allowed settings jwt method s op) : Cached E settings (handleFlow env op s).2 := by
  have hlater := handleFlow_later env op s
  -- every call but two leaves the endpoints and the keys as they are
  have hsame : (handleFlow env op s).2.client.endpoints = s.client.endpoints →
      (handleFlow env op s).2.client.jwks = s.client.jwks → Cached E settings (handleFlow env op s).2 :=
    fun hendpoints hjwks =>
      ⟨fun endpoints h => (hcached.endpoints endpoints (hendpoints ▸ h)).later hlater,
        fun document h => (hcached.jwks document (hjwks ▸ h)).later hlater⟩
  cases op with
  | client op =>
    cases op with
    | setEndpoints endpoints =>
      refine ⟨fun endpoints' h => ?_, fun document h => (hcached.jwks document h).later hlater⟩
      cases h
      exact Accepted.later hlater hallowed
    | setJwks jwks =>
      refine ⟨fun endpoints h => (hcached.endpoints endpoints h).later hlater, fun document h => ?_⟩
      cases h
      exact Held.later hlater hallowed
    | getJson purpose url => exact hsame rfl rfl
    | monotonic => exact hsame rfl rfl
    | endpoints => exact hsame rfl rfl
    | jwks => exact hsame rfl rfl
    | jwksLoadedAt => exact hsame rfl rfl
    | setJwksLoadedAt time => exact hsame rfl rfl
  | post url body => exact hsame rfl rfl
  | decode decode => exact hsame rfl rfl

/-- **One call keeps the contract**, when it may be made. -/
theorem handleFlow_keeps (env : Environment E) {op : FlowOp K} {s : Shared K} (hcached : Cached E settings s)
    (hmay : (contract settings jwt methods).May i op s) :
    Cached E settings (handleFlow env op s).2 ∧
      (contract settings jwt methods).Changes s (handleFlow env op s).2 ∧
      (contract settings jwt methods).Tells op (handleFlow env op s).1 (handleFlow env op s).2 := by
  obtain ⟨method, -, hallowed⟩ := hmay
  exact ⟨handleFlow_cached env hcached hallowed, handleFlow_later env op s, handleFlow_told env op hcached⟩

variable {clock : ℚ} {events : List (ℕ × Environment E)} {w : FlowSystem E K}

/-- **Every run keeps the contract.** -/
theorem flow_kept
    (hrun : Transition.run flowStep (Threads.start (.fresh K clock) (methods.map (work settings jwt))) events
      = some w) :
    Cached E settings w.shared ∧ ∀ i thread, w.threads[i]? = some thread →
      (contract settings jwt methods).Kept i (OnReturn fun reply t =>
        ∃ method, methods[i]? = some method ∧ Justified settings jwt t method reply) w.shared thread := by
  have hinitial : Cached E settings (.fresh K clock) := by
    constructor
    · intro endpoints h
      cases h
    · intro document h
      cases h
  refine (contract_run (J := Cached E settings)
    (Q := fun i => OnReturn fun reply t =>
      ∃ method, methods[i]? = some method ∧ Justified settings jwt t method reply)
    (fun i env op s => handleFlow_keeps env) (fun i r s t hst hr => ?_) hinitial (fun i p hp => ?_) hrun).imp_right
    And.right
  · cases r with
    | ok reply =>
      obtain ⟨method, hmethod, hjustified⟩ := hr
      exact ⟨method, hmethod, hjustified.later hst⟩
    | error e => trivial
  · rw [List.getElem?_map, Option.map_eq_some_iff] at hp
    obtain ⟨method, hmethod, rfl⟩ := hp
    refine Program.wp_mono (fun r t hr => ?_) (verified_work hmethod (.fresh K clock))
    cases r with
    | ok reply => exact ⟨method, hmethod, hr⟩
    | error e => trivial

theorem optionalUrl_https {document : Dict} {name : String} {url : Str}
    (h : optionalUrl document name = (.ok (some url) : Except (Raises E) _)) : codes "https://" <+: url := by
  rw [optionalUrl] at h
  split at h
  · cases h
  · cases h
  · split_ifs at h with hhttps
    cases h
    exact hhttps
  · cases h

theorem requiredUrl_https {document : Dict} {name : String} {url : Str}
    (h : requiredUrl document name = (.ok url : Except (Raises E) Str)) : codes "https://" <+: url := by
  cases hurl : (optionalUrl document name : Except (Raises E) _) with
  | error e =>
    rw [requiredUrl, hurl] at h
    cases h
  | ok value =>
    rw [requiredUrl, hurl] at h
    cases value with
    | none => cases h
    | some value =>
      cases h
      exact optionalUrl_https hurl

/-- **Accepted endpoints** are reached through TLS. -/
theorem accepted_https {s : Shared K} {endpoints : OidcEndpoints} (h : Accepted E settings s endpoints) :
    codes "https://" <+: endpoints.authorization ∧ codes "https://" <+: endpoints.token ∧
      codes "https://" <+: endpoints.jwks ∧ ∀ url, endpoints.endSession = some url → codes "https://" <+: url := by
  obtain ⟨url, document, -, -, h⟩ := h
  have hbind : ∀ {α β : Type} {x : Except (Raises E) α} {f : α → Except (Raises E) β} {b : β},
      (x >>= f) = .ok b → ∃ a, x = .ok a ∧ f a = .ok b := by
    intro α β x f b h
    cases x with
    | error e => cases h
    | ok a => exact ⟨a, rfl, h⟩
  obtain ⟨expected, -, h⟩ := hbind h
  split at h
  · split_ifs at h
    obtain ⟨authorization, hauthorization, h⟩ := hbind h
    obtain ⟨token, htoken, h⟩ := hbind h
    obtain ⟨jwks, hjwks, h⟩ := hbind h
    obtain ⟨endSession, hendSession, h⟩ := hbind h
    cases h
    exact ⟨requiredUrl_https hauthorization, requiredUrl_https htoken, requiredUrl_https hjwks,
      fun url hurl => optionalUrl_https (hendSession.trans (congrArg Except.ok hurl))⟩
  · cases h

end Verified

def sampleFlowSettings : FlowSettings where
  toOidcSettings := sampleSettings
  oidcClientId := some (codes "runner")
  oidcClientSecret := some (codes "s&cret")
  oidcAudience := some (codes "runner-api")
  publicUrl := some (codes "https://runner.example/")
  oidcClockSkewSeconds := 30

def sampleJwt : Jwt Empty Unit where
  getUnverifiedHeader _ := .ok [(codes "alg", .str (codes "RS256")), (codes "kid", .str (codes "old"))]
  fromDict key := match Python.get key (codes "kty") with
    | some (.str _) => .ok ()
    | _ => .error none

/-- A provider with a discovery document. -/
def sampleProvider : Environment Empty where
  delay := 1
  http := .value (.dict sampleDiscovery)
  decode := .error none

/-- A login page and a callback at the same time: both find no endpoints, and both fetch them. -/
def sampleMethods : List MethodCall :=
  [.authorizationUrl (codes "a b") (codes "n") (codes "c"), .exchangeCode (codes "4/x") (codes "v")]

def sampleFlow : Option (FlowSystem Empty Unit) :=
  Transition.run flowStep
    (Threads.start (.fresh Unit 5) (sampleMethods.map (work sampleFlowSettings sampleJwt)))
    ([0, 1, 1, 0, 0, 1, 1].map fun i => (i, sampleProvider))

/-- The forms that a method has posted. -/
def posted (thread : Threads.Thread (FlowOp Unit) (FlowOp.Answer Empty Unit) (Raises Empty) Reply) :
    List (Str × Str) :=
  thread.history.filterMap fun call =>
    match call.1 with
    | .post url body => some (url, body)
    | _ => none

/-- The location that a method has returned. -/
def location (thread : Threads.Thread (FlowOp Unit) (FlowOp.Answer Empty Unit) (Raises Empty) Reply) : Option Str :=
  match thread.outcome with
  | some (.ok (.url url)) => some url
  | _ => none

end HardwareTest.Auth.Oidc
