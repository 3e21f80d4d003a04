import HardwareTest.Auth.Middleware

/-!
# Two credentials in one mode

In the mode with pages behind Keycloak and a static token for the API, a request may carry a session
cookie and an Authorization header, and each of them several times.  The headers are collapsed to a
dictionary first, so that the last header of a name counts.

* `values`, `header_eq` — the headers of a name, and the one that counts;
* `SameBut` — two requests that differ in the headers of one name only;
* `CredentialsApart` — neither credential decides where the other does;
* `credentials_apart_iff` — this is so if and only if the Authorization header that counts has a value.
-/

namespace HardwareTest.Auth

open HardwareTest.Lib HardwareTest.Lib.Json HardwareTest.Python HardwareTest.Runner

/-! ## Headers of one name -/

/-- The values of the headers of a name, in their order. -/
def values (request : Request) (name : String) : List Bytes :=
  request.headers.filterMap fun h => if h.1 = ascii name then some h.2 else none

/-- `value.decode("latin-1")`. -/
def latin1 (value : Bytes) : Text := value.map fun b => Char.ofNat b.toNat

/-- In a dictionary made from pairs, the last pair of a key counts. -/
theorem lookup_reverse {α β : Type} [BEq α] [LawfulBEq α] [DecidableEq α] (pairs : List (α × β)) (key : α) :
    pairs.reverse.lookup key
      = (pairs.filterMap fun h => if h.1 = key then some h.2 else none).getLast? := by
  induction pairs using List.reverseRecOn with
  | nil => rfl
  | append_singleton pairs h ih =>
    rw [List.reverse_append, List.reverse_singleton, List.singleton_append, List.lookup,
      List.filterMap_append]
    by_cases hkey : h.1 = key
    · simp [hkey]
    · have hbeq : (key == h.1) = false := beq_eq_false_iff_ne.mpr fun heq => hkey heq.symm
      simp [hbeq, hkey, ih]

/-- **The last header of a name counts**, and no header counts like an empty one. -/
theorem header_eq (request : Request) (name : String) :
    header request name = ((values request name).getLast?).elim [] latin1 := by
  rw [header, values, lookup_reverse]
  split <;> rename_i hlast <;> rw [hlast] <;> rfl

/-- The two requests are the same, the headers of one name aside. -/
structure SameBut (name : String) (request request' : Request) : Prop where
  path : request.path = request'.path
  method : request.method = request'.method
  headers : request.headers.filter (fun h => decide (h.1 ≠ ascii name))
    = request'.headers.filter fun h => decide (h.1 ≠ ascii name)

theorem values_eq_filterMap_filter (request : Request) {name name' : String} (hne : ascii name' ≠ ascii name) :
    values request name' = (request.headers.filter fun h => decide (h.1 ≠ ascii name)).filterMap
      fun h => if h.1 = ascii name' then some h.2 else none := by
  rw [List.filterMap_filter, values]
  congr 1
  funext h
  by_cases hname : h.1 = ascii name
  · rw [if_neg fun heq => hne (heq.symm.trans hname), if_neg]
    rw [decide_eq_true_eq]
    exact not_not.mpr hname
  · rw [if_pos (decide_eq_true hname)]

/-- Headers of another name count alike. -/
theorem SameBut.header_eq {name name' : String} {request request' : Request}
    (h : SameBut name request request') (hne : ascii name' ≠ ascii name) :
    header request name' = header request' name' := by
  rw [Auth.header_eq, Auth.header_eq, values_eq_filterMap_filter request hne, h.headers,
    ← values_eq_filterMap_filter request' hne]

theorem SameBut.isUiPage_eq {name : String} {request request' : Request} (h : SameBut name request request') :
    isUiPage request = isUiPage request' := by
  rw [isUiPage, isUiPage, h.path]

/-- A request with other headers of one name, at the end of its headers. -/
def Request.withHeaders (request : Request) (name : String) (given : List Bytes) : Request :=
  { request with
    headers := request.headers.filter (fun h => decide (h.1 ≠ ascii name))
      ++ given.map fun value => (ascii name, value) }

theorem sameBut_withHeaders (request : Request) (name : String) (given : List Bytes) :
    SameBut name request (request.withHeaders name given) := by
  refine ⟨rfl, rfl, ?_⟩
  show _ = (_ ++ _ : List (Bytes × Bytes)).filter _
  have hgiven : (given.map fun value => (ascii name, value)).filter (fun h => decide (h.1 ≠ ascii name)) = [] := by
    rw [List.filter_eq_nil_iff]
    intro h hh
    obtain ⟨value, -, rfl⟩ := List.mem_map.mp hh
    exact fun hne => of_decide_eq_true hne rfl
  rw [List.filter_append, hgiven, List.append_nil, List.filter_filter]
  simp only [Bool.and_self]

theorem header_withHeaders (request : Request) (name : String) (given : List Bytes) :
    header (request.withHeaders name given) name = (given.getLast?).elim [] latin1 := by
  have hkept : (request.headers.filter fun h => decide (h.1 ≠ ascii name)).filterMap
      (fun h => if h.1 = ascii name then some h.2 else none) = [] := by
    rw [List.filterMap_filter, List.filterMap_eq_nil_iff]
    intro h _
    by_cases hname : h.1 = ascii name <;> simp [hname]
  have hgiven : (given.map fun value => (ascii name, value)).filterMap
      (fun h => if h.1 = ascii name then some h.2 else none) = given := by
    rw [List.filterMap_map]
    simp
  have hvalues : values (request.withHeaders name given) name = given := by
    show (_ ++ _ : List (Bytes × Bytes)).filterMap _ = given
    rw [List.filterMap_append, hkept, hgiven, List.nil_append]
  rw [Auth.header_eq, hvalues]

/-! ## Decisions -/

section

variable (py : Platform) (settings : AuthSettings) (now : ℤ)

/-- The decision of `KeycloakUILocalAPIAuthenticator`. -/
def decision (request : Request) : Except Raised (Option Principal) :=
  authenticate py settings now .keycloakUiLocalApi request

/-- The static token of the API is among the Authorization headers. -/
def TokenSupplied (request : Request) : Prop :=
  ∃ value ∈ values request "authorization", ∃ token,
    bearerValue (latin1 value) = some token ∧ settings.authApiToken = some token

/-- A page reads the session cookie. -/
theorem decision_page {request : Request} (hpage : isUiPage request = true) :
    decision py settings now request = cookiePrincipal py settings now request := by
  rw [decision, authenticate]
  exact if_pos hpage

/-- Elsewhere an Authorization header with a value is all that is read. -/
theorem decision_authorization {request : Request} (hpage : isUiPage request = false)
    (hvalue : header request "authorization" ≠ []) :
    decision py settings now request
      = if validStaticBearerToken (header request "authorization") settings then .ok (some localApiPrincipal)
        else .ok none := by
  rw [decision, authenticate]
  show (if isUiPage request = true then _ else _) = _
  rw [if_neg (Bool.eq_false_iff.mp hpage), if_pos hvalue]

/-- Without one the session cookie is. -/
theorem decision_cookie {request : Request} (hpage : isUiPage request = false)
    (hvalue : header request "authorization" = []) :
    decision py settings now request = cookiePrincipal py settings now request := by
  rw [decision, authenticate]
  show (if isUiPage request = true then _ else _) = _
  rw [if_neg (Bool.eq_false_iff.mp hpage), if_neg (not_not.mpr hvalue)]

theorem cookiePrincipal_congr {request request' : Request}
    (h : header request "cookie" = header request' "cookie") :
    cookiePrincipal py settings now request = cookiePrincipal py settings now request' := by
  rw [cookiePrincipal, cookiePrincipal, sessionCookie, sessionCookie, h]

/-- What a valid static token is. -/
theorem token_of_valid {settings : AuthSettings} {authorization : Text}
    (h : validStaticBearerToken authorization settings = true) :
    ∃ token, bearerValue authorization = some token ∧ settings.authApiToken = some token := by
  rw [validStaticBearerToken] at h
  split at h
  · rename_i expected token hexpected htoken
    rw [Bool.and_eq_true] at h
    rw [Utf8.encode_injective (eq_of_beq h.2)] at htoken
    exact ⟨expected, htoken, hexpected⟩
  · cases h

/-- Where an Authorization header has a value, the cookies decide nothing and only the static token is
accepted; on a page, the Authorization headers decide nothing. -/
structure CredentialsApart (request : Request) : Prop where
  cookies_ignored : isUiPage request = false → (∃ value ∈ values request "authorization", value ≠ []) →
    ∀ request₁ request₂, SameBut "cookie" request request₁ → SameBut "cookie" request request₂ →
      decision py settings now request₁ = decision py settings now request₂
  token_only : isUiPage request = false → (∃ value ∈ values request "authorization", value ≠ []) →
    ∀ p, decision py settings now request = .ok (some p) → TokenSupplied settings request
  authorization_ignored : isUiPage request = true →
    ∀ request₁ request₂, SameBut "authorization" request request₁ →
      SameBut "authorization" request request₂ →
      decision py settings now request₁ = decision py settings now request₂

theorem ascii_cookie_ne : ascii "cookie" ≠ ascii "authorization" := by decide

variable {py settings now}

/-- The header that counts, when it is not empty. -/
theorem header_ne_nil {request : Request} (hsome : ∃ value ∈ values request "authorization", value ≠ [])
    (hlast : (values request "authorization").getLast? ≠ some []) :
    header request "authorization" ≠ [] := by
  obtain ⟨value, hvalue, -⟩ := hsome
  rcases h : (values request "authorization").getLast? with _ | last
  · rw [List.getLast?_eq_none_iff.mp h] at hvalue
    exact absurd hvalue List.not_mem_nil
  · rw [header_eq, h]
    intro hnil
    exact hlast (h.trans (congrArg some (List.map_eq_nil_iff.mp hnil)))

/-- A page is decided the same for any Authorization headers. -/
theorem decision_page_same {request request' : Request} (hpage : isUiPage request = true)
    (h : SameBut "authorization" request request') :
    decision py settings now request = decision py settings now request' := by
  rw [decision_page py settings now hpage, decision_page py settings now (h.isUiPage_eq ▸ hpage)]
  exact cookiePrincipal_congr py settings now (h.header_eq ascii_cookie_ne)

/-- With an Authorization header that counts, any cookies are decided the same. -/
theorem decision_authorization_same {request request' : Request} (hpage : isUiPage request = false)
    (hvalue : header request "authorization" ≠ []) (h : SameBut "cookie" request request') :
    decision py settings now request = decision py settings now request' := by
  have hheader := h.header_eq ascii_cookie_ne.symm
  rw [decision_authorization py settings now hpage hvalue,
    decision_authorization py settings now (h.isUiPage_eq ▸ hpage) (hheader ▸ hvalue), hheader]

theorem tokenSupplied_of_decision {request : Request} (hpage : isUiPage request = false)
    (hvalue : header request "authorization" ≠ []) {p : Principal}
    (h : decision py settings now request = .ok (some p)) : TokenSupplied settings request := by
  rw [decision_authorization py settings now hpage hvalue] at h
  split_ifs at h with hvalid
  · rw [header_eq] at hvalid hvalue
    rcases hlast : (values request "authorization").getLast? with _ | value
    · rw [hlast] at hvalue
      exact absurd rfl hvalue
    · rw [hlast] at hvalid
      exact ⟨value, List.mem_of_getLast? hlast, token_of_valid hvalid⟩
  · cases h

/-- A session cookie whose signature is not ASCII. -/
def brokenCookie : Bytes := ascii "test_runner_session=." ++ [0xFF]

/-- Such a cookie makes the authenticator raise. -/
theorem cookiePrincipal_broken {secret : Text} (hsecret : settings.authSessionSecret = some secret)
    {request : Request} (hcookie : header request "cookie" = latin1 brokenCookie) :
    cookiePrincipal py settings now request = .error .typeError := by
  have hsession : sessionCookie request = some [Char.ofNat 46, Char.ofNat 0xFF] := by
    rw [sessionCookie, hcookie]
    decide +kernel
  have hs : signature py settings [] = .ok (py.hexdigest (Utf8.encode secret) (Utf8.encode [])) := by
    rw [signature, hsecret]
    rfl
  have hcompare (expected : Str) : compareDigest [0xFF] expected = .error .typeError := by
    rw [compareDigest, if_neg]
    simp
  have hpart : partition 46 ([46, 0xFF] : Str) = ([], true, [0xFF]) := rfl
  have hdecode : decodeSigned py settings now (some [46, 0xFF]) settings.authSessionTtlSeconds
      = .error .typeError := by
    simp only [decodeSigned, hpart, hs, hcompare, bind, Except.bind]
  rw [cookiePrincipal, hsession]
  show decodeSession py settings now [46, 0xFF] = _
  rw [decodeSession, hdecode]
  rfl

theorem cookiePrincipal_none {request : Request} (hcookie : header request "cookie" = []) :
    cookiePrincipal py settings now request = .ok none := by
  have hsession : sessionCookie request = none := by
    rw [sessionCookie, hcookie]
    rfl
  rw [cookiePrincipal, hsession]

/-- **Two credentials in one mode.**  They are kept apart for a request if and only if, away from the
pages, an empty Authorization header does not come last among headers of which one has a value. -/
theorem credentials_apart_iff (py : Platform) (settings : AuthSettings) (now : ℤ)
    (hmode : settings.authMode = .keycloakUiLocalApi) (request : Request) :
    CredentialsApart py settings now request ↔
      (isUiPage request = false → (∃ value ∈ values request "authorization", value ≠ []) →
        (values request "authorization").getLast? ≠ some []) := by
  constructor
  · intro h hpage hsome hlast
    obtain ⟨secret, hsecret⟩ : ∃ secret, settings.authSessionSecret = some secret := by
      have hset := settings.secret_set (by rw [hmode]; decide)
      rcases hs : settings.authSessionSecret with _ | secret
      · rw [hs] at hset
        cases hset
      · exact ⟨secret, rfl⟩
    -- with the last header empty the cookie decides: no cookie and a broken one are told apart
    have hnone := sameBut_withHeaders request "cookie" []
    have hbroken := sameBut_withHeaders request "cookie" [brokenCookie]
    have hempty : header request "authorization" = [] := by
      rw [header_eq, hlast]
      rfl
    have heq := h.cookies_ignored hpage hsome _ _ hnone hbroken
    rw [decision_cookie py settings now (hnone.isUiPage_eq ▸ hpage)
        (hnone.header_eq ascii_cookie_ne.symm ▸ hempty),
      decision_cookie py settings now (hbroken.isUiPage_eq ▸ hpage)
        (hbroken.header_eq ascii_cookie_ne.symm ▸ hempty),
      cookiePrincipal_none (header_withHeaders request "cookie" []),
      cookiePrincipal_broken hsecret (header_withHeaders request "cookie" [brokenCookie])] at heq
    cases heq
  · intro h
    refine ⟨?_, ?_, ?_⟩
    · intro hpage hsome request₁ request₂ h₁ h₂
      have hvalue := header_ne_nil hsome (h hpage hsome)
      exact (decision_authorization_same hpage hvalue h₁).symm.trans
        (decision_authorization_same hpage hvalue h₂)
    · intro hpage hsome p hp
      exact tokenSupplied_of_decision hpage (header_ne_nil hsome (h hpage hsome)) hp
    · intro hpage request₁ request₂ h₁ h₂
      exact (decision_page_same hpage h₁).symm.trans (decision_page_same hpage h₂)

end

/-- The settings of the hybrid mode. -/
def hybridSettings : AuthSettings :=
  { localSettings with
    authMode := .keycloakUiLocalApi
    authApiToken := some "ci-api-token".toList
    oidcClientId := some "hardware-test-runner".toList
    secret_set := fun _ => by decide
    client_set := fun _ => by decide
    token_unset := by decide
    token_set := fun _ => by decide }

/-- The session of `bob` at the identity provider. -/
def bobSession : String :=
  "eyJleHBpcmVzX2F0IjoxNzAwMDAzNjAwLCJpYXQiOjE3MDAwMDAwMDAsIm1ldGhvZCI6Im9pZGNfc2Vzc2lvbiIsInJvbGVzIjpb"
    ++ "ImhhcmR3YXJlLXRlc3QtcnVubmVyLnZpZXdlciJdLCJzdWJqZWN0IjoiYjBiIiwidXNlcm5hbWUiOiJib2IifQ.7dc11d64f16"
    ++ "c29222f68f0343d8ffb55c6f45f48fb8475232fb7b29383e33ada"

/-- The platform on `bobSession`. -/
def bobPlatform : Platform :=
  { alicePlatform with
    hexdigest := fun _ _ => codes "7dc11d64f16c29222f68f0343d8ffb55c6f45f48fb8475232fb7b29383e33ada"
    digest_ascii := fun _ _ => by decide }

/-- A request for the current state with a wrong token, and perhaps other headers after it. -/
def wrongToken (more : List (Bytes × Bytes)) : Request where
  path := codes "/v1/current"
  method := codes "GET"
  headers := (ascii "authorization", ascii "Bearer wrong") :: more

/-- **An empty header hides a wrong token.**  After a second, empty Authorization header the session
cookie of `bob` is accepted, although a token was supplied that is not the static one. -/
theorem empty_header_admits_cookie :
    decision bobPlatform hybridSettings 1700000060
        (wrongToken [(ascii "authorization", []), (ascii "cookie", ascii ("test_runner_session=" ++ bobSession))])
      = .ok (some ⟨codes "b0b", some (codes "bob"), [codes "hardware-test-runner.viewer"],
          codes "oidc_session", some 1700003600⟩) ∧
    decision bobPlatform hybridSettings 1700000060 (wrongToken [(ascii "authorization", [])]) = .ok none ∧
    ¬CredentialsApart bobPlatform hybridSettings 1700000060 (wrongToken [(ascii "authorization", [])]) := by
  have hcookie : decision bobPlatform hybridSettings 1700000060
      (wrongToken [(ascii "authorization", []), (ascii "cookie", ascii ("test_runner_session=" ++ bobSession))])
      = .ok (some ⟨codes "b0b", some (codes "bob"), [codes "hardware-test-runner.viewer"],
          codes "oidc_session", some 1700003600⟩) := by decide +kernel
  have hnone : decision bobPlatform hybridSettings 1700000060 (wrongToken [(ascii "authorization", [])])
      = .ok none := by decide +kernel
  refine ⟨hcookie, hnone, fun h => ?_⟩
  have hsame : SameBut "cookie" (wrongToken [(ascii "authorization", [])])
      (wrongToken [(ascii "authorization", []), (ascii "cookie", ascii ("test_runner_session=" ++ bobSession))]) :=
    ⟨rfl, rfl, by decide⟩
  have heq := h.cookies_ignored (by decide) ⟨ascii "Bearer wrong", by decide, by decide⟩ _ _
    ⟨rfl, rfl, rfl⟩ hsame
  rw [hnone, hcookie] at heq
  cases heq

/-- With one Authorization header the credentials are apart. -/
theorem credentials_apart_iff_sample :
    CredentialsApart bobPlatform hybridSettings 1700000060
      (wrongToken [(ascii "cookie", ascii "test_runner_session=x")]) :=
  (credentials_apart_iff bobPlatform hybridSettings 1700000060 rfl _).mpr fun _ _ => by decide

end HardwareTest.Auth
