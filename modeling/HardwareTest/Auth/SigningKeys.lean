import Mathlib.Data.NNRat.Defs
import Mathlib.Tactic.Linarith
import HardwareTest.Auth.Handlers
import HardwareTest.Lib.Coroutine
import HardwareTest.Lib.Transition

/-!
# The signing keys of the identity provider

`OidcClient._key` looks a key up in the cached JWKS document, fetches the document when there is none or
it has expired, and fetches it once more when the key is not in it.  The verifications of one client run
on one event loop and share its cache, so a `SharedClient` is the client with the verifications under way:
each runs from one fetch to the next, and the answers come in any order.

* `key` — `_key` as a program; `Phase` — where it waits;
* `resume_key`, `resume_discovery`, `resume_jwks` — what one stretch of it does;
* `step` — a verification begins, a fetch is answered, or time passes;
* `signing_keys_fresh` — what holds of every verification in every run.
-/

namespace HardwareTest.Auth.Oidc

open HardwareTest.Lib HardwareTest.Lib.Json HardwareTest.Python

/-- An object of JSON. -/
abbrev Dict := List (Str × JsonValue)

/-! ## The client -/

/-- The settings of the client, with what the validators establish where it is created. -/
structure OidcSettings where
  oidcIssuer : Option Str
  oidcJwksCacheSeconds : ℕ
  issuer_set : oidcIssuer ≠ none
  cache_pos : 0 < oidcJwksCacheSeconds

structure OidcEndpoints where
  authorization : Str
  token : Str
  jwks : Str
  endSession : Option Str

/-- What a method of the client raises; `E` are the exceptions of the libraries that it does not
handle. -/
inductive OidcRaised (E : Type)
  | oidcError (message : String)
  | attributeError
  | other (e : E)

/-- The two calls of `get_json`. -/
inductive Purpose
  | discovery
  | jwks
  deriving DecidableEq

/-- What a verification asks of the clock, of the fields of the client, and of the provider. -/
inductive OidcOp
  | monotonic
  | endpoints
  | setEndpoints (endpoints : OidcEndpoints)
  | jwks
  | setJwks (jwks : Dict)
  | jwksLoadedAt
  | setJwksLoadedAt (time : ℚ)
  | getJson (purpose : Purpose) (url : Str)

section Client

variable {E K : Type}

abbrev OidcOp.Answer (E : Type) : OidcOp → Type
  | .monotonic => ℚ
  | .endpoints => Option OidcEndpoints
  | .setEndpoints _ => Unit
  | .jwks => Option Dict
  | .setJwks _ => Unit
  | .jwksLoadedAt => ℚ
  | .setJwksLoadedAt _ => Unit
  | .getJson _ _ => Except (OidcRaised E) Dict

abbrev OidcWork (E α : Type) := Program OidcOp (OidcOp.Answer E) (OidcRaised E) α

/-- `await self._http.get_json(url)`. -/
def getJson (purpose : Purpose) (url : Str) : OidcWork E Dict := .call (.getJson purpose url) .ofExcept

variable (settings : OidcSettings)

/-- `_issuer`. -/
def issuer : Except (OidcRaised E) Str :=
  match settings.oidcIssuer with
  | none => .error (.oidcError "OIDC settings were not validated")
  | some issuer => .ok (issuer.reverse.dropWhile (· == '/'.toNat)).reverse

/-- `_optional_url`. -/
def optionalUrl (document : Dict) (name : String) : Except (OidcRaised E) (Option Str) :=
  match Python.get document (codes name) with
  | none | some .null => .ok none
  | some (.str value) =>
    if codes "https://" <+: value then .ok (some value)
    else .error (.oidcError ("OIDC discovery contains an invalid " ++ name))
  | some _ => .error (.oidcError ("OIDC discovery contains an invalid " ++ name))

/-- `_required_url`. -/
def requiredUrl (document : Dict) (name : String) : Except (OidcRaised E) Str := do
  match ← optionalUrl document name with
  | none => .error (.oidcError ("OIDC discovery is missing " ++ name))
  | some value => .ok value

/-- The endpoints of a discovery document of the configured issuer. -/
def discovered (document : Dict) : Except (OidcRaised E) OidcEndpoints := do
  let expected ← issuer settings
  match Python.get document (codes "issuer") with
  | some (.str issuer) =>
    if issuer = expected then
      return {
        authorization := ← requiredUrl document "authorization_endpoint"
        token := ← requiredUrl document "token_endpoint"
        jwks := ← requiredUrl document "jwks_uri"
        endSession := ← optionalUrl document "end_session_endpoint" }
    else .error (.oidcError "the discovery issuer does not match the configured issuer")
  | _ => .error (.oidcError "the discovery issuer does not match the configured issuer")

/-- The part of `_get_endpoints` after its fetch. -/
def storeEndpoints (document : Dict) : OidcWork E OidcEndpoints := do
  let endpoints ← Program.ofExcept (discovered settings document)
  .call (.setEndpoints endpoints) fun _ => .pure endpoints

/-- The URL of the discovery document. -/
def discoveryUrl : Except (OidcRaised E) Str := do
  return (← issuer settings) ++ codes "/.well-known/openid-configuration"

/-- `_get_endpoints`. -/
def getEndpoints : OidcWork E OidcEndpoints :=
  .call .endpoints fun
    | some endpoints => .pure endpoints
    | none => Program.ofExcept (discoveryUrl settings) >>= fun url =>
      getJson .discovery url >>= storeEndpoints settings

/-- The part of `_get_jwks` after its fetch, for which the clock was read at `now`. -/
def storeJwks (now : ℚ) (document : Dict) : OidcWork E (Option Dict) :=
  .call (.setJwks document) fun _ => .call (.setJwksLoadedAt now) fun _ => .call .jwks .pure

/-- The part of `_get_jwks` that loads the document. -/
def loadJwks (now : ℚ) : OidcWork E (Option Dict) :=
  getEndpoints settings >>= fun endpoints => getJson .jwks endpoints.jwks >>= storeJwks now

/-- Whether a document loaded at `loadedAt` is loaded again. -/
def expired (now loadedAt : ℚ) : Bool := decide (now - loadedAt ≥ settings.oidcJwksCacheSeconds)

/-- `_get_jwks`. -/
def getJwks (force : Bool) : OidcWork E (Option Dict) :=
  .call .monotonic fun now => .call .jwks fun jwks => .call .jwksLoadedAt fun loadedAt =>
    if force || jwks.isNone || expired settings now loadedAt then loadJwks settings now
    else .call .jwks .pure

/-- `_find_key`. -/
def findKey (jwks : Dict) (kid : Str) : Option Dict :=
  match Python.get jwks (codes "keys") with
  | some (.list keys) => keys.findSome? fun
    | .dict key =>
      match Python.get key (codes "kid") with
      | some (.str s) => if s = kid then some key else none
      | _ => none
    | _ => none
  | _ => none

/-- `_find_key` of `self._jwks`: `None` has no `get`. -/
def findCached (jwks : Option Dict) (kid : Str) : OidcWork E (Option Dict) :=
  match jwks with
  | none => .throw .attributeError
  | some jwks => .pure (findKey jwks kid)

/-- `PyJWK.from_dict(key, algorithm="RS256")` of the library raises a `PyJWTError` (`none`) or another
exception. -/
abbrev FromDict (E K : Type) := Dict → Except (Option E) K

/-- The end of `_key`: the entry as a key. -/
def signingKey (fromDict : FromDict E K) (key : Option Dict) : Except (OidcRaised E) K :=
  match key with
  | none => .error (.oidcError "the token signing key is unknown")
  | some key =>
    match fromDict key with
    | .ok key => .ok key
    | .error none => .error (.oidcError "the token signing key is invalid")
    | .error (some e) => .error (.other e)

/-- The part of `_key` after one look at the document. -/
def lookUp (fromDict : FromDict E K) (kid : Str) (again : OidcWork E K) (jwks : Option Dict) :
    OidcWork E K := do
  match ← findCached jwks kid with
  | some key => .ofExcept (signingKey fromDict (some key))
  | none => again

/-- The part of `_key` after the forced refresh. -/
def lookUpAgain (fromDict : FromDict E K) (kid : Str) (jwks : Option Dict) : OidcWork E K :=
  lookUp fromDict kid (.ofExcept (signingKey fromDict none)) jwks

/-- `_key`. -/
def key (fromDict : FromDict E K) (kid : Str) : OidcWork E K :=
  getJwks settings false >>=
    lookUp fromDict kid (getJwks settings true >>= lookUpAgain fromDict kid)

end Client

/-! ## The verifications of one client -/

/-- The client with the clock; `readings` counts how often the clock was read. -/
structure Client where
  clock : ℚ
  readings : ℕ
  endpoints : Option OidcEndpoints
  jwks : Option Dict
  jwksLoadedAt : ℚ

/-- A new client. -/
def Client.fresh (clock : ℚ) : Client := ⟨clock, 0, none, none, 0⟩

/-- What is cached is the same. -/
structure Client.SameCache (c d : Client) : Prop where
  endpoints : d.endpoints = c.endpoints
  jwks : d.jwks = c.jwks
  jwksLoadedAt : d.jwksLoadedAt = c.jwksLoadedAt

/-- The clock is read `delay` later than the last thing that happened. -/
def Client.read (delay : ℕ → ℚ≥0) (c : Client) : Client :=
  { c with clock := c.clock + delay c.readings, readings := c.readings + 1 }

/-- The answers that a verification does not wait for. -/
def handle (E : Type) (delay : ℕ → ℚ≥0) : (op : OidcOp) → Client → Option (op.Answer E × Client)
  | .monotonic, c => some ((c.read delay).clock, c.read delay)
  | .endpoints, c => some (c.endpoints, c)
  | .setEndpoints endpoints, c => some ((), { c with endpoints := some endpoints })
  | .jwks, c => some (c.jwks, c)
  | .setJwks jwks, c => some ((), { c with jwks := some jwks })
  | .jwksLoadedAt, c => some (c.jwksLoadedAt, c)
  | .setJwksLoadedAt time, c => some ((), { c with jwksLoadedAt := time })
  | .getJson _ _, _ => none

/-- The cached document, when it has not expired at the next reading of the clock. -/
def Client.unexpired (settings : OidcSettings) (delay : ℕ → ℚ≥0) (c : Client) : Option Dict :=
  c.jwks.filter fun _ => !expired settings (c.read delay).clock c.jwksLoadedAt

abbrev Stretch (E K : Type) := Program.Outcome OidcOp (OidcOp.Answer E) (OidcRaised E) K

/-- A fetch that was answered. -/
structure Fetch (E : Type) where
  purpose : Purpose
  began : ℚ
  answer : Except (OidcRaised E) Dict

/-- A call of `_key`: the unexpired document cached when it began, its answered fetches, and how its
last stretch ended and when. -/
structure Verification (E K : Type) where
  kid : Str
  cached : Option Dict
  fetches : List (Fetch E)
  outcome : Stretch E K
  time : ℚ

/-- The client, the JWKS documents that it was served with the times at which their fetches began, and
the verifications. -/
structure SharedClient (E K : Type) where
  client : Client
  documents : List (ℚ × Dict)
  calls : List (Verification E K)

/-- Time passes, a verification begins, the fetch of one is answered, or another request of the client
has stored the endpoints. -/
inductive OidcEvent (E : Type)
  | tick (time : ℚ≥0)
  | call (kid : Str)
  | answer (i : ℕ) (r : Except (OidcRaised E) Dict)
  | endpoints (endpoints : OidcEndpoints)

section Steps

variable {E K : Type} (settings : OidcSettings) (fromDict : FromDict E K) (delay : ℕ → ℚ≥0)

/-- The verifications before the first one. -/
def SharedClient.fresh (E K : Type) (clock : ℚ) : SharedClient E K := ⟨.fresh clock, [], []⟩

/-- A verification up to its first fetch. -/
def SharedClient.begin (s : SharedClient E K) (kid : Str) : SharedClient E K :=
  let (outcome, client) := (key settings fromDict kid).resume (handle E delay) s.client
  { s with
    client := client
    calls := s.calls ++ [{
      kid := kid
      cached := s.client.unexpired settings delay
      fetches := []
      outcome := outcome
      time := client.clock }] }

/-- The documents with the answer to one more fetch. -/
def served (documents : List (ℚ × Dict)) (fetch : Fetch E) : List (ℚ × Dict) :=
  match fetch.purpose, fetch.answer with
  | .jwks, .ok document => documents ++ [(fetch.began, document)]
  | _, _ => documents

/-- A verification whose fetch is answered, up to its next fetch. -/
def SharedClient.answered (s : SharedClient E K) (i : ℕ) (v : Verification E K) (r : Except (OidcRaised E) Dict) :
    Option (SharedClient E K) :=
  match v.outcome with
  | .suspended (.getJson purpose _) k =>
    let (outcome, client) := (k r).resume (handle E delay) s.client
    let fetch : Fetch E := ⟨purpose, v.time, r⟩
    some {
      client := client
      documents := served s.documents fetch
      calls := s.calls.set i { v with
        fetches := v.fetches ++ [fetch]
        outcome := outcome
        time := client.clock } }
  | _ => none

/-- One event, when it can happen. -/
def SharedClient.step (s : SharedClient E K) : OidcEvent E → Option (SharedClient E K)
  | .tick time => some { s with client := { s.client with clock := s.client.clock + time } }
  | .call kid => some (s.begin settings fromDict delay kid)
  | .answer i r => s.calls[i]?.bind fun v => s.answered delay i v r
  | .endpoints endpoints => some { s with client := { s.client with endpoints := some endpoints } }

end Steps

/-! ## The stretches of a verification -/

/-- Where a verification waits: for the discovery document or for the JWKS document, before (`force`
false) or in the forced refresh, for which the clock was read at `now`. -/
inductive Phase
  | discovery (force : Bool) (now : ℚ) (url : Str)
  | jwks (force : Bool) (now : ℚ) (endpoints : OidcEndpoints)

namespace Phase

def force : Phase → Bool
  | .discovery force _ _ => force
  | .jwks force _ _ => force

def now : Phase → ℚ
  | .discovery _ now _ => now
  | .jwks _ now _ => now

def purpose : Phase → Purpose
  | .discovery _ _ _ => .discovery
  | .jwks _ _ _ => .jwks

end Phase

section Stretches

variable {E K : Type} {settings : OidcSettings} {fromDict : FromDict E K} {delay : ℕ → ℚ≥0} {kid : Str}

/-- What `_key` does with the document of `_get_jwks`. -/
def afterJwks (settings : OidcSettings) (fromDict : FromDict E K) (kid : Str) :
    Bool → Option Dict → OidcWork E K
  | false => lookUp fromDict kid (getJwks settings true >>= lookUpAgain fromDict kid)
  | true => lookUpAgain fromDict kid

/-- A verification that waits in a phase. -/
def Phase.suspended (settings : OidcSettings) (fromDict : FromDict E K) (kid : Str) : Phase → Stretch E K
  | .discovery force now url => .suspended (.getJson .discovery url) fun r =>
    ((.ofExcept r >>= storeEndpoints settings) >>= fun endpoints =>
      getJson .jwks endpoints.jwks >>= storeJwks now) >>= afterJwks settings fromDict kid force
  | .jwks force now endpoints => .suspended (.getJson .jwks endpoints.jwks) fun r =>
    (.ofExcept r >>= storeJwks now) >>= afterJwks settings fromDict kid force

variable (settings fromDict delay kid)

/-- **Loading** waits for the provider at once, with or without cached endpoints. -/
theorem resume_loadJwks (force : Bool) (now : ℚ) (c : Client) :
    ∃ phase : Phase, phase.force = force ∧ phase.now = now ∧
      (loadJwks settings now >>= afterJwks settings fromDict kid force).resume (handle E delay) c
        = (phase.suspended settings fromDict kid, c) := by
  cases hendpoints : c.endpoints with
  | some endpoints =>
    refine ⟨.jwks force now endpoints, rfl, rfl, ?_⟩
    show (Program.call OidcOp.endpoints _).resume (handle E delay) c = _
    rw [Program.resume_call (show handle E delay .endpoints c = some (some endpoints, c) by
      rw [handle, hendpoints])]
    rfl
  | none =>
    obtain ⟨url, hurl⟩ : ∃ url, discoveryUrl settings = (.ok url : Except (OidcRaised E) Str) := by
      cases hissuer : settings.oidcIssuer with
      | none => exact absurd hissuer settings.issuer_set
      | some value =>
        refine ⟨(value.reverse.dropWhile (· == '/'.toNat)).reverse
          ++ codes "/.well-known/openid-configuration", ?_⟩
        simp only [discoveryUrl, issuer, hissuer]
        rfl
    refine ⟨.discovery force now url, rfl, rfl, ?_⟩
    show (Program.call OidcOp.endpoints _).resume (handle E delay) c = _
    rw [Program.resume_call (show handle E delay .endpoints c = some (none, c) by
      rw [handle, hendpoints])]
    show (Program.bind (Program.bind (Program.bind (.ofExcept (discoveryUrl settings)) _) _) _).resume _ c = _
    rw [hurl]
    rfl

/-- The first stretch ends with the cached document, or waits for the provider when there is none that
has not expired. -/
theorem resume_key (c : Client) :
    (∃ document, c.unexpired settings delay = some document ∧
        (key settings fromDict kid).resume (handle E delay) c
          = (afterJwks settings fromDict kid false (some document)).resume (handle E delay) (c.read delay)) ∨
      (c.unexpired settings delay = none ∧ ∃ phase : Phase, phase.force = false ∧
        phase.now = (c.read delay).clock ∧
        (key settings fromDict kid).resume (handle E delay) c
          = (phase.suspended settings fromDict kid, c.read delay)) := by
  have hstart : (key settings fromDict kid).resume (handle E delay) c
      = ((if (c.jwks.isNone || expired settings (c.read delay).clock c.jwksLoadedAt) = true
          then loadJwks settings (c.read delay).clock
          else .call .jwks .pure) >>= afterJwks settings fromDict kid false).resume (handle E delay)
        (c.read delay) := rfl
  obtain ⟨phase, hforce, hnow, hload⟩ := resume_loadJwks settings fromDict delay kid false
    (c.read delay).clock (c.read delay)
  rw [hstart]
  cases hjwks : c.jwks with
  | none => exact .inr ⟨by rw [Client.unexpired, hjwks]; rfl, phase, hforce, hnow, hload⟩
  | some document =>
    cases hexpired : expired settings (c.read delay).clock c.jwksLoadedAt with
    | true =>
      have hunexpired : c.unexpired settings delay = none := by
        simp [Client.unexpired, hjwks, hexpired]
      exact .inr ⟨hunexpired, phase, hforce, hnow, hload⟩
    | false =>
      have hunexpired : c.unexpired settings delay = some document := by
        simp [Client.unexpired, hjwks, hexpired]
      have hcached : (c.read delay).jwks = some document := hjwks
      refine .inl ⟨document, hunexpired, ?_⟩
      show (Program.call OidcOp.jwks _).resume (handle E delay) (c.read delay) = _
      rw [Program.resume_call (show handle E delay .jwks (c.read delay) = some (some document, c.read delay) by
        rw [handle, hcached])]
      rfl

/-- The document is looked at once; without the key it is loaded again, unless it was before. -/
theorem resume_afterJwks (force : Bool) (document : Dict) (c : Client) :
    (∃ entry, findKey document kid = some entry ∧
        (afterJwks settings fromDict kid force (some document)).resume (handle E delay) c
          = (.finished (signingKey fromDict (some entry)), c)) ∨
      (findKey document kid = none ∧ force = true ∧
        (afterJwks settings fromDict kid force (some document)).resume (handle E delay) c
          = (.finished (signingKey fromDict none), c)) ∨
      (findKey document kid = none ∧ force = false ∧ ∃ phase : Phase, phase.force = true ∧
        phase.now = (c.read delay).clock ∧
        (afterJwks settings fromDict kid force (some document)).resume (handle E delay) c
          = (phase.suspended settings fromDict kid, c.read delay)) := by
  have hlook : ∀ again : OidcWork E K, lookUp fromDict kid again (some document)
      = match findKey document kid with
        | some entry => .ofExcept (signingKey fromDict (some entry))
        | none => again := fun _ => rfl
  cases hfind : findKey document kid with
  | some entry =>
    refine .inl ⟨entry, rfl, ?_⟩
    rw [← Program.resume_ofExcept (handle E delay)]
    cases force <;> simp only [afterJwks, lookUpAgain, hlook, hfind]
  | none =>
    cases force with
    | true =>
      refine .inr (.inl ⟨rfl, rfl, ?_⟩)
      rw [← Program.resume_ofExcept (handle E delay)]
      simp only [afterJwks, lookUpAgain, hlook, hfind]
    | false =>
      obtain ⟨phase, hforce, hnow, hload⟩ := resume_loadJwks settings fromDict delay kid true
        (c.read delay).clock (c.read delay)
      refine .inr (.inr ⟨rfl, rfl, phase, hforce, hnow, ?_⟩)
      simp only [afterJwks, hlook, hfind]
      exact hload

/-- The answer to the discovery fetch: the endpoints are stored, or nothing is. -/
theorem resume_discovery (force : Bool) (now : ℚ) (r : Except (OidcRaised E) Dict) (c : Client) :
    (((Program.ofExcept r >>= storeEndpoints settings) >>= fun endpoints =>
        getJson .jwks endpoints.jwks >>= storeJwks now) >>= afterJwks settings fromDict kid force).resume
        (handle E delay) c
      = match r.bind (discovered settings) with
        | .error e => (.finished (.error e), c)
        | .ok endpoints => ((Phase.jwks force now endpoints).suspended settings fromDict kid,
            { c with endpoints := some endpoints }) := by
  cases r with
  | error e => rfl
  | ok document =>
    have hbind : (Except.ok document).bind (discovered settings)
        = (discovered settings document : Except (OidcRaised E) OidcEndpoints) := rfl
    show (Program.bind (Program.bind (Program.bind (Program.ofExcept (discovered settings document)) _) _)
      _).resume _ c = _
    rw [hbind]
    cases (discovered settings document : Except (OidcRaised E) OidcEndpoints) <;> rfl

/-- The answer to the JWKS fetch: document and time are stored, or nothing is. -/
theorem resume_jwks (force : Bool) (now : ℚ) (r : Except (OidcRaised E) Dict) (c : Client) :
    ((Program.ofExcept r >>= storeJwks now) >>= afterJwks settings fromDict kid force).resume
        (handle E delay) c
      = match r with
        | .error e => (.finished (.error e), c)
        | .ok document => (afterJwks settings fromDict kid force (some document)).resume (handle E delay)
            { c with jwks := some document, jwksLoadedAt := now } := by
  cases r <;> rfl

end Stretches

/-! ## What every step keeps -/

section Invariant

variable {E K : Type} {settings : OidcSettings} {fromDict : FromDict E K} {delay : ℕ → ℚ≥0}
  {documents : List (ℚ × Dict)} {v : Verification E K}

/-- The fetch gave what it was made for. -/
def Fetch.Succeeded (settings : OidcSettings) (fetch : Fetch E) : Prop :=
  ∃ document, fetch.answer = .ok document ∧ (fetch.purpose = .discovery →
    ∃ endpoints, (discovered settings document : Except (OidcRaised E) OidcEndpoints) = .ok endpoints)

/-- The document that a JWKS fetch was served. -/
def Fetch.document (fetch : Fetch E) : Option Dict :=
  match fetch.purpose, fetch.answer with
  | .jwks, .ok document => some document
  | _, _ => none

/-- The entry stands in the document under the identifier. -/
def Listed (document : Dict) (kid : Str) (entry : Dict) : Prop :=
  ∃ keys, Python.get document (codes "keys") = some (.list keys) ∧ .dict entry ∈ keys ∧
    Python.get entry (codes "kid") = some (.str kid)

theorem listed_of_findKey {document : Dict} {kid : Str} {entry : Dict}
    (h : findKey document kid = some entry) : Listed document kid entry := by
  unfold findKey at h
  split at h
  · rename_i keys hkeys
    obtain ⟨item, hitem, hfound⟩ := List.exists_of_findSome?_eq_some h
    split at hfound
    · split at hfound
      · rename_i s hkid
        split_ifs at hfound with heq
        cases hfound
        exact ⟨keys, hkeys, hitem, by rw [hkid, heq]⟩
      · cases hfound
    · cases hfound
  · cases h

/-- The key that is taken for the identifier is a valid one. -/
def Usable (fromDict : FromDict E K) (kid : Str) (document : Dict) : Prop :=
  ∃ entry key, findKey document kid = some entry ∧ fromDict entry = .ok key

namespace Verification

/-- The JWKS fetches of a verification, answered or not. -/
def jwksFetches (v : Verification E K) : ℕ :=
  v.fetches.countP (fun fetch => fetch.purpose = .jwks) +
    match v.outcome with
    | .suspended (.getJson .jwks _) _ => 1
    | _ => 0

/-- The key is the one of an entry with the identifier in a document whose fetch began less than the cache
time before the end, or belongs to the verification. -/
structure Fresh (settings : OidcSettings) (fromDict : FromDict E K) (documents : List (ℚ × Dict))
    (v : Verification E K) (key : K) (began : ℚ) (document entry : Dict) : Prop where
  served : (began, document) ∈ documents
  listed : Listed document v.kid entry
  valid : fromDict entry = .ok key
  recent : v.time - settings.oidcJwksCacheSeconds < began ∨
    ∃ fetch ∈ v.fetches, fetch.began = began ∧ fetch.document = some document

/-- What the provider and the cache have to offer for the verification to succeed: its fetches succeed,
every document it was served has a valid key, and the cached one has no invalid one. -/
structure Offered (settings : OidcSettings) (fromDict : FromDict E K) (v : Verification E K) : Prop where
  succeeded : ∀ fetch ∈ v.fetches, fetch.Succeeded settings
  served : ∀ fetch ∈ v.fetches, ∀ document, fetch.document = some document → Usable fromDict v.kid document
  cached : ∀ document, v.cached = some document → findKey document v.kid = none ∨
    Usable fromDict v.kid document

/-- What holds of a verification that has ended. -/
structure Ended (settings : OidcSettings) (fromDict : FromDict E K) (documents : List (ℚ × Dict))
    (v : Verification E K) (r : Except (OidcRaised E) K) : Prop where
  fresh : ∀ key, r = .ok key → ∃ began document entry, v.Fresh settings fromDict documents key began document entry
  succeeds : v.Offered settings fromDict → ∃ key, r = .ok key

/-- What holds of a verification that waits in a phase. -/
structure Waits (settings : OidcSettings) (fromDict : FromDict E K) (v : Verification E K) (phase : Phase) :
    Prop where
  outcome : v.outcome = phase.suspended settings fromDict v.kid
  now : phase.now ≤ v.time
  count : v.fetches.countP (fun fetch => fetch.purpose = .jwks) ≤ if phase.force then 1 else 0

/-- What holds of every verification. -/
def Sound (settings : OidcSettings) (fromDict : FromDict E K) (documents : List (ℚ × Dict))
    (v : Verification E K) : Prop :=
  v.jwksFetches ≤ 2 ∧ ((∃ phase, v.Waits settings fromDict phase) ∨
    ∃ r, v.outcome = .finished r ∧ v.Ended settings fromDict documents r)

end Verification

/-- The cached document was served, and loaded no earlier than the stored time. -/
def Client.Dated (documents : List (ℚ × Dict)) (c : Client) : Prop :=
  ∀ document, c.jwks = some document → ∃ began, (began, document) ∈ documents ∧ c.jwksLoadedAt ≤ began

theorem signingKey_ok {entry : Dict} {key : K}
    (h : (signingKey fromDict (some entry) : Except (OidcRaised E) K) = .ok key) : fromDict entry = .ok key := by
  simp only [signingKey] at h
  split at h
  · rename_i key' hkey
    cases h
    exact hkey
  · cases h
  · cases h

theorem signingKey_of_usable {document entry : Dict} {kid : Str} (h : Usable fromDict kid document)
    (hentry : findKey document kid = some entry) :
    ∃ key, (signingKey fromDict (some entry) : Except (OidcRaised E) K) = .ok key := by
  obtain ⟨entry', key, hentry', hkey⟩ := h
  rw [hentry] at hentry'
  cases hentry'
  exact ⟨key, by simp only [signingKey, hkey]⟩

theorem not_expired {now loadedAt : ℚ} (h : expired settings now loadedAt = false) :
    now - settings.oidcJwksCacheSeconds < loadedAt := by
  have hlt : ¬(now - loadedAt ≥ settings.oidcJwksCacheSeconds) := of_decide_eq_false h
  linarith [not_le.mp hlt]

/-- A document that has not expired is the cached one, and it was loaded less than the cache time ago. -/
theorem unexpired_eq_some {c : Client} {document : Dict} (h : c.unexpired settings delay = some document) :
    c.jwks = some document ∧ (c.read delay).clock - settings.oidcJwksCacheSeconds < c.jwksLoadedAt := by
  obtain ⟨hjwks, hexpired⟩ := Option.filter_eq_some_iff.mp h
  exact ⟨hjwks, not_expired (by simpa using hexpired)⟩

theorem clock_le_read (c : Client) : c.clock ≤ (c.read delay).clock := by
  have hdelay : (0 : ℚ) ≤ delay c.readings := (delay c.readings).2
  show c.clock ≤ c.clock + delay c.readings
  linarith

theorem sameCache_read (c : Client) : c.SameCache (c.read delay) := ⟨rfl, rfl, rfl⟩

namespace Verification

theorem Waits.sound {phase : Phase} (h : v.Waits settings fromDict phase) :
    v.Sound settings fromDict documents := by
  refine ⟨?_, .inl ⟨phase, h⟩⟩
  have hcount := h.count
  have hpending : v.jwksFetches ≤ v.fetches.countP (fun fetch => fetch.purpose = .jwks) + 1 := by
    unfold jwksFetches
    split <;> omega
  split_ifs at hcount <;> omega

/-- Documents that are served later change nothing. -/
theorem Sound.served (h : v.Sound settings fromDict documents) (fetch : Fetch E) :
    v.Sound settings fromDict (served documents fetch) := by
  have hsub : ∀ pair ∈ documents, pair ∈ Oidc.served documents fetch := by
    intro pair hpair
    unfold Oidc.served
    split
    · exact List.mem_append_left _ hpair
    · exact hpair
  refine ⟨h.1, h.2.imp_right ?_⟩
  rintro ⟨r, hr, hended⟩
  refine ⟨r, hr, fun key hkey => ?_, hended.succeeds⟩
  obtain ⟨began, document, entry, hfresh⟩ := hended.fresh key hkey
  exact ⟨began, document, entry, hsub _ hfresh.served, hfresh.listed, hfresh.valid, hfresh.recent⟩

/-- A finished verification waits for no fetch. -/
theorem sound_of_ended {r : Except (OidcRaised E) K} (hr : v.outcome = .finished r)
    (hcount : v.fetches.countP (fun fetch => fetch.purpose = .jwks) ≤ 2)
    (hended : v.Ended settings fromDict documents r) : v.Sound settings fromDict documents := by
  refine ⟨?_, .inr ⟨r, hr, hended⟩⟩
  rw [jwksFetches, hr]
  exact hcount

end Verification

variable (delay)

/-- **A verification that begins.** -/
theorem begin_spec (settings : OidcSettings) (fromDict : FromDict E K) {c : Client}
    (hdated : c.Dated documents) (kid : Str) :
    ∃ outcome c', (key settings fromDict kid).resume (handle E delay) c = (outcome, c') ∧
      c.SameCache c' ∧ c.clock ≤ c'.clock ∧
      Verification.Sound settings fromDict documents
        ⟨kid, c.unexpired settings delay, [], outcome, c'.clock⟩ := by
  rcases resume_key settings fromDict delay kid c with
    ⟨document, hcached, hresume⟩ | ⟨hcached, phase, hforce, hnow, hresume⟩
  · obtain ⟨hjwks, hrecent⟩ := unexpired_eq_some hcached
    rcases resume_afterJwks settings fromDict delay kid false document (c.read delay) with
      ⟨entry, hentry, hafter⟩ | ⟨-, hforce, -⟩ | ⟨-, -, phase, hforce, hnow, hafter⟩
    · refine ⟨_, _, hresume.trans hafter, sameCache_read c, clock_le_read c, ?_⟩
      refine Verification.sound_of_ended rfl (Nat.zero_le _) ⟨fun key hkey => ?_, fun hoffered => ?_⟩
      · obtain ⟨began, hserved, hbegan⟩ := hdated document hjwks
        exact ⟨began, document, entry, hserved, listed_of_findKey hentry, signingKey_ok hkey,
          .inl (lt_of_lt_of_le hrecent hbegan)⟩
      · rcases hoffered.cached document hcached with hnone | husable
        · rw [hentry] at hnone
          cases hnone
        · exact signingKey_of_usable husable hentry
    · cases hforce
    · refine ⟨_, _, hresume.trans hafter, ⟨rfl, rfl, rfl⟩,
        (clock_le_read c).trans (clock_le_read (c.read delay)), ?_⟩
      exact Verification.Waits.sound ⟨rfl, le_of_eq hnow, Nat.zero_le _⟩
  · refine ⟨_, _, hresume, sameCache_read c, clock_le_read c, ?_⟩
    exact Verification.Waits.sound ⟨rfl, le_of_eq hnow, Nat.zero_le _⟩

/-- A fetch without success ends the verification, and nothing is stored. -/
structure Unchanged (c c' : Client) (outcome : Stretch E K) : Prop where
  same : c.SameCache c'
  raised : ∃ e, outcome = .finished (.error e)

/-- What one more stretch makes of a verification. -/
structure Goes (settings : OidcSettings) (fromDict : FromDict E K) (documents : List (ℚ × Dict))
    (v : Verification E K) (fetch : Fetch E) (c c' : Client) (outcome : Stretch E K) : Prop where
  clock : c.clock ≤ c'.clock
  dated : c'.Dated (served documents fetch)
  sound : Verification.Sound settings fromDict (served documents fetch)
    { v with fetches := v.fetches ++ [fetch], outcome := outcome, time := c'.clock }
  unchanged : ¬fetch.Succeeded settings → Unchanged c c' outcome

/-- **A fetch without success.** -/
theorem goes_of_failure {phase : Phase} {fetch : Fetch E} {c : Client} {e : OidcRaised E}
    (hv : v.Waits settings fromDict phase) (hdated : c.Dated documents)
    (hserved : served documents fetch = documents) (hfailed : ¬fetch.Succeeded settings) :
    Goes settings fromDict documents v fetch c c (.finished (.error e)) := by
  refine ⟨le_refl _, by rw [hserved]; exact hdated, ?_, fun _ => ⟨⟨rfl, rfl, rfl⟩, e, rfl⟩⟩
  refine Verification.sound_of_ended rfl ?_ ⟨nofun, fun hoffered => ?_⟩
  · have hcount := hv.count
    rw [List.countP_append]
    have hone : [fetch].countP (fun fetch => fetch.purpose = .jwks) ≤ 1 := List.countP_le_length
    split_ifs at hcount <;> omega
  · exact absurd (hoffered.succeeded fetch (List.mem_append_right _ List.mem_cons_self)) hfailed

/-- **The answer to a discovery fetch.** -/
theorem discovery_spec {force : Bool} {now : ℚ} {url : Str} {c : Client}
    (hv : v.Waits settings fromDict (.discovery force now url)) (hdated : c.Dated documents)
    (htime : v.time ≤ c.clock) (r : Except (OidcRaised E) Dict) :
    ∃ outcome c', (((Program.ofExcept r >>= storeEndpoints settings) >>= fun endpoints =>
        getJson .jwks endpoints.jwks >>= storeJwks now) >>=
          afterJwks settings fromDict v.kid force).resume (handle E delay) c = (outcome, c') ∧
      Goes settings fromDict documents v ⟨.discovery, v.time, r⟩ c c' outcome := by
  have hserved : served documents ⟨.discovery, v.time, r⟩ = documents := rfl
  have hresume := resume_discovery settings fromDict delay v.kid force now r c
  cases hr : r.bind (discovered settings) with
  | error e =>
    rw [hr] at hresume
    refine ⟨_, _, hresume, goes_of_failure hv hdated hserved ?_⟩
    rintro ⟨document, hanswer, hpurpose⟩
    obtain ⟨endpoints, hendpoints⟩ := hpurpose rfl
    have hanswer' : r = .ok document := hanswer
    rw [hanswer'] at hr
    rw [show (Except.ok document).bind (discovered settings)
      = (discovered settings document : Except (OidcRaised E) OidcEndpoints) from rfl, hendpoints] at hr
    cases hr
  | ok endpoints =>
    rw [hr] at hresume
    let next : Phase := .jwks force now endpoints
    have hwaits : Verification.Waits settings fromDict
        { v with
          fetches := v.fetches ++ [⟨.discovery, v.time, r⟩]
          outcome := next.suspended settings fromDict v.kid
          time := c.clock } next := by
      refine ⟨rfl, hv.now.trans htime, ?_⟩
      rw [List.countP_append]
      exact hv.count
    refine ⟨_, _, hresume, le_refl _, hdated, hwaits.sound, ?_⟩
    · intro hfailed
      cases r with
      | error e => cases hr
      | ok document => exact absurd ⟨document, rfl, fun _ => ⟨endpoints, hr⟩⟩ hfailed

/-- **The answer to a JWKS fetch.** -/
theorem jwks_spec {force : Bool} {now : ℚ} {endpoints : OidcEndpoints} {c : Client}
    (hv : v.Waits settings fromDict (.jwks force now endpoints)) (hdated : c.Dated documents)
    (r : Except (OidcRaised E) Dict) :
    ∃ outcome c', ((Program.ofExcept r >>= storeJwks now) >>=
        afterJwks settings fromDict v.kid force).resume (handle E delay) c = (outcome, c') ∧
      Goes settings fromDict documents v ⟨.jwks, v.time, r⟩ c c' outcome := by
  have hresume := resume_jwks settings fromDict delay v.kid force now r c
  cases r with
  | error e =>
    refine ⟨_, _, hresume, goes_of_failure hv hdated rfl ?_⟩
    rintro ⟨document, hanswer, -⟩
    cases hanswer
  | ok document =>
    let fetch : Fetch E := ⟨.jwks, v.time, .ok document⟩
    have hsucceeded : fetch.Succeeded settings := ⟨document, rfl, fun h => by cases h⟩
    have hmem : fetch ∈ v.fetches ++ [fetch] := List.mem_append_right _ List.mem_cons_self
    have hserved : (v.time, document) ∈ served documents fetch :=
      List.mem_append_right _ List.mem_cons_self
    have hcount : (v.fetches ++ [fetch]).countP (fun fetch => fetch.purpose = .jwks)
        = v.fetches.countP (fun fetch => fetch.purpose = .jwks) + 1 := by
      rw [List.countP_append]
      rfl
    have hbefore := hv.count
    let c₁ : Client := { c with jwks := some document, jwksLoadedAt := now }
    have hdated₁ : c₁.Dated (served documents fetch) := by
      intro document' hjwks
      cases hjwks
      exact ⟨v.time, hserved, hv.now⟩
    rcases resume_afterJwks settings fromDict delay v.kid force document c₁ with
      ⟨entry, hentry, hafter⟩ | ⟨hnone, hforce, hafter⟩ | ⟨hnone, hforce, phase, hforce', hnow, hafter⟩
    · refine ⟨_, _, hresume.trans hafter, le_refl _, hdated₁, ?_, fun hfailed => absurd hsucceeded hfailed⟩
      refine Verification.sound_of_ended rfl ?_ ⟨fun key hkey => ?_, fun hoffered => ?_⟩
      · show (v.fetches ++ [fetch]).countP _ ≤ 2
        split_ifs at hbefore <;> omega
      · exact ⟨v.time, document, entry, hserved, listed_of_findKey hentry, signingKey_ok hkey,
          .inr ⟨fetch, hmem, rfl, rfl⟩⟩
      · exact signingKey_of_usable (hoffered.served fetch hmem document rfl) hentry
    · refine ⟨_, _, hresume.trans hafter, le_refl _, hdated₁, ?_, fun hfailed => absurd hsucceeded hfailed⟩
      refine Verification.sound_of_ended rfl ?_ ⟨nofun, fun hoffered => ?_⟩
      · show (v.fetches ++ [fetch]).countP _ ≤ 2
        split_ifs at hbefore <;> omega
      · obtain ⟨entry, key, hentry, -⟩ := hoffered.served fetch hmem document rfl
        have hentry' : findKey document v.kid = some entry := hentry
        rw [hnone] at hentry'
        cases hentry'
    · refine ⟨_, _, hresume.trans hafter, clock_le_read c₁, hdated₁, ?_, fun hfailed => absurd hsucceeded hfailed⟩
      refine Verification.Waits.sound ⟨rfl, le_of_eq hnow, ?_⟩
      rw [hforce', if_pos rfl]
      show (v.fetches ++ [fetch]).countP _ ≤ 1
      have hnoforce : (Phase.jwks force now endpoints).force = false := hforce
      rw [hnoforce] at hbefore
      simp only [Bool.false_eq_true, if_false] at hbefore
      omega

/-- What every step keeps. -/
structure SharedClient.Sound (settings : OidcSettings) (fromDict : FromDict E K) (s : SharedClient E K) :
    Prop where
  dated : s.client.Dated s.documents
  calls : ∀ v ∈ s.calls, v.Sound settings fromDict s.documents ∧ v.time ≤ s.client.clock

variable {s s' : SharedClient E K}

/-- The answer to the fetch of a verification that waits. -/
theorem answered_spec {phase : Phase} (hv : v.Waits settings fromDict phase)
    (hdated : s.client.Dated s.documents) (htime : v.time ≤ s.client.clock) (i : ℕ)
    (r : Except (OidcRaised E) Dict) :
    ∃ outcome c', Goes settings fromDict s.documents v ⟨phase.purpose, v.time, r⟩ s.client c' outcome ∧
      s.answered delay i v r = some {
        client := c'
        documents := served s.documents ⟨phase.purpose, v.time, r⟩
        calls := s.calls.set i { v with
          fetches := v.fetches ++ [⟨phase.purpose, v.time, r⟩], outcome := outcome, time := c'.clock } } := by
  cases phase with
  | discovery force now url =>
    obtain ⟨outcome, c', hresume, hgoes⟩ := discovery_spec delay hv hdated htime r
    refine ⟨outcome, c', hgoes, ?_⟩
    rw [SharedClient.answered, hv.outcome]
    simp only [Phase.suspended]
    rw [hresume]
    rfl
  | jwks force now endpoints =>
    obtain ⟨outcome, c', hresume, hgoes⟩ := jwks_spec delay hv hdated r
    refine ⟨outcome, c', hgoes, ?_⟩
    rw [SharedClient.answered, hv.outcome]
    simp only [Phase.suspended]
    rw [hresume]
    rfl

/-- A verification that is answered was waiting. -/
theorem SharedClient.Sound.waits (hs : s.Sound settings fromDict) {i : ℕ} (hv : s.calls[i]? = some v)
    {op : OidcOp} {k : op.Answer E → OidcWork E K} (houtcome : v.outcome = .suspended op k) :
    ∃ phase, v.Waits settings fromDict phase := by
  obtain ⟨⟨-, hwaits | ⟨r, hr, -⟩⟩, -⟩ := hs.calls v (List.mem_of_getElem? hv)
  · exact hwaits
  · rw [houtcome] at hr
    cases hr

variable {delay}

theorem SharedClient.sound_step {e : OidcEvent E} (hs : s.Sound settings fromDict)
    (h : s.step settings fromDict delay e = some s') : s'.Sound settings fromDict := by
  cases e with
  | tick time =>
    cases h
    refine ⟨hs.dated, fun v hv => ⟨(hs.calls v hv).1, (hs.calls v hv).2.trans ?_⟩⟩
    have htime : (0 : ℚ) ≤ time := time.2
    show s.client.clock ≤ s.client.clock + time
    linarith
  | endpoints endpoints =>
    cases h
    exact ⟨hs.dated, hs.calls⟩
  | call kid =>
    cases h
    obtain ⟨outcome, c', hresume, hsame, hclock, hsound⟩ :=
      begin_spec delay settings fromDict hs.dated kid
    simp only [SharedClient.begin, hresume]
    refine ⟨fun document hjwks => ?_, fun v hv => ?_⟩
    · rw [hsame.jwks] at hjwks
      obtain ⟨began, hserved, hbegan⟩ := hs.dated document hjwks
      exact ⟨began, hserved, hsame.jwksLoadedAt ▸ hbegan⟩
    · rcases List.mem_append.mp hv with hv | hv
      · exact ⟨(hs.calls v hv).1, (hs.calls v hv).2.trans hclock⟩
      · rw [List.mem_singleton.mp hv]
        exact ⟨hsound, le_refl _⟩
  | answer i r =>
    obtain ⟨v, hv, hanswered⟩ := Option.bind_eq_some_iff.mp h
    obtain ⟨⟨-, ⟨phase, hwaits⟩ | ⟨x, hx, -⟩⟩, htime⟩ := hs.calls v (List.mem_of_getElem? hv)
    · obtain ⟨outcome, c', hgoes, heq⟩ := answered_spec delay hwaits hs.dated htime i r
      rw [heq] at hanswered
      cases hanswered
      refine ⟨hgoes.dated, fun u hu => ?_⟩
      rcases List.mem_or_eq_of_mem_set hu with hu | rfl
      · exact ⟨(hs.calls u hu).1.served _, (hs.calls u hu).2.trans hgoes.clock⟩
      · exact ⟨hgoes.sound, le_refl _⟩
    · rw [SharedClient.answered, hx] at hanswered
      cases hanswered

end Invariant

/-- **The signing keys are fresh.**  Whatever fetches fail and in whatever order they are answered: a
verification makes at most two JWKS fetches; a key that it returns stands under its identifier in a
document that was fetched less than the cache time before, or by itself; and it returns one when its
fetches succeed, every document it is served has a valid key first under the identifier, and the
unexpired cached document has none or a valid one.  A verification that finds its identifier in an
unexpired document fetches nothing, and a fetch without success changes nothing in the cache. -/
theorem signing_keys_fresh {E K : Type} {settings : OidcSettings} {fromDict : FromDict E K}
    {delay : ℕ → ℚ≥0} {clock : ℚ} {events : List (OidcEvent E)} {s : SharedClient E K}
    (hrun : Transition.run (SharedClient.step settings fromDict delay) (.fresh E K clock) events = some s) :
    (∀ v ∈ s.calls, v.jwksFetches ≤ 2 ∧
      ∀ r, v.outcome = .finished r → v.Ended settings fromDict s.documents r) ∧
      (∀ kid document entry, s.client.unexpired settings delay = some document →
        findKey document kid = some entry →
        (s.begin settings fromDict delay kid).calls = s.calls ++ [⟨kid, some document, [],
          .finished (signingKey fromDict (some entry)), (s.client.read delay).clock⟩]) ∧
      ∀ i r s' v purpose url k, s.calls[i]? = some v → v.outcome = .suspended (.getJson purpose url) k →
        ¬Fetch.Succeeded settings ⟨purpose, v.time, r⟩ →
        s.step settings fromDict delay (.answer i r) = some s' → s.client.SameCache s'.client := by
  have hs : s.Sound settings fromDict := by
    refine Transition.run_invariant (fun _ _ _ hs h => SharedClient.sound_step hs h) ⟨?_, ?_⟩ hrun
    · exact fun document h => by cases h
    · exact fun v hv => absurd hv List.not_mem_nil
  refine ⟨fun v hv => ⟨(hs.calls v hv).1.1, fun r hr => ?_⟩, ?_, ?_⟩
  · rcases (hs.calls v hv).1.2 with ⟨phase, hwaits⟩ | ⟨r', hr', hended⟩
    · have hout := hwaits.outcome
      rw [hr] at hout
      cases phase <;> cases hout
    · rw [hr] at hr'
      cases hr'
      exact hended
  · intro kid document entry hcached hentry
    rcases resume_key settings fromDict delay kid s.client with
      ⟨document', hcached', hresume⟩ | ⟨hnone, -⟩
    · rw [hcached] at hcached'
      cases hcached'
      rcases resume_afterJwks settings fromDict delay kid false document (s.client.read delay) with
        ⟨entry', hentry', hafter⟩ | ⟨hnone, -⟩ | ⟨hnone, -⟩
      · rw [hentry] at hentry'
        cases hentry'
        simp only [SharedClient.begin, hresume, hafter, hcached]
      · rw [hentry] at hnone
        cases hnone
      · rw [hentry] at hnone
        cases hnone
    · rw [hcached] at hnone
      cases hnone
  · intro i r s' v purpose url k hv houtcome hfailed h
    obtain ⟨phase, hwaits⟩ := hs.waits hv houtcome
    have hpurpose : phase.purpose = purpose := by
      have hout := hwaits.outcome
      rw [houtcome] at hout
      cases phase <;> cases hout <;> rfl
    obtain ⟨outcome, c', hgoes, heq⟩ := answered_spec delay hwaits hs.dated
      (hs.calls v (List.mem_of_getElem? hv)).2 i r
    rw [← hpurpose] at hfailed
    have hstep : s.answered delay i v r = some s' := by
      simpa [SharedClient.step, hv] using h
    rw [heq] at hstep
    cases hstep
    exact (hgoes.unchanged hfailed).same

/-! ## Documents with two entries -/

/-- An issuer and a cache of one hour. -/
def sampleSettings : OidcSettings where
  oidcIssuer := some (codes "https://sso.example/")
  oidcJwksCacheSeconds := 3600
  issuer_set := nofun
  cache_pos := by decide

/-- A library that accepts the entries with a key type. -/
def sampleFromDict : FromDict Empty Unit := fun key =>
  match Python.get key (codes "kty") with
  | some (.str _) => .ok ()
  | _ => .error none

def sampleDiscovery : Dict :=
  [(codes "issuer", .str (codes "https://sso.example")),
    (codes "authorization_endpoint", .str (codes "https://sso.example/authorize")),
    (codes "token_endpoint", .str (codes "https://sso.example/token")),
    (codes "jwks_uri", .str (codes "https://sso.example/certs"))]

/-- An entry for a key, with its type or without. -/
def sampleEntry (kid : String) (typed : Bool) : Dict :=
  (codes "kid", .str (codes kid)) :: if typed then [(codes "kty", .str (codes "RSA"))] else []

def sampleJwks (entries : List Dict) : Dict := [(codes "keys", .list (entries.map .dict))]

/-- Two verifications with one fetch between them, and a third one after a rotation. -/
def sampleRun : List (OidcEvent Empty) :=
  [.call (codes "old"), .answer 0 (.ok sampleDiscovery),
    .answer 0 (.ok (sampleJwks [sampleEntry "old" true])), .tick 60, .call (codes "old"),
    .call (codes "new"), .answer 2 (.ok (sampleJwks [sampleEntry "old" true, sampleEntry "new" true]))]

/-- The message of a verification that ended, none when it ended with a key. -/
def ending (v : Verification Empty Unit) : Option (Option String) :=
  match v.outcome with
  | .finished (.ok _) => some none
  | .finished (.error (.oidcError message)) => some (some message)
  | _ => none

theorem signing_keys_fresh_sample :
    ∃ s, Transition.run (SharedClient.step sampleSettings sampleFromDict fun _ => 1)
        (.fresh Empty Unit 5) sampleRun = some s ∧
      s.calls.map (fun v => ending v) = [some none, some none, some none] ∧
      ∀ v ∈ s.calls, v.jwksFetches ≤ 2 := by
  have hrun : (Transition.run (SharedClient.step sampleSettings sampleFromDict fun _ => 1)
      (.fresh Empty Unit 5) sampleRun).map (fun s => s.calls.map fun v => ending v)
      = some [some none, some none, some none] := by
    decide +kernel
  obtain ⟨s, hs, hendings⟩ := Option.map_eq_some_iff.mp hrun
  exact ⟨s, hs, hendings, fun v hv => ((signing_keys_fresh hs).1 v hv).1⟩

/-- A document with an unusable entry before a valid one under the same identifier. -/
def doubledJwks : Dict := sampleJwks [sampleEntry "new" false, sampleEntry "new" true]

/-- **Only the first entry counts.**  The document that the provider serves contains a valid key, and every
fetch succeeds; the verification fails for the entry before it, and so does the next one, which finds
that entry in the cache and fetches nothing. -/
theorem first_entry_decides :
    Listed doubledJwks (codes "new") (sampleEntry "new" true) ∧
      sampleFromDict (sampleEntry "new" true) = .ok () ∧
      (Transition.run (SharedClient.step sampleSettings sampleFromDict fun _ => 1) (.fresh Empty Unit 5)
        [.call (codes "new"), .answer 0 (.ok sampleDiscovery), .answer 0 (.ok doubledJwks),
          .call (codes "new")]).map (fun s => s.calls.map fun v => (v.fetches.length, ending v))
        = some [(2, some (some "the token signing key is invalid")),
          (0, some (some "the token signing key is invalid"))] := by
  refine ⟨⟨[.dict (sampleEntry "new" false), .dict (sampleEntry "new" true)], rfl, ?_, rfl⟩, rfl, ?_⟩
  · exact List.mem_cons_of_mem _ List.mem_cons_self
  · decide +kernel

end HardwareTest.Auth.Oidc
