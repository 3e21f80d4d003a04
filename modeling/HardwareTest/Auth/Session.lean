import HardwareTest.Lib.Base64
import HardwareTest.Lib.Utf8
import HardwareTest.Python.Float
import HardwareTest.Python.Text
import HardwareTest.Runner.Settings

/-!
# Signed tokens

The codec of the session cookie and of the OIDC transaction cookie: a JSON object with its time of
issue, in base64 without padding, a dot, and the signature of what is before the dot.

* `encodeSigned`, `decodeSigned` — the codec of both cookies;
* `asdict`, `decodeSession` — a principal as the payload of a session cookie;
* `readPayload_base64url` — the reader undoes the writer of the payload;
* `decodeSigned_encodeSigned` — what a signed payload is decoded to;
* `session_tokens` — a session is decoded to its principal while it lasts, nothing without the
  signature is accepted, and a transaction is no session.
-/

namespace HardwareTest.Auth

open HardwareTest.Lib HardwareTest.Lib.Json HardwareTest.Python HardwareTest.Runner

abbrev Bytes := List UInt8

/-! ## Settings -/

inductive AuthMode
  | disabled
  | «local»
  | keycloak
  | keycloakUiLocalApi
  deriving DecidableEq

/-- The authentication settings, with what `validate_authentication_settings` establishes. -/
structure AuthSettings where
  authMode : AuthMode
  authSessionSecret : Option Text
  authApiToken : Option Text
  authSessionTtlSeconds : ℤ
  oidcClientId : Option Text
  oidcViewerRole : Text
  oidcOperatorRole : Text
  ttl_pos : 0 < authSessionTtlSeconds
  secret_set : authMode ≠ .disabled → hasSecretValue authSessionSecret = true
  client_set : authMode = .keycloak ∨ authMode = .keycloakUiLocalApi → hasSecretValue oidcClientId = true
  token_unset : authMode = .keycloak → hasSecretValue authApiToken = false
  token_set : authMode = .keycloakUiLocalApi → hasSecretValue authApiToken = true

/-- The code points of a text. -/
def toStr (s : Text) : Str := s.map Char.toNat

/-! ## The interpreter -/

inductive Raised
  | keyError
  | typeError
  | valueError
  | unicodeEncodeError
  | overflowError
  | recursionError
  | runtimeError (message : String)
  deriving DecidableEq

/-- `except KeyError, TypeError, ValueError`. -/
def Raised.isRefusal : Raised → Bool
  | .keyError | .typeError | .valueError | .unicodeEncodeError => true
  | _ => false

/-- What the codec uses of the standard library: the hexadecimal digest of HMAC-SHA256, `str` of a
value of JSON that is not a string, and how deeply the JSON reader nests. -/
structure Platform where
  hexdigest : Bytes → Bytes → Str
  str : JsonValue → Str
  depth : ℕ
  digest_ascii : ∀ key message, ∀ c ∈ hexdigest key message, c < 128
  two_le : 2 ≤ depth

/-- A string as characters; `none` when it holds a surrogate. -/
def characters : Str → Option Text
  | [] => some []
  | c :: s => if h : c.isValidChar then (characters s).map (Char.ofNatAux c h :: ·) else none

/-- `s.encode()`. -/
def encode (s : Str) : Except Raised Bytes :=
  match characters s with
  | none => .error .unicodeEncodeError
  | some t => .ok (Utf8.encode t)

/-- `s.partition(separator)`. -/
def partition {α : Type} [DecidableEq α] (separator : α) : List α → List α × Bool × List α
  | [] => ([], false, [])
  | c :: s =>
    if c = separator then ([], true, s)
    else (c :: (partition separator s).1, (partition separator s).2)

/-- `hmac.compare_digest` of two strings. -/
def compareDigest (a b : Str) : Except Raised Bool :=
  if (a ++ b).all (· < 128) then .ok (a == b) else .error .typeError

/-- `value[key]` for a value of JSON. -/
def getItem (value : JsonValue) (key : Str) : Except Raised JsonValue :=
  match value with
  | .dict members =>
    match Python.get members key with
    | none => .error .keyError
    | some v => .ok v
  | _ => .error .typeError

/-- `int(value)` for a value of JSON. -/
def toInt : JsonValue → Except Raised ℤ
  | .int n => .ok n
  | .bool b => .ok (if b then 1 else 0)
  | .float (.finite q) => .ok (if q < 0 then -⌊-q⌋ else ⌊q⌋)
  | .float (.infinite _) => .error .overflowError
  | .float .nan => .error .valueError
  | .str s =>
    match (characters s).bind Python.int with
    | none => .error .valueError
    | some n => .ok n
  | _ => .error .typeError

/-- `json.loads(data)`. -/
def loads (py : Platform) (data : Bytes) : Except Raised JsonValue :=
  match loadsBytes py.depth data with
  | .ok v => .ok v
  | .error .recursionError => .error .recursionError
  | .error _ => .error .valueError

/-- `str(value)`. -/
def Platform.text (py : Platform) : JsonValue → Str
  | .str s => s
  | v => py.str v

/-! ## The codec -/

/-- `_signature`. -/
def signature (py : Platform) (settings : AuthSettings) (payload : Str) : Except Raised Str :=
  match settings.authSessionSecret with
  | none => .error (.runtimeError "authentication settings were not validated")
  | some secret => (encode payload).map (py.hexdigest (Utf8.encode secret))

/-- `_base64url`. -/
def base64url (value : Bytes) : Str := Base64.stripPadding (Base64.urlsafeEncode value)

/-- `_base64url_decode`. -/
def base64urlDecode (value : Str) : Except Raised Bytes :=
  match Base64.urlsafeDecode (Base64.restorePadding value) with
  | none => .error .valueError
  | some data => .ok data

/-- `_optional_int`. -/
def optionalInt : Option JsonValue → Except Raised (Option ℤ)
  | none | some .null => .ok none
  | some (.int n) => .ok (some n)
  | some _ => .error .valueError

/-- `{"iat": now, **payload}`. -/
def body (now : ℤ) (payload : List (Str × JsonValue)) : JsonValue :=
  .dict (dictOf ((codes "iat", .int now) :: payload))

/-- `_encode_signed` at the time `now`. -/
def encodeSigned (py : Platform) (settings : AuthSettings) (now : ℤ) (payload : List (Str × JsonValue)) :
    Except Raised Str :=
  let encoded := base64url (encodeAscii (dumps (body now payload).sortKeys))
  (signature py settings encoded).map fun s => encoded ++ 46 :: s

/-- The payload of a token and the time it was issued at. -/
def readPayload (py : Platform) (encoded : Str) : Except Raised (JsonValue × ℤ) := do
  let data ← base64urlDecode encoded
  let payload ← loads py data
  let issuedAt ← toInt (← getItem payload (codes "iat"))
  return (payload, issuedAt)

/-- What `_decode_signed` checks of a payload at the time `now`. -/
def current (now maxAge : ℤ) (payload : JsonValue) (issuedAt : ℤ) : Option (List (Str × JsonValue)) :=
  match payload with
  | .dict members =>
    if 0 ≤ now - issuedAt ∧ now - issuedAt ≤ maxAge then
      match optionalInt (Python.get members (codes "expires_at")) with
      | .ok none => some members
      | .ok (some expiresAt) => if expiresAt < now then none else some members
      | .error _ => none
    else none
  | _ => none

/-- `_decode_signed` at the time `now`. -/
def decodeSigned (py : Platform) (settings : AuthSettings) (now : ℤ) (value : Option Str) (maxAge : ℤ) :
    Except Raised (Option (List (Str × JsonValue))) :=
  match value with
  | none => .ok none
  | some value =>
    match partition 46 value with
    | (_, false, _) => .ok none
    | (encoded, true, given) => do
      let expected ← signature py settings encoded
      if ← compareDigest given expected then
        match readPayload py encoded with
        | .ok (payload, issuedAt) => return current now maxAge payload issuedAt
        | .error e => if e.isRefusal then return none else throw e
      else return none

/-! ## Sessions -/

/-- A `Principal`. -/
structure Principal where
  subject : Str
  username : Option Str
  roles : List Str
  method : Str
  expiresAt : Option ℤ
  deriving DecidableEq

/-- `asdict(principal)`. -/
def asdict (p : Principal) : List (Str × JsonValue) :=
  [(codes "subject", .str p.subject),
    (codes "username", p.username.elim .null .str),
    (codes "roles", .list (p.roles.map .str)),
    (codes "method", .str p.method),
    (codes "expires_at", p.expiresAt.elim .null .int)]

/-- The strings of a list. -/
def strings : List JsonValue → List Str
  | [] => []
  | .str s :: items => s :: strings items
  | _ :: items => strings items

/-- `str(value) if value is not None else None`. -/
def optionalText (py : Platform) : Option JsonValue → Option Str
  | none | some .null => none
  | some v => some (py.text v)

/-- The principal of a payload. -/
def principalOf (py : Platform) (payload : List (Str × JsonValue)) : Except Raised (Option Principal) := do
  let roles ← getItem (.dict payload) (codes "roles")
  match roles with
  | .list roles => do
    let subject ← getItem (.dict payload) (codes "subject")
    let method ← getItem (.dict payload) (codes "method")
    let expiresAt ← optionalInt (Python.get payload (codes "expires_at"))
    return some
      { subject := py.text subject
        username := optionalText py (Python.get payload (codes "username"))
        roles := strings roles
        method := py.text method
        expiresAt := expiresAt }
  | _ => return none

/-- `_decode_session` at the time `now`. -/
def decodeSession (py : Platform) (settings : AuthSettings) (now : ℤ) (value : Str) :
    Except Raised (Option Principal) := do
  match ← decodeSigned py settings now (some value) settings.authSessionTtlSeconds with
  | none => return none
  | some payload =>
    match principalOf py payload with
    | .ok p => return p
    | .error e => if e.isRefusal then return none else throw e

/-! ## Texts -/

theorem encode_ascii {s : Str} (h : ∀ c ∈ s, c < 128) : ∃ data, encode s = .ok data := by
  have hchars : ∃ t, characters s = some t := by
    induction s with
    | nil => exact ⟨[], rfl⟩
    | cons c s ih =>
      obtain ⟨t, ht⟩ := ih fun d hd => h d (List.mem_cons_of_mem c hd)
      have hc : c.isValidChar := .inl ((h c List.mem_cons_self).trans (by decide))
      exact ⟨Char.ofNatAux c hc :: t, by rw [characters, dif_pos hc, ht]; rfl⟩
  obtain ⟨t, ht⟩ := hchars
  exact ⟨Utf8.encode t, by rw [encode, ht]⟩

theorem partition_append {separator : ℕ} {a : Str} (h : separator ∉ a) (b : Str) :
    partition separator (a ++ separator :: b) = (a, true, b) := by
  induction a with
  | nil => rw [List.nil_append, partition, if_pos rfl]
  | cons c a ih =>
    have hc : c ≠ separator := fun heq => h (heq ▸ List.mem_cons_self)
    rw [List.cons_append, partition, if_neg hc, ih fun hmem => h (List.mem_cons_of_mem c hmem)]

/-- What a partition that found the separator says about the string. -/
theorem eq_of_partition {separator : ℕ} {s a b : Str} (h : partition separator s = (a, true, b)) :
    s = a ++ separator :: b ∧ separator ∉ a := by
  induction s generalizing a with
  | nil => exact absurd (congrArg (·.2.1) h) Bool.false_ne_true
  | cons c s ih =>
    rw [partition] at h
    by_cases hc : c = separator
    · rw [if_pos hc, Prod.mk.injEq, Prod.mk.injEq] at h
      obtain ⟨rfl, -, rfl⟩ := h
      exact ⟨by rw [hc, List.nil_append], List.not_mem_nil⟩
    · rw [if_neg hc, Prod.mk.injEq] at h
      obtain ⟨rfl, hrest⟩ := h
      obtain ⟨hs, hmem⟩ := ih (Prod.ext rfl hrest)
      refine ⟨by rw [List.cons_append, ← hs], fun hsep => ?_⟩
      rcases List.mem_cons.mp hsep with heq | hsep
      · exact hc heq.symm
      · exact hmem hsep

/-- The encoded part of a token has no dot and is ASCII. -/
theorem mem_base64url {data : Bytes} {c : ℕ} (hc : c ∈ base64url data) : c < 128 ∧ c ≠ 46 :=
  Base64.mem_urlsafeEncode (Base64.mem_stripPadding hc)

theorem base64urlDecode_base64url (data : Bytes) : base64urlDecode (base64url data) = .ok data := by
  rw [base64urlDecode, base64url, Base64.urlsafeDecode_restorePadding]

theorem compareDigest_self {s : Str} (h : ∀ c ∈ s, c < 128) : compareDigest s s = .ok true := by
  have hall : (s ++ s).all (· < 128) = true := by
    rw [List.all_eq_true]
    intro c hc
    rcases List.mem_append.mp hc with hc | hc <;> exact decide_eq_true (h c hc)
  rw [compareDigest, if_pos hall, beq_self_eq_true]

/-- Only equal strings are found equal. -/
theorem eq_of_compareDigest {a b : Str} (h : compareDigest a b = .ok true) : a = b := by
  rw [compareDigest] at h
  split_ifs at h
  exact eq_of_beq (Except.ok.inj h)

/-! ## Reading what was signed -/

section

variable (py : Platform) (settings : AuthSettings)

/-- With a secret every ASCII text has a signature. -/
theorem signature_ascii {secret : Text} (hsecret : settings.authSessionSecret = some secret) {payload : Str}
    (h : ∀ c ∈ payload, c < 128) :
    ∃ s, signature py settings payload = .ok s ∧ ∀ c ∈ s, c < 128 := by
  obtain ⟨data, hdata⟩ := encode_ascii h
  refine ⟨py.hexdigest (Utf8.encode secret) data, ?_, py.digest_ascii _ _⟩
  rw [signature, hsecret, hdata]
  rfl

/-- The reader undoes the writer of a payload. -/
theorem readPayload_base64url {v : JsonValue} (hregular : v.Regular) (hdepth : v.depth ≤ 2) :
    readPayload py (base64url (encodeAscii (dumps v)))
      = (do return (v, ← toInt (← getItem v (codes "iat")))) := by
  have hloads : loads py (encodeAscii (dumps v)) = .ok v := by
    have := loadsBytes_dumps hregular (hdepth.trans py.two_le) (.inl rfl)
    rw [List.append_nil] at this
    rw [loads, this]
  rw [readPayload, base64urlDecode_base64url]
  show (loads py _ >>= _) = _
  rw [hloads]
  rfl

/-- What a signed payload is decoded to. -/
theorem decodeSigned_token {secret : Text} (hsecret : settings.authSessionSecret = some secret) (now maxAge : ℤ)
    {v : JsonValue} (hregular : v.Regular) (hdepth : v.depth ≤ 2) {issuedAt : ℤ}
    (hissued : getItem v (codes "iat") = .ok (.int issuedAt)) :
    ∃ s, signature py settings (base64url (encodeAscii (dumps v))) = .ok s ∧
      decodeSigned py settings now (some (base64url (encodeAscii (dumps v)) ++ 46 :: s)) maxAge
        = .ok (current now maxAge v issuedAt) := by
  have hencoded : ∀ c ∈ base64url (encodeAscii (dumps v)), c < 128 := fun c hc => (mem_base64url hc).1
  obtain ⟨s, hs, hascii⟩ := signature_ascii py settings hsecret hencoded
  refine ⟨s, hs, ?_⟩
  have hpart : partition 46 (base64url (encodeAscii (dumps v)) ++ 46 :: s)
      = (base64url (encodeAscii (dumps v)), true, s) :=
    partition_append (fun hdot => (mem_base64url hdot).2 rfl) s
  have hread : readPayload py (base64url (encodeAscii (dumps v))) = .ok (v, issuedAt) := by
    rw [readPayload_base64url py hregular hdepth, hissued]
    rfl
  simp only [decodeSigned, hpart, hs, compareDigest_self hascii, hread, bind, Except.bind, if_true, pure,
    Except.pure]

/-- An accepted token is signed. -/
theorem signed_of_decodeSigned {now maxAge : ℤ} {value : Str} {payload : List (Str × JsonValue)}
    (h : decodeSigned py settings now (some value) maxAge = .ok (some payload)) :
    ∃ encoded s, value = encoded ++ 46 :: s ∧ 46 ∉ encoded ∧ signature py settings encoded = .ok s := by
  rcases hpart : partition 46 value with ⟨encoded, found, given⟩
  cases found with
  | false => simp [decodeSigned, hpart] at h
  | true =>
    obtain ⟨hvalue, hdot⟩ := eq_of_partition hpart
    refine ⟨encoded, given, hvalue, hdot, ?_⟩
    rcases hs : signature py settings encoded with e | expected
    · simp [decodeSigned, hpart, hs, bind, Except.bind] at h
    rcases hcompare : compareDigest given expected with e | equal
    · simp [decodeSigned, hpart, hs, hcompare, bind, Except.bind] at h
    cases equal with
    | false => simp [decodeSigned, hpart, hs, hcompare, bind, Except.bind, pure, Except.pure] at h
    | true => rw [eq_of_compareDigest hcompare]

end

/-! ## Sessions and transactions -/

/-- A principal as the service comes by one: its strings were read from JSON or are characters, and its
time of expiry was read from JSON. -/
structure CarriedPrincipal extends Principal where
  subject_joined : Joined subject
  username_joined : ∀ s ∈ username, Joined s
  roles_joined : ∀ s ∈ roles, Joined s
  method_joined : Joined method
  expires_bounded : ∀ e ∈ expiresAt, e.natAbs < 10 ^ Json.maxStrDigits

/-- What `int(time.time())` can be: the integer part of a double. -/
structure Instant where
  seconds : ℤ
  bounded : seconds.natAbs < 2 ^ 1024

theorem Instant.lt (t : Instant) : t.seconds.natAbs < 10 ^ Json.maxStrDigits := by
  have hpow : ∀ k ≤ Json.maxStrDigits, 2 ^ k ≤ 10 ^ Json.maxStrDigits := fun k hk =>
    (Nat.pow_le_pow_left (by decide) k).trans (Nat.pow_le_pow_right (by decide) hk)
  exact t.bounded.trans_le (hpow 1024 (by decide))

/-- The payload of a session, in the order of its keys. -/
def sessionBody (now : ℤ) (p : Principal) : List (Str × JsonValue) :=
  [(codes "expires_at", p.expiresAt.elim .null .int), (codes "iat", .int now),
    (codes "method", .str p.method), (codes "roles", .list (p.roles.map .str)),
    (codes "subject", .str p.subject), (codes "username", p.username.elim .null .str)]

theorem sortKeys_asdict (now : ℤ) (subject username roles method expiresAt : JsonValue) :
    (body now [(codes "subject", subject), (codes "username", username), (codes "roles", roles),
        (codes "method", method), (codes "expires_at", expiresAt)]).sortKeys
      = .dict [(codes "expires_at", expiresAt.sortKeys), (codes "iat", .int now),
          (codes "method", method.sortKeys), (codes "roles", roles.sortKeys),
          (codes "subject", subject.sortKeys), (codes "username", username.sortKeys)] := by
  let payload : List (Str × JsonValue) := [(codes "subject", subject), (codes "username", username),
    (codes "roles", roles), (codes "method", method), (codes "expires_at", expiresAt)]
  have hkeys : (((codes "iat", .int now) :: payload).map Prod.fst).Nodup := by
    show (["iat", "subject", "username", "roles", "method", "expires_at"].map codes).Nodup
    decide
  show (Json.Value.dict (dictOf ((codes "iat", .int now) :: payload))).sortKeys = _
  rw [dictOf_of_nodup hkeys]
  simp +decide only [payload, Value.sortKeys, sortKeysMembers, List.insertionSort_cons,
    List.insertionSort_nil, List.orderedInsert, if_true, if_false]

theorem sortKeys_session (now : ℤ) (p : Principal) :
    (body now (asdict p)).sortKeys = .dict (sessionBody now p) := by
  have husername : (p.username.elim .null .str : JsonValue).sortKeys = p.username.elim .null .str := by
    cases p.username <;> rfl
  have hexpires : (p.expiresAt.elim .null .int : JsonValue).sortKeys = p.expiresAt.elim .null .int := by
    cases p.expiresAt <;> rfl
  have hroles : (Json.Value.list (p.roles.map .str) : JsonValue).sortKeys = .list (p.roles.map .str) :=
    congrArg Json.Value.list (sortKeysItems_str p.roles)
  rw [asdict, sortKeys_asdict, husername, hexpires, hroles]
  rfl

theorem regularItems_str {items : List Str} (h : ∀ s ∈ items, Joined s) :
    RegularItems (F := PyFloat) (items.map .str) := by
  induction items with
  | nil => trivial
  | cons s items ih =>
    exact ⟨h s List.mem_cons_self, ih fun t ht => h t (List.mem_cons_of_mem s ht)⟩

theorem depthItems_str (items : List Str) : depthItems (F := PyFloat) (items.map .str) = 0 := by
  induction items with
  | nil => rfl
  | cons s items ih => rw [List.map_cons, depthItems, ih]; rfl

/-- The payload of a session survives being written and read. -/
theorem regular_session (t : Instant) (p : CarriedPrincipal) :
    (Json.Value.dict (sessionBody t.seconds p.toPrincipal)).Regular := by
  have husername : (p.username.elim .null .str : JsonValue).Regular := by
    rcases h : p.username with _ | s
    · trivial
    · exact p.username_joined s h
  have hexpires : (p.expiresAt.elim .null .int : JsonValue).Regular := by
    rcases h : p.expiresAt with _ | e
    · trivial
    · exact p.expires_bounded e h
  refine ⟨⟨joined_codes (by decide), hexpires, joined_codes (by decide), t.lt, joined_codes (by decide),
    p.method_joined, joined_codes (by decide), regularItems_str p.roles_joined, joined_codes (by decide),
    p.subject_joined, joined_codes (by decide), husername, trivial⟩, ?_⟩
  show [codes "expires_at", codes "iat", codes "method", codes "roles", codes "subject",
    codes "username"].Nodup
  decide

theorem depth_session (now : ℤ) (p : Principal) :
    (Json.Value.dict (sessionBody now p)).depth ≤ 2 := by
  have husername : (p.username.elim .null .str : JsonValue).depth = 0 := by cases p.username <;> rfl
  have hexpires : (p.expiresAt.elim .null .int : JsonValue).depth = 0 := by cases p.expiresAt <;> rfl
  simp only [sessionBody, Json.Value.depth, depthMembers, husername, hexpires, depthItems_str]
  decide

theorem getItem_session (now : ℤ) (p : Principal) :
    getItem (.dict (sessionBody now p)) (codes "iat") = .ok (.int now) :=
  rfl

/-- The payload that is accepted is the one that was signed. -/
theorem eq_of_current {now maxAge issuedAt : ℤ} {members payload : List (Str × JsonValue)}
    (h : current now maxAge (.dict members) issuedAt = some payload) : payload = members := by
  rw [current] at h
  split_ifs at h
  split at h
  · exact (Option.some.inj h).symm
  · split_ifs at h
    exact (Option.some.inj h).symm
  · cases h

/-- While it lasts, a session is current. -/
theorem current_session (now issuedAt maxAge : ℤ) (p : Principal) :
    current now maxAge (.dict (sessionBody issuedAt p)) issuedAt
      = if (0 ≤ now - issuedAt ∧ now - issuedAt ≤ maxAge) ∧ ∀ e ∈ p.expiresAt, now ≤ e then
          some (sessionBody issuedAt p)
        else none := by
  have hexpires : Python.get (sessionBody issuedAt p) (codes "expires_at")
      = some (p.expiresAt.elim .null .int) := rfl
  rw [current, hexpires]
  by_cases hage : 0 ≤ now - issuedAt ∧ now - issuedAt ≤ maxAge
  · rcases p.expiresAt with _ | e
    · rw [if_pos hage, if_pos ⟨hage, nofun⟩]
      rfl
    · rw [if_pos hage]
      show (if e < now then none else _) = _
      by_cases he : e < now
      · rw [if_pos he, if_neg fun h => absurd (h.2 e rfl) (not_le.mpr he)]
      · rw [if_neg he, if_pos ⟨hage, by rintro _ ⟨⟩; exact not_lt.mp he⟩]
  · rw [if_neg hage, if_neg fun h => hage h.1]

theorem strings_str (items : List Str) : strings (items.map .str) = items := by
  induction items with
  | nil => rfl
  | cons s items ih => rw [List.map_cons, strings, ih]

/-- The principal of a session is the one it was written for. -/
theorem principalOf_session (py : Platform) (now : ℤ) (p : Principal) :
    principalOf py (sessionBody now p) = .ok (some p) := by
  rcases p with ⟨subject, username, roles, method, expiresAt⟩
  have hroles := strings_str roles
  have husername : optionalText py (some (username.elim .null .str)) = username := by
    cases username <;> rfl
  have hexpires : optionalInt (some (expiresAt.elim .null .int)) = .ok expiresAt := by
    cases expiresAt <;> rfl
  show (do
    let expiresAt ← optionalInt (some (expiresAt.elim .null .int))
    return some (Principal.mk subject (optionalText py (some (username.elim .null .str)))
      (strings (roles.map .str)) method expiresAt)) = _
  rw [hexpires, husername, hroles]
  rfl

/-- The token of a payload whose text is known. -/
theorem encodeSigned_eq {py : Platform} {settings : AuthSettings} {now : ℤ} {payload : List (Str × JsonValue)}
    {v : JsonValue} (hv : dumps (body now payload).sortKeys = dumps v) {s : Str}
    (hs : signature py settings (base64url (encodeAscii (dumps v))) = .ok s) :
    encodeSigned py settings now payload = .ok (base64url (encodeAscii (dumps v)) ++ 46 :: s) := by
  rw [encodeSigned, hv, hs]
  rfl

/-- A session is decoded to its principal while it lasts, and to nothing afterwards. -/
theorem decodeSession_encodeSigned (py : Platform) (settings : AuthSettings) {secret : Text}
    (hsecret : settings.authSessionSecret = some secret) (p : CarriedPrincipal) (t₀ : Instant) (t₁ : ℤ) :
    ∃ token, encodeSigned py settings t₀.seconds (asdict p.toPrincipal) = .ok token ∧
      decodeSession py settings t₁ token
        = .ok (if (0 ≤ t₁ - t₀.seconds ∧ t₁ - t₀.seconds ≤ settings.authSessionTtlSeconds) ∧
              ∀ e ∈ p.expiresAt, t₁ ≤ e then some p.toPrincipal else none) := by
  obtain ⟨s, hs, hdecode⟩ := decodeSigned_token py settings hsecret t₁ settings.authSessionTtlSeconds
    (regular_session t₀ p) (depth_session _ _) (getItem_session _ _)
  refine ⟨_, encodeSigned_eq (congrArg dumps (sortKeys_session t₀.seconds p.toPrincipal)) hs, ?_⟩
  rw [decodeSession, hdecode, current_session]
  split_ifs
  · show (match principalOf py _ with | .ok p => _ | .error e => _) = _
    rw [principalOf_session]
    rfl
  · rfl

/-- The payload of the OIDC transaction cookie. -/
def transaction (state nonce verifier : Str) : List (Str × JsonValue) :=
  [(codes "state", .str state), (codes "nonce", .str nonce), (codes "verifier", .str verifier)]

/-- The payload of a transaction, in the order of its keys. -/
def transactionBody (now : ℤ) (state nonce verifier : Str) : List (Str × JsonValue) :=
  [(codes "iat", .int now), (codes "nonce", .str nonce), (codes "state", .str state),
    (codes "verifier", .str verifier)]

theorem sortKeys_transaction (now : ℤ) (state nonce verifier : Str) :
    (body now (transaction state nonce verifier)).sortKeys
      = .dict (transactionBody now state nonce verifier) :=
  rfl

theorem getItem_transaction (now : ℤ) (state nonce verifier : Str) :
    getItem (.dict (transactionBody now state nonce verifier)) (codes "iat") = .ok (.int now) :=
  rfl

theorem regular_transaction (t : Instant) {state nonce verifier : Str} (hstate : Joined state)
    (hnonce : Joined nonce) (hverifier : Joined verifier) :
    (Json.Value.dict (transactionBody t.seconds state nonce verifier)).Regular := by
  refine ⟨⟨joined_codes (by decide), t.lt, joined_codes (by decide), hnonce, joined_codes (by decide),
    hstate, joined_codes (by decide), hverifier, trivial⟩, ?_⟩
  show [codes "iat", codes "nonce", codes "state", codes "verifier"].Nodup
  decide

/-- Every transaction is written like one whose strings are joined. -/
theorem dumps_transaction (now : ℤ) (state nonce verifier : Str) :
    ∃ state' nonce' verifier', Joined state' ∧ Joined nonce' ∧ Joined verifier' ∧
      dumps (.dict (transactionBody now state' nonce' verifier') : JsonValue)
        = dumps (.dict (transactionBody now state nonce verifier)) := by
  obtain ⟨state', hstate, hs⟩ := exists_joined state
  obtain ⟨nonce', hnonce, hn⟩ := exists_joined nonce
  obtain ⟨verifier', hverifier, hv⟩ := exists_joined verifier
  refine ⟨state', nonce', verifier', hstate, hnonce, hverifier, ?_⟩
  simp only [transactionBody, dumps, dumpsMembers, dumpsString, hs, hn, hv]

/-- A transaction is no session: it has no roles. -/
theorem decodeSession_transaction (py : Platform) (settings : AuthSettings) {secret : Text}
    (hsecret : settings.authSessionSecret = some secret) (state nonce verifier : Str) (t₀ : Instant) (t₁ : ℤ) :
    ∃ token, encodeSigned py settings t₀.seconds (transaction state nonce verifier) = .ok token ∧
      decodeSession py settings t₁ token = .ok none := by
  obtain ⟨state', nonce', verifier', hstate, hnonce, hverifier, hdumps⟩ :=
    dumps_transaction t₀.seconds state nonce verifier
  obtain ⟨s, hs, hdecode⟩ := decodeSigned_token py settings hsecret t₁ settings.authSessionTtlSeconds
    (regular_transaction t₀ hstate hnonce hverifier) (Nat.le_succ 1) (getItem_transaction _ _ _ _)
  refine ⟨_, encodeSigned_eq ((congrArg dumps (sortKeys_transaction _ _ _ _)).trans hdumps.symm) hs, ?_⟩
  rw [decodeSession, hdecode]
  rcases hcurrent : current t₁ settings.authSessionTtlSeconds
    (.dict (transactionBody t₀.seconds state' nonce' verifier')) t₀.seconds with _ | payload
  · rfl
  · obtain rfl := eq_of_current hcurrent
    rfl

/-- An accepted session is signed. -/
theorem signed_of_decodeSession (py : Platform) (settings : AuthSettings) {now : ℤ} {value : Str}
    {p : Principal} (h : decodeSession py settings now value = .ok (some p)) :
    ∃ encoded s, value = encoded ++ 46 :: s ∧ 46 ∉ encoded ∧ signature py settings encoded = .ok s := by
  rcases hsigned : decodeSigned py settings now (some value) settings.authSessionTtlSeconds
    with e | _ | payload
  · rw [decodeSession, hsigned] at h
    cases h
  · rw [decodeSession, hsigned] at h
    cases h
  · exact signed_of_decodeSigned py settings hsigned

/-- **Session tokens**: a session is decoded to exactly its principal while it and the principal last
and to nothing otherwise, every accepted token is the signature of its part before the first dot, and
an OIDC transaction signed with the same secret is no session. -/
theorem session_tokens (py : Platform) (settings : AuthSettings) (secret : Text)
    (hsecret : settings.authSessionSecret = some secret) :
    (∀ (p : CarriedPrincipal) (t₀ : Instant) (t₁ : ℤ),
      ∃ token, encodeSigned py settings t₀.seconds (asdict p.toPrincipal) = .ok token ∧
        decodeSession py settings t₁ token
          = .ok (if (0 ≤ t₁ - t₀.seconds ∧ t₁ - t₀.seconds ≤ settings.authSessionTtlSeconds) ∧
                ∀ e ∈ p.expiresAt, t₁ ≤ e then some p.toPrincipal else none)) ∧
    (∀ (t₁ : ℤ) (value : Str) (p : Principal), decodeSession py settings t₁ value = .ok (some p) →
      ∃ encoded s, value = encoded ++ 46 :: s ∧ 46 ∉ encoded ∧ signature py settings encoded = .ok s) ∧
    (∀ (state nonce verifier : Str) (t₀ : Instant) (t₁ : ℤ),
      ∃ token, encodeSigned py settings t₀.seconds (transaction state nonce verifier) = .ok token ∧
        decodeSession py settings t₁ token = .ok none) :=
  ⟨decodeSession_encodeSigned py settings hsecret, fun _ _ _ => signed_of_decodeSession py settings,
    decodeSession_transaction py settings hsecret⟩

/-- The settings of a service with password login. -/
def localSettings : AuthSettings where
  authMode := .local
  authSessionSecret := some "session-secret".toList
  authApiToken := none
  authSessionTtlSeconds := 604800
  oidcClientId := none
  oidcViewerRole := "hardware-test-runner.viewer".toList
  oidcOperatorRole := "hardware-test-runner.operator".toList
  ttl_pos := by decide
  secret_set := fun _ => by decide
  client_set := by decide
  token_unset := by decide
  token_set := by decide

/-- Alice after her password login. -/
def alice : CarriedPrincipal where
  subject := codes "local:alice"
  username := some (codes "alice")
  roles := [codes "viewer", codes "operator"]
  method := codes "local"
  expiresAt := none
  subject_joined := joined_codes (by decide)
  username_joined := by
    rintro s ⟨⟩
    exact joined_codes (by decide)
  roles_joined := by
    simp only [List.forall_mem_cons]
    exact ⟨joined_codes (by decide), joined_codes (by decide), List.forall_mem_nil _⟩
  method_joined := joined_codes (by decide)
  expires_bounded := nofun

/-- The platform on the session of `alice` at 1700000000: the digest of her payload. -/
def alicePlatform : Platform where
  hexdigest _ _ := codes "11606e275f4a1a3aabf2669161a7e25dc363b35bdeb6270b2e72d82c79bb5400"
  str _ := codes "None"
  depth := 2
  digest_ascii _ _ := by decide
  two_le := le_refl 2

/-- When `alice` logs in. -/
def aliceLogin : Instant where
  seconds := 1700000000
  bounded :=
    have hpow : ∀ k, 31 ≤ k → 1700000000 < 2 ^ k := fun k hk =>
      (by decide : 1700000000 < 2 ^ 31).trans_le (Nat.pow_le_pow_right (by decide) hk)
    hpow 1024 (by decide)

/-- `alice` is logged in at the last second of her session. -/
theorem session_tokens_alice :
    ∃ token, encodeSigned alicePlatform localSettings 1700000000 (asdict alice.toPrincipal) = .ok token ∧
      decodeSession alicePlatform localSettings 1700604800 token = .ok (some alice.toPrincipal) := by
  obtain ⟨token, hencode, hdecode⟩ :=
    (session_tokens alicePlatform localSettings "session-secret".toList rfl).1 alice aliceLogin 1700604800
  refine ⟨token, hencode, hdecode.trans ?_⟩
  rw [if_pos]
  decide

end HardwareTest.Auth
