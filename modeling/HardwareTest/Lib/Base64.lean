import Mathlib.Data.List.Basic
import Mathlib.Data.Nat.Basic

/-!
# Base64

Texts are lists of code points.  The decoder is a machine that collects the characters of a quad; in
strict mode it accepts the alphabet and complete padding only, otherwise it passes over every other
character.

* `encode`, `decode` — the standard alphabet, with padding;
* `urlsafeEncode`, `urlsafeDecode` — the alphabet for names in addresses;
* `decode_encode` — decoding undoes encoding, in both modes;
* `urlsafeDecode_restorePadding` — the padding follows from the length.
-/

namespace HardwareTest.Lib.Base64

/-- The character of a value below 64. -/
def char64 (v : ℕ) : ℕ :=
  if v < 26 then 65 + v
  else if v < 52 then 71 + v
  else if v < 62 then v - 4
  else if v = 62 then 43
  else 47

/-- The value of a character of the alphabet. -/
def val64 (c : ℕ) : Option ℕ :=
  if 65 ≤ c ∧ c ≤ 90 then some (c - 65)
  else if 97 ≤ c ∧ c ≤ 122 then some (c - 71)
  else if 48 ≤ c ∧ c ≤ 57 then some (c + 4)
  else if c = 43 then some 62
  else if c = 47 then some 63
  else none

/-- `b64encode`. -/
def encode : List UInt8 → List ℕ
  | a :: b :: c :: r =>
    char64 (a.toNat / 4) :: char64 (a.toNat % 4 * 16 + b.toNat / 16)
      :: char64 (b.toNat % 16 * 4 + c.toNat / 64) :: char64 (c.toNat % 64) :: encode r
  | [a, b] =>
    [char64 (a.toNat / 4), char64 (a.toNat % 4 * 16 + b.toNat / 16), char64 (b.toNat % 16 * 4), 61]
  | [a] => [char64 (a.toNat / 4), char64 (a.toNat % 4 * 16), 61, 61]
  | [] => []

/-- What the decoder has of the current quad: how many characters, the bits of the last one that are
not yet part of a byte, how many padding characters came after it, and whether there was padding
anywhere. -/
structure Quad where
  count : ℕ
  left : ℕ
  pads : ℕ
  padded : Bool
  deriving DecidableEq

/-- The next value of a quad: the byte it completes, and the quad with it. -/
def Quad.push (q : Quad) (v : ℕ) : List UInt8 × Quad :=
  match q.count with
  | 0 => ([], ⟨1, v, 0, q.padded⟩)
  | 1 => ([UInt8.ofNat (q.left * 4 + v / 16)], ⟨2, v % 16, 0, q.padded⟩)
  | 2 => ([UInt8.ofNat (q.left * 16 + v / 4)], ⟨3, v % 4, 0, q.padded⟩)
  | _ => ([UInt8.ofNat (q.left * 64 + v)], ⟨0, 0, 0, q.padded⟩)

/-- The decoder from a quad on; `none` is its error. -/
def decodeFrom (strict : Bool) : Quad → List ℕ → Option (List UInt8)
  | q, [] => if q.count = 0 then some [] else none
  | q, c :: r =>
    if c = 61 then
      if strict && q.count == 0 then none
      else if 2 ≤ q.count then
        if 4 ≤ q.count + (q.pads + 1) then if strict && !r.isEmpty then none else some []
        else decodeFrom strict ⟨q.count, q.left, q.pads + 1, true⟩ r
      else decodeFrom strict ⟨q.count, q.left, q.pads, true⟩ r
    else
      match val64 c with
      | none => if strict then none else decodeFrom strict q r
      | some v =>
        if strict && q.padded then none
        else (decodeFrom strict (q.push v).2 r).map ((q.push v).1 ++ ·)

def Quad.empty : Quad := ⟨0, 0, 0, false⟩

/-- `b64decode` with `validate=strict`: a text with a character outside ASCII is refused. -/
def decode (strict : Bool) (s : List ℕ) : Option (List UInt8) :=
  if s.all (· < 128) then decodeFrom strict .empty s else none

/-- A character of the alphabet for addresses. -/
def toUrlsafe (c : ℕ) : ℕ := if c = 43 then 45 else if c = 47 then 95 else c

def ofUrlsafe (c : ℕ) : ℕ := if c = 45 then 43 else if c = 95 then 47 else c

/-- `urlsafe_b64encode`. -/
def urlsafeEncode (bs : List UInt8) : List ℕ := (encode bs).map toUrlsafe

/-- `urlsafe_b64decode`. -/
def urlsafeDecode (s : List ℕ) : Option (List UInt8) := decode false (s.map ofUrlsafe)

/-! ## The alphabet -/

theorem char64_spec {v : ℕ} (h : v < 64) :
    val64 (char64 v) = some v ∧ char64 v ≠ 61 ∧ char64 v < 128 ∧ 33 ≤ char64 v ∧
      ofUrlsafe (toUrlsafe (char64 v)) = char64 v ∧ toUrlsafe (char64 v) ≠ 61 ∧
      toUrlsafe (char64 v) ≠ 46 := by
  have : ∀ v < 64, val64 (char64 v) = some v ∧ char64 v ≠ 61 ∧ char64 v < 128 ∧ 33 ≤ char64 v ∧
      ofUrlsafe (toUrlsafe (char64 v)) = char64 v ∧ toUrlsafe (char64 v) ≠ 61 ∧
      toUrlsafe (char64 v) ≠ 46 := by decide
  exact this v h

/-- A text of the encoder: characters of the alphabet and padding. -/
theorem mem_encode {bs : List UInt8} {c : ℕ} (hc : c ∈ encode bs) : c = 61 ∨ ∃ v < 64, c = char64 v := by
  induction bs using encode.induct with
  | case1 a b d r ih =>
    have ha := a.toNat_lt
    have hb := b.toNat_lt
    have hd := d.toNat_lt
    simp only [encode, List.mem_cons] at hc
    rcases hc with rfl | rfl | rfl | rfl | hc
    · exact .inr ⟨_, by omega, rfl⟩
    · exact .inr ⟨_, by omega, rfl⟩
    · exact .inr ⟨_, by omega, rfl⟩
    · exact .inr ⟨_, by omega, rfl⟩
    · exact ih hc
  | case2 a b =>
    have ha := a.toNat_lt
    have hb := b.toNat_lt
    simp only [encode, List.mem_cons, List.not_mem_nil, or_false] at hc
    rcases hc with rfl | rfl | rfl | rfl
    · exact .inr ⟨_, by omega, rfl⟩
    · exact .inr ⟨_, by omega, rfl⟩
    · exact .inr ⟨_, by omega, rfl⟩
    · exact .inl rfl
  | case3 a =>
    have ha := a.toNat_lt
    simp only [encode, List.mem_cons, List.not_mem_nil, or_false] at hc
    rcases hc with rfl | rfl | rfl | rfl
    · exact .inr ⟨_, by omega, rfl⟩
    · exact .inr ⟨_, by omega, rfl⟩
    · exact .inl rfl
    · exact .inl rfl
  | case4 => cases hc

theorem encode_ascii {bs : List UInt8} {c : ℕ} (hc : c ∈ encode bs) : 33 ≤ c ∧ c < 128 := by
  rcases mem_encode hc with rfl | ⟨v, hv, rfl⟩
  · decide
  · exact ⟨(char64_spec hv).2.2.2.1, (char64_spec hv).2.2.1⟩

/-! ## Decoding what was encoded -/

/-- One character of the alphabet. -/
theorem decodeFrom_char64 {strict : Bool} {q : Quad} (hq : q.padded = false) {v : ℕ} (hv : v < 64)
    (r : List ℕ) :
    decodeFrom strict q (char64 v :: r)
      = (decodeFrom strict (q.push v).2 r).map ((q.push v).1 ++ ·) := by
  obtain ⟨hval, hpad, -⟩ := char64_spec hv
  rw [decodeFrom, if_neg hpad, hval]
  simp only [hq, Bool.and_false, Bool.false_eq_true, if_false]

/-- Three bytes are four characters. -/
theorem length_encode (bs : List UInt8) : (encode bs).length = 4 * ((bs.length + 2) / 3) := by
  fun_induction encode bs with
  | case1 a b c r ih =>
    simp only [List.length_cons, ih]
    omega
  | case2 a b => simp
  | case3 a => simp
  | case4 => rfl

theorem ofNat_toNat (a : UInt8) {n : ℕ} (h : n = a.toNat) : UInt8.ofNat n = a := by
  rw [h, UInt8.ofNat_toNat]

theorem decodeFrom_encode (strict : Bool) (bs : List UInt8) :
    decodeFrom strict .empty (encode bs) = some bs := by
  induction bs using encode.induct with
  | case1 a b c r ih =>
    have ha := a.toNat_lt
    have hb := b.toNat_lt
    have hc := c.toNat_lt
    rw [encode, decodeFrom_char64 rfl (by omega), decodeFrom_char64 rfl (by omega),
      decodeFrom_char64 rfl (by omega), decodeFrom_char64 rfl (by omega)]
    simp only [Quad.empty, Quad.push] at ih ⊢
    rw [ih]
    simp only [Option.map_some, List.cons_append, List.nil_append, Option.some.injEq, List.cons.injEq,
      and_true]
    refine ⟨ofNat_toNat a ?_, ofNat_toNat b ?_, ofNat_toNat c ?_⟩ <;> omega
  | case2 a b =>
    have ha := a.toNat_lt
    have hb := b.toNat_lt
    rw [encode, decodeFrom_char64 rfl (by omega), decodeFrom_char64 rfl (by omega),
      decodeFrom_char64 rfl (by omega)]
    simp only [Quad.empty, Quad.push, decodeFrom, if_true]
    simp only [Nat.reduceLeDiff, Nat.reduceBEq, Bool.and_false, Bool.false_eq_true, if_false,
      if_true, List.isEmpty_nil, Bool.not_true, Nat.zero_add, Nat.reduceAdd, le_refl, Option.map_some,
      List.cons_append, List.nil_append, Option.some.injEq, List.cons.injEq, and_true]
    refine ⟨ofNat_toNat a ?_, ofNat_toNat b ?_⟩ <;> omega
  | case3 a =>
    have ha := a.toNat_lt
    rw [encode, decodeFrom_char64 rfl (by omega), decodeFrom_char64 rfl (by omega)]
    simp only [Quad.empty, Quad.push, decodeFrom, if_true]
    simp only [Nat.reduceLeDiff, Nat.reduceBEq, Bool.and_false, Bool.false_eq_true, if_false,
      if_true, List.isEmpty_nil, Bool.not_true, Nat.zero_add, Nat.reduceAdd, le_refl, Option.map_some,
      List.cons_append, List.nil_append, Option.some.injEq, List.cons.injEq, and_true]
    exact ofNat_toNat a (by omega)
  | case4 => rfl

/-- **Decoding undoes encoding**, in both modes. -/
theorem decode_encode (strict : Bool) (bs : List UInt8) : decode strict (encode bs) = some bs := by
  rw [decode, if_pos, decodeFrom_encode]
  rw [List.all_eq_true]
  intro c hc
  exact decide_eq_true (encode_ascii hc).2

/-! ## The alphabet for addresses -/

theorem mem_urlsafeEncode {bs : List UInt8} {c : ℕ} (hc : c ∈ urlsafeEncode bs) : c < 128 ∧ c ≠ 46 := by
  obtain ⟨d, hd, rfl⟩ := List.mem_map.mp hc
  rcases mem_encode hd with rfl | ⟨v, hv, rfl⟩
  · decide
  · have : ∀ v < 64, toUrlsafe (char64 v) < 128 := by decide
    exact ⟨this v hv, (char64_spec hv).2.2.2.2.2.2⟩

theorem ofUrlsafe_toUrlsafe {bs : List UInt8} {c : ℕ} (hc : c ∈ encode bs) :
    ofUrlsafe (toUrlsafe c) = c := by
  rcases mem_encode hc with rfl | ⟨v, hv, rfl⟩
  · decide
  · exact (char64_spec hv).2.2.2.2.1

/-- The decoder reads the alphabet for addresses. -/
theorem urlsafeDecode_urlsafeEncode (bs : List UInt8) : urlsafeDecode (urlsafeEncode bs) = some bs := by
  have hmap : (urlsafeEncode bs).map ofUrlsafe = encode bs := by
    rw [urlsafeEncode, List.map_map]
    calc (encode bs).map (ofUrlsafe ∘ toUrlsafe)
      _ = (encode bs).map id := List.map_congr_left fun c hc => ofUrlsafe_toUrlsafe hc
      _ = encode bs := List.map_id _
  rw [urlsafeDecode, hmap, decode_encode]

/-! ## Texts without their padding -/

/-- `s.rstrip("=")`. -/
def stripPadding (s : List ℕ) : List ℕ := (s.reverse.dropWhile (· == 61)).reverse

/-- `s + "=" * (-len(s) % 4)`. -/
def restorePadding (s : List ℕ) : List ℕ := s ++ List.replicate (-(s.length : ℤ) % 4).toNat 61

theorem mem_stripPadding {s : List ℕ} {c : ℕ} (hc : c ∈ stripPadding s) : c ∈ s :=
  List.mem_reverse.mp ((List.dropWhile_sublist _).subset (List.mem_reverse.mp hc))

theorem stripPadding_append {s : List ℕ} (h : ∀ c ∈ s, c ≠ 61) (k : ℕ) :
    stripPadding (s ++ List.replicate k 61) = s := by
  have hs : s.reverse.dropWhile (· == 61) = s.reverse := by
    rcases hr : s.reverse with _ | ⟨c, t⟩
    · rfl
    · have hc : c ≠ 61 := h c (List.mem_reverse.mp (hr ▸ List.mem_cons_self))
      rw [List.dropWhile_cons_of_neg]
      simpa using hc
  rw [stripPadding, List.reverse_append, List.reverse_replicate, List.dropWhile_append_of_pos (by simp),
    hs, List.reverse_reverse]

/-- An encoded text: characters of the alphabet, and the padding that completes the last quad. -/
theorem encode_eq_append (bs : List UInt8) :
    ∃ body k, encode bs = body ++ List.replicate k 61 ∧ (∀ c ∈ body, ∃ v < 64, c = char64 v) ∧
      (body.length + k) % 4 = 0 ∧ k < 4 := by
  induction bs using encode.induct with
  | case1 a b c r ih =>
    obtain ⟨body, k, hr, hbody, hlength, hk⟩ := ih
    have ha := a.toNat_lt
    have hb := b.toNat_lt
    have hc := c.toNat_lt
    refine ⟨char64 (a.toNat / 4) :: char64 (a.toNat % 4 * 16 + b.toNat / 16)
      :: char64 (b.toNat % 16 * 4 + c.toNat / 64) :: char64 (c.toNat % 64) :: body, k, ?_, ?_, ?_, hk⟩
    · rw [encode, hr]
      rfl
    · simp only [List.forall_mem_cons]
      exact ⟨⟨_, by omega, rfl⟩, ⟨_, by omega, rfl⟩, ⟨_, by omega, rfl⟩, ⟨_, by omega, rfl⟩, hbody⟩
    · simp only [List.length_cons]
      omega
  | case2 a b =>
    have ha := a.toNat_lt
    have hb := b.toNat_lt
    refine ⟨[char64 (a.toNat / 4), char64 (a.toNat % 4 * 16 + b.toNat / 16), char64 (b.toNat % 16 * 4)],
      1, rfl, ?_, by simp, by decide⟩
    simp only [List.forall_mem_cons]
    exact ⟨⟨_, by omega, rfl⟩, ⟨_, by omega, rfl⟩, ⟨_, by omega, rfl⟩, List.forall_mem_nil _⟩
  | case3 a =>
    have ha := a.toNat_lt
    refine ⟨[char64 (a.toNat / 4), char64 (a.toNat % 4 * 16)], 2, rfl, ?_, by simp, by decide⟩
    simp only [List.forall_mem_cons]
    exact ⟨⟨_, by omega, rfl⟩, ⟨_, by omega, rfl⟩, List.forall_mem_nil _⟩
  | case4 => exact ⟨[], 0, rfl, List.forall_mem_nil _, rfl, by decide⟩

/-- The padding that was taken off is put back: its length is that of the rest of the last quad. -/
theorem restorePadding_stripPadding (bs : List UInt8) :
    restorePadding (stripPadding (urlsafeEncode bs)) = urlsafeEncode bs := by
  obtain ⟨body, k, henc, hbody, hlength, hk⟩ := encode_eq_append bs
  have hurl : urlsafeEncode bs = body.map toUrlsafe ++ List.replicate k 61 := by
    rw [urlsafeEncode, henc, List.map_append, List.map_replicate]
    rfl
  have hpad : ∀ c ∈ body.map toUrlsafe, c ≠ 61 := by
    intro c hc
    obtain ⟨d, hd, rfl⟩ := List.mem_map.mp hc
    obtain ⟨v, hv, rfl⟩ := hbody d hd
    exact (char64_spec hv).2.2.2.2.2.1
  have hk' : (-(body.length : ℤ) % 4).toNat = k := by omega
  rw [hurl, stripPadding_append hpad, restorePadding, List.length_map, hk']

/-- **Decoding undoes encoding** without the padding. -/
theorem urlsafeDecode_restorePadding (bs : List UInt8) :
    urlsafeDecode (restorePadding (stripPadding (urlsafeEncode bs))) = some bs := by
  rw [restorePadding_stripPadding, urlsafeDecode_urlsafeEncode]

end HardwareTest.Lib.Base64
