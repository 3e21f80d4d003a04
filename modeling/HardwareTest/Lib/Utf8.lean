import Mathlib

/-!
# UTF-8 decoding with replacement, one byte at a time

A decoder that never fails: a maximal prefix of a character that cannot be completed becomes one
U+FFFD, and the byte that broke it is read again as a first byte.  The decoder is a machine, so what
it emits for a prefix of the input is a prefix of what it emits for the whole input; only the
replacement character of an unfinished last character depends on where the input was cut.

* `decode_eq` — decoding is emitting, then flushing;
* `decode_append_ascii` — an ASCII byte splits the text at the same place as the bytes;
* `decode_encode` — decoding undoes encoding;
* `feed_of_prefix_encode` — a prefix of an encoded text holds some of its characters and, when it is
  cut inside the next one, an unfinished rest.
-/

namespace HardwareTest.Lib.Utf8

/-- U+FFFD, the replacement character. -/
def replacement : Char := Char.ofNat 0xFFFD

/-- Where the decoder stands: between characters, or with `need` continuation bytes of a character
still to come, the next of them between `low` and `high`, and `acc` the bits read so far. -/
inductive State
  | start
  | inside (need low high acc : ℕ)
  deriving DecidableEq

/-- The decoder's answer to a first byte. -/
def first (b : ℕ) : List Char × State :=
  if b ≤ 0x7F then ([Char.ofNat b], .start)
  else if 0xC2 ≤ b ∧ b ≤ 0xDF then ([], .inside 1 0x80 0xBF (b - 0xC0))
  else if b = 0xE0 then ([], .inside 2 0xA0 0xBF 0)
  else if b = 0xED then ([], .inside 2 0x80 0x9F 0xD)
  else if 0xE1 ≤ b ∧ b ≤ 0xEF then ([], .inside 2 0x80 0xBF (b - 0xE0))
  else if b = 0xF0 then ([], .inside 3 0x90 0xBF 0)
  else if 0xF1 ≤ b ∧ b ≤ 0xF3 then ([], .inside 3 0x80 0xBF (b - 0xF0))
  else if b = 0xF4 then ([], .inside 3 0x80 0x8F 4)
  else ([replacement], .start)

/-- One byte: the characters it completes and the state after it. -/
def step : State → UInt8 → List Char × State
  | .start, b => first b.toNat
  | .inside need low high acc, b =>
    if low ≤ b.toNat ∧ b.toNat ≤ high then
      if need = 1 then ([Char.ofNat (acc * 64 + (b.toNat - 0x80))], .start)
      else ([], .inside (need - 1) 0x80 0xBF (acc * 64 + (b.toNat - 0x80)))
    else (replacement :: (first b.toNat).1, (first b.toNat).2)

/-- The characters completed by a sequence of bytes, and the state after it. -/
def feed : State → List UInt8 → List Char × State
  | q, [] => ([], q)
  | q, b :: bs => ((step q b).1 ++ (feed (step q b).2 bs).1, (feed (step q b).2 bs).2)

/-- What the end of the input adds: an unfinished character is one replacement character. -/
def flush : State → List Char
  | .start => []
  | .inside .. => [replacement]

/-- `bytes.decode(errors="replace")`. -/
def decode (bs : List UInt8) : List Char :=
  (feed .start bs).1 ++ flush (feed .start bs).2

/-- `str.encode()`. -/
def encode (s : List Char) : List UInt8 :=
  s.flatMap String.utf8EncodeChar

@[simp] theorem feed_nil (q : State) : feed q [] = ([], q) := rfl

theorem feed_cons (q : State) (b : UInt8) (bs : List UInt8) :
    feed q (b :: bs)
      = ((step q b).1 ++ (feed (step q b).2 bs).1, (feed (step q b).2 bs).2) := rfl

/-- Feeding two parts is feeding the first, then the second. -/
theorem feed_append (q : State) (as bs : List UInt8) :
    feed q (as ++ bs)
      = ((feed q as).1 ++ (feed (feed q as).2 bs).1, (feed (feed q as).2 bs).2) := by
  induction as generalizing q with
  | nil => rfl
  | cons a as ih => simp only [List.cons_append, feed_cons, ih, List.append_assoc]

theorem decode_eq (bs : List UInt8) :
    decode bs = (feed .start bs).1 ++ flush (feed .start bs).2 := rfl

@[simp] theorem decode_nil : decode [] = [] := rfl

/-- What is emitted for a prefix of the input is emitted for the whole input. -/
theorem emitted_isPrefix (as bs : List UInt8) :
    (feed .start as).1 <+: (feed .start (as ++ bs)).1 := by
  rw [feed_append]
  exact List.prefix_append _ _

/-! ## ASCII bytes -/

/-- An ASCII byte ends whatever came before it and stands for itself. -/
theorem step_ascii (q : State) (b : UInt8) (hb : b.toNat ≤ 0x7F)
    (hq : ∀ n l h a, q = .inside n l h a → 0x80 ≤ l) :
    step q b = (flush q ++ [Char.ofNat b.toNat], .start) := by
  cases q with
  | start => simp [step, first, hb, flush]
  | inside need low high acc =>
    have hlow := hq need low high acc rfl
    have hne : ¬(low ≤ b.toNat ∧ b.toNat ≤ high) := by omega
    simp [step, first, hb, flush, hne]

/-- The continuation bytes a state waits for are never ASCII. -/
def State.Above : State → Prop
  | .start => True
  | .inside need low _ _ => 0x80 ≤ low ∧ 1 ≤ need

theorem first_above (b : ℕ) : (first b).2.Above := by
  unfold first
  split_ifs <;> simp [State.Above]

theorem step_above {q : State} (b : UInt8) (hq : q.Above) : (step q b).2.Above := by
  cases q with
  | start => exact first_above _
  | inside need low high acc =>
    obtain ⟨_, hneed⟩ := hq
    simp only [step]
    split_ifs with h₁ h₂
    · trivial
    · exact ⟨le_refl _, by show 1 ≤ need - 1; omega⟩
    · exact first_above _

theorem feed_above {q : State} (bs : List UInt8) (hq : q.Above) : (feed q bs).2.Above := by
  induction bs generalizing q with
  | nil => exact hq
  | cons b bs ih => exact ih (step_above b hq)

theorem feed_ascii {q : State} (hq : q.Above) (b : UInt8) (hb : b.toNat ≤ 0x7F) :
    step q b = (flush q ++ [Char.ofNat b.toNat], .start) := by
  apply step_ascii q b hb
  intro n l h a hqe
  subst hqe
  exact hq.1

/-- **ASCII bytes split the text.**  Decoding around an ASCII byte is decoding both sides. -/
theorem decode_append_ascii (as bs : List UInt8) (b : UInt8) (hb : b.toNat ≤ 0x7F) :
    decode (as ++ b :: bs) = decode as ++ Char.ofNat b.toNat :: decode bs := by
  have habove : (feed .start as).2.Above := feed_above (q := .start) as trivial
  simp only [decode, feed_append, feed_cons, feed_ascii habove b hb, List.append_assoc,
    List.cons_append, List.nil_append]

/-! ## Encoded characters -/

/-- From state `q`, the bytes complete `c` with the last of them and stay inside it before that. -/
def Spells : State → List UInt8 → Char → Prop
  | _, [], _ => False
  | q, [b], c => step q b = ([c], .start)
  | q, b :: b' :: bs, c =>
    ∃ n l h a, step q b = ([], .inside n l h a) ∧ Spells (.inside n l h a) (b' :: bs) c

theorem Spells.feed {bs : List UInt8} {q : State} {c : Char} (h : Spells q bs c) :
    feed q bs = ([c], .start) := by
  induction bs generalizing q with
  | nil => exact h.elim
  | cons b bs ih =>
    cases bs with
    | nil =>
      have hs : step q b = ([c], .start) := h
      simp [feed_cons, hs]
    | cons b' bs =>
      obtain ⟨n, l, hi, a, hs, hrest⟩ := h
      rw [feed_cons, hs, ih hrest]
      rfl

/-- A proper part of a character leaves the decoder inside it, with nothing emitted. -/
theorem Spells.feed_part {bs p : List UInt8} {q : State} {c : Char} (h : Spells q bs c)
    (hp : p <+: bs) (hne : p ≠ []) (hfull : p ≠ bs) :
    ∃ n l hi a, Utf8.feed q p = ([], .inside n l hi a) := by
  induction bs generalizing q p with
  | nil => exact h.elim
  | cons b bs ih =>
    obtain rfl | ⟨p', rfl, hp'⟩ := List.prefix_cons_iff.mp hp
    · exact absurd rfl hne
    cases bs with
    | nil =>
      rw [List.prefix_nil.mp hp'] at hfull
      exact absurd rfl hfull
    | cons b' bs =>
      obtain ⟨n, l, hi, a, hs, hrest⟩ := h
      rcases eq_or_ne p' [] with rfl | hne'
      · exact ⟨n, l, hi, a, by simp [feed_cons, hs]⟩
      · obtain ⟨n', l', hi', a', hf⟩ := ih hrest hp' hne' (fun heq => hfull (by rw [heq]))
        exact ⟨n', l', hi', a', by rw [feed_cons, hs, hf]; rfl⟩

theorem toNat_ofNat_of_lt {n : ℕ} (h : n < 256) : (UInt8.ofNat n).toNat = n := by
  rw [UInt8.toNat_ofNat']
  exact Nat.mod_eq_of_lt h

/-- The last continuation byte completes the character. -/
theorem step_last {low high acc b : ℕ} (hb : low ≤ b + 0x80 ∧ b + 0x80 ≤ high) (hlt : b < 64) :
    step (.inside 1 low high acc) (UInt8.ofNat (b + 0x80))
      = ([Char.ofNat (acc * 64 + b)], .start) := by
  have h := toNat_ofNat_of_lt (n := b + 0x80) (by omega)
  rw [step, h, if_pos hb, if_pos rfl, Nat.add_sub_cancel]

/-- An earlier continuation byte adds its six bits. -/
theorem step_more {need low high acc b : ℕ} (hb : low ≤ b + 0x80 ∧ b + 0x80 ≤ high) (hlt : b < 64)
    (hneed : need ≠ 1) :
    step (.inside need low high acc) (UInt8.ofNat (b + 0x80))
      = ([], .inside (need - 1) 0x80 0xBF (acc * 64 + b)) := by
  have h := toNat_ofNat_of_lt (n := b + 0x80) (by omega)
  rw [step, h, if_pos hb, if_neg hneed, Nat.add_sub_cancel]

theorem step_first {n : ℕ} (h : n < 256) : step .start (UInt8.ofNat n) = first n := by
  rw [step, toNat_ofNat_of_lt h]

theorem first_two {b : ℕ} (h : 2 ≤ b ∧ b ≤ 0x1F) :
    first (b + 0xC0) = ([], .inside 1 0x80 0xBF b) := by
  rw [first, if_neg (by omega), if_pos (by omega), Nat.add_sub_cancel]

/-- A first byte of three: the range left for the second byte rules out overlong forms and
surrogates. -/
theorem first_three {b : ℕ} (h : b ≤ 0xF) :
    first (b + 0xE0) = ([], .inside 2 (if b = 0 then 0xA0 else 0x80) (if b = 0xD then 0x9F else 0xBF)
      b) := by
  interval_cases b <;> rfl

/-- A first byte of four: the range left for the second byte rules out overlong forms and values
past the last code point. -/
theorem first_four {b : ℕ} (h : b ≤ 4) :
    first (b + 0xF0) = ([], .inside 3 (if b = 0 then 0x90 else 0x80) (if b = 4 then 0x8F else 0xBF)
      b) := by
  interval_cases b <;> rfl

/-- The encoding of a character spells that character. -/
theorem spells_encodeChar (c : Char) : Spells .start (String.utf8EncodeChar c) c := by
  have hc : Char.ofNat c.val.toNat = c := Char.ofNat_toNat c
  have hvalid : c.val.toNat < 0xD800 ∨ (0xDFFF < c.val.toNat ∧ c.val.toNat < 0x110000) := c.valid
  generalize hv : c.val.toNat = v at hc hvalid
  unfold String.utf8EncodeChar
  simp only [hv]
  split_ifs with h₁ h₂ h₃
  · show step .start (UInt8.ofNat v) = ([c], .start)
    rw [step_first (by omega), first, if_pos h₁, hc]
  · refine ⟨_, _, _, _, by rw [step_first (by omega), first_two (by omega)], ?_⟩
    show step _ _ = ([c], .start)
    rw [step_last (by omega) (by omega), show v / 64 % 32 * 64 + v % 64 = v by omega, hc]
  · refine ⟨_, _, _, _, by rw [step_first (by omega), first_three (by omega)], ?_⟩
    refine ⟨_, _, _, _, step_more (by split_ifs <;> omega) (by omega) (by omega), ?_⟩
    show step _ _ = ([c], .start)
    rw [step_last (by omega) (by omega),
      show (v / 4096 % 16 * 64 + v / 64 % 64) * 64 + v % 64 = v by omega, hc]
  · refine ⟨_, _, _, _, by rw [step_first (by omega), first_four (by omega)], ?_⟩
    refine ⟨_, _, _, _, step_more (by split_ifs <;> omega) (by omega) (by omega), ?_⟩
    refine ⟨_, _, _, _, step_more (by omega) (by omega) (by omega), ?_⟩
    show step _ _ = ([c], .start)
    rw [step_last (by omega) (by omega),
      show ((v / 262144 % 8 * 64 + v / 4096 % 64) * 64 + v / 64 % 64) * 64 + v % 64 = v by omega, hc]

theorem encode_cons (c : Char) (s : List Char) :
    encode (c :: s) = String.utf8EncodeChar c ++ encode s := rfl

@[simp] theorem encode_nil : encode [] = [] := rfl

theorem encode_append (s t : List Char) : encode (s ++ t) = encode s ++ encode t := by
  simp [encode]

theorem feed_encode (s : List Char) : feed .start (encode s) = (s, .start) := by
  induction s with
  | nil => rfl
  | cons c s ih => rw [encode_cons, feed_append, (spells_encodeChar c).feed, ih]; rfl

/-- **Decoding undoes encoding.** -/
@[simp] theorem decode_encode (s : List Char) : decode (encode s) = s := by
  rw [decode_eq, feed_encode]
  exact List.append_nil s

theorem encode_injective : Function.Injective encode := fun s t h => by
  rw [← decode_encode s, h, decode_encode]

/-- **A prefix of an encoded text.**  It ends between characters, or it is cut inside the next
character and the decoder waits for the rest of that one. -/
theorem feed_of_prefix_encode (s : List Char) (p : List UInt8) (hp : p <+: encode s) :
    (∃ t, t <+: s ∧ p = encode t) ∨
      ∃ t c r n l h a, s = t ++ c :: r ∧ feed .start p = (t, .inside n l h a) ∧
        (encode t).length < p.length ∧ p.length < (encode t).length + c.utf8Size := by
  induction s generalizing p with
  | nil => exact .inl ⟨[], List.prefix_refl _, List.prefix_nil.mp hp⟩
  | cons c s ih =>
    rw [encode_cons] at hp
    rcases List.prefix_or_prefix_of_prefix hp (List.prefix_append (String.utf8EncodeChar c) _) with
      hcut | ⟨p', rfl⟩
    · rcases eq_or_ne p [] with rfl | hne
      · exact .inl ⟨[], List.nil_prefix, rfl⟩
      rcases eq_or_ne p (String.utf8EncodeChar c) with rfl | hfull
      · exact .inl ⟨[c], by simp, by simp [encode]⟩
      · obtain ⟨n, l, h, a, hf⟩ := (spells_encodeChar c).feed_part hcut hne hfull
        refine .inr ⟨[], c, s, n, l, h, a, rfl, hf, List.length_pos_iff.mpr hne, ?_⟩
        rw [← String.length_utf8EncodeChar, encode_nil, List.length_nil, Nat.zero_add]
        exact lt_of_le_of_ne hcut.length_le fun heq => hfull (hcut.eq_of_length heq)
    · rcases ih p' ((List.prefix_append_right_inj _).mp hp) with
        ⟨t, ht, rfl⟩ | ⟨t, d, r, n, l, h, a, rfl, hf, hlo, hhi⟩
      · exact .inl ⟨c :: t, (List.prefix_cons_inj c).mpr ht, rfl⟩
      · refine .inr ⟨c :: t, d, r, n, l, h, a, rfl, ?_, ?_, ?_⟩
        · rw [feed_append, (spells_encodeChar c).feed, hf]
          rfl
        · simpa [encode_cons] using hlo
        · simp only [encode_cons, List.length_append]
          omega

/-! ## Which bytes a character comes from -/

/-- The characters an unfinished character can become: scalar values above ASCII. -/
def State.Within : State → Prop
  | .start => True
  | .inside need low high acc =>
    (need = 1 ∨ need = 2 ∨ need = 3) ∧ 0x80 ≤ low ∧ high ≤ 0xBF ∧
      0x80 ≤ acc * 64 ^ need + (low - 0x80) * 64 ^ (need - 1) ∧
      acc * 64 ^ need + (high - 0x80) * 64 ^ (need - 1) + (64 ^ (need - 1) - 1) < 0x110000 ∧
      (acc * 64 ^ need + (high - 0x80) * 64 ^ (need - 1) + (64 ^ (need - 1) - 1) < 0xD800 ∨
        0xDFFF < acc * 64 ^ need + (low - 0x80) * 64 ^ (need - 1))

theorem first_within (b : ℕ) : (first b).2.Within := by
  unfold first
  split_ifs <;> simp [State.Within]
  all_goals omega

theorem step_within {q : State} (b : UInt8) (hq : q.Within) : (step q b).2.Within := by
  cases q with
  | start => exact first_within _
  | inside need low high acc =>
    obtain ⟨hneed, hlow, hhigh, hlo, hhi, hgap⟩ := hq
    simp only [step]
    split_ifs with hb hone
    · trivial
    · rcases hneed with rfl | rfl | rfl
      · exact absurd rfl hone
      · norm_num at hlo hhi hgap
        simp only [State.Within]
        norm_num
        omega
      · norm_num at hlo hhi hgap
        simp only [State.Within]
        norm_num
        omega
    · exact first_within _

theorem toNat_ofNat_of_scalar {v : ℕ} (h : v < 0xD800 ∨ (0xDFFF < v ∧ v < 0x110000)) :
    (Char.ofNat v).toNat = v := by
  rw [Char.ofNat, dif_pos h]
  rfl

theorem toNat_replacement : replacement.toNat = 0xFFFD := rfl

/-- A byte above ASCII completes only characters above ASCII. -/
theorem step_above_ascii {q : State} (hq : q.Within) {b : UInt8} (hb : 0x7F < b.toNat) :
    ∀ c ∈ (step q b).1, 0x7F < c.toNat := by
  have hfirst : ∀ c ∈ (first b.toNat).1, 0x7F < c.toNat := by
    unfold first
    split_ifs <;> simp [toNat_replacement]
    omega
  cases q with
  | start => exact hfirst
  | inside need low high acc =>
    obtain ⟨hneed, hlow, hhigh, hlo, hhi, hgap⟩ := hq
    simp only [step]
    split_ifs with hrange hone
    · intro c hc
      rw [List.mem_singleton.mp hc]
      subst hone
      norm_num at hlo hhi hgap
      rw [toNat_ofNat_of_scalar (by omega)]
      omega
    · simp
    · intro c hc
      rcases List.mem_cons.mp hc with rfl | hc
      · rw [toNat_replacement]
        omega
      · exact hfirst c hc

theorem feed_above_ascii {bs : List UInt8} {q : State} (hq : q.Within)
    (hbs : ∀ b ∈ bs, 0x7F < b.toNat) : ∀ c ∈ (feed q bs).1, 0x7F < c.toNat := by
  induction bs generalizing q with
  | nil => simp
  | cons b bs ih =>
    intro c hc
    rcases List.mem_append.mp hc with hc | hc
    · exact step_above_ascii hq (hbs b List.mem_cons_self) c hc
    · exact ih (step_within b hq) (fun d hd => hbs d (List.mem_cons_of_mem b hd)) c hc

theorem decode_above_ascii {bs : List UInt8} (hbs : ∀ b ∈ bs, 0x7F < b.toNat) :
    ∀ c ∈ decode bs, 0x7F < c.toNat := by
  intro c hc
  rcases List.mem_append.mp hc with hc | hc
  · exact feed_above_ascii (q := .start) trivial hbs c hc
  · cases hstate : (feed .start bs).2 with
    | start => simp [hstate, flush] at hc
    | inside =>
      rw [hstate] at hc
      rw [List.mem_singleton.mp hc, toNat_replacement]
      omega

/-- **An ASCII character of the text is an ASCII byte of the input**, and it splits the input at the
same place as the text. -/
theorem decode_eq_append_ascii {bs : List UInt8} {u v : List Char} {c : Char} (hc : c.toNat ≤ 0x7F)
    (h : decode bs = u ++ c :: v) :
    ∃ as b cs, bs = as ++ b :: cs ∧ Char.ofNat b.toNat = c ∧ b.toNat ≤ 0x7F ∧ decode as = u ∧
      decode cs = v := by
  induction hlen : bs.length using Nat.strong_induction_on generalizing bs u with
  | _ n ih =>
    by_cases hall : ∀ b ∈ bs, 0x7F < b.toNat
    · have hmem := decode_above_ascii hall c (by rw [h]; simp)
      omega
    · -- the input up to its first ASCII byte holds only characters above ASCII
      have hsplit : ∃ as b cs, bs = as ++ b :: cs ∧ (∀ a ∈ as, 0x7F < a.toNat) ∧ b.toNat ≤ 0x7F := by
        have hsome : (bs.find? fun b => decide (b.toNat ≤ 0x7F)).isSome := by
          rw [List.find?_isSome]
          push Not at hall
          simpa using hall
        obtain ⟨b, hb⟩ := Option.isSome_iff_exists.mp hsome
        obtain ⟨hp, as, cs, hbs, hall'⟩ := List.find?_eq_some_iff_append.mp hb
        exact ⟨as, b, cs, hbs, fun a ha => by simpa using hall' a ha, by simpa using hp⟩
      obtain ⟨as, b, cs, rfl, has, hb⟩ := hsplit
      rw [decode_append_ascii as cs b hb] at h
      rcases List.append_eq_append_iff.mp h with ⟨t, hu, ht⟩ | ⟨t, hd, ht⟩
      · cases t with
        | nil =>
          rw [List.append_nil] at hu
          obtain ⟨hchar, hv⟩ := List.cons.inj ht
          exact ⟨as, b, cs, rfl, hchar, hb, hu.symm, hv⟩
        | cons d t =>
          obtain ⟨hd, ht⟩ := List.cons.inj ht
          obtain ⟨as', b', cs', rfl, hchar, hb', hu', hv'⟩ := ih _ (by simp [← hlen]; omega) ht rfl
          refine ⟨as ++ b :: as', b', cs', by simp, hchar, hb', ?_, hv'⟩
          rw [decode_append_ascii as as' b hb, hu', hu, hd]
      · cases t with
        | nil =>
          obtain ⟨hchar, hv⟩ := List.cons.inj ht
          exact ⟨as, b, cs, rfl, hchar.symm, hb, by simpa using hd, hv.symm⟩
        | cons d t =>
          have hmem := decode_above_ascii has c (by rw [hd, (List.cons.inj ht).1]; simp)
          omega

/-- A byte that emits nothing leaves a character open. -/
theorem step_ne_nil_start (q : State) (b : UInt8) : step q b ≠ ([], .start) := by
  intro h
  cases q with
  | start =>
    simp only [step, first] at h
    split_ifs at h <;> cases h
  | inside need low high acc =>
    simp only [step] at h
    split_ifs at h <;> cases h

theorem eq_nil_of_feed {bs : List UInt8} {q : State} (h₁ : (feed q bs).1 = [])
    (h₂ : (feed q bs).2 = .start) : q = .start ∧ bs = [] := by
  induction bs generalizing q with
  | nil => exact ⟨h₂, rfl⟩
  | cons b bs ih =>
    rw [feed_cons] at h₁ h₂
    obtain ⟨hemit, hrest⟩ := List.append_eq_nil_iff.mp h₁
    obtain ⟨hstart, -⟩ := ih hrest h₂
    exact absurd (Prod.ext hemit hstart) (step_ne_nil_start q b)

theorem eq_nil_of_decode {bs : List UInt8} (h : decode bs = []) : bs = [] := by
  obtain ⟨h₁, h₂⟩ := List.append_eq_nil_iff.mp h
  cases hstate : (feed .start bs).2 with
  | start => exact (eq_nil_of_feed h₁ hstate).2
  | inside => simp [hstate, flush] at h₂

/-- After a finished character the rest is decoded on its own. -/
theorem decode_append {as : List UInt8} (h : (feed .start as).2 = .start) (bs : List UInt8) :
    decode (as ++ bs) = decode as ++ decode bs := by
  simp only [decode, feed_append, h, flush, List.append_nil, List.append_assoc]

/-- An ASCII character is its own byte. -/
theorem utf8EncodeChar_ascii {c : Char} {b : UInt8} (hchar : Char.ofNat b.toNat = c)
    (hb : b.toNat ≤ 0x7F) : String.utf8EncodeChar c = [b] := by
  have hval : c.val.toNat = b.toNat := by
    rw [← hchar]
    exact toNat_ofNat_of_scalar (by omega)
  unfold String.utf8EncodeChar
  simp only [hval, if_pos hb]
  simp

/-- An ASCII text occurs in the decoded text only where its bytes occur in the input. -/
theorem infix_of_infix_decode {t : List Char} (ht : ∀ c ∈ t, c.toNat ≤ 0x7F) {bs : List UInt8}
    (h : t <:+: decode bs) : encode t <:+: bs := by
  have hstarts : ∀ t : List Char, (∀ c ∈ t, c.toNat ≤ 0x7F) → ∀ bs : List UInt8, ∀ v,
      decode bs = t ++ v → encode t <+: bs := by
    intro t
    induction t with
    | nil =>
      intro _ bs v _
      exact List.nil_prefix
    | cons c t ih =>
      intro ht bs v hbs
      obtain ⟨as, b, cs, rfl, hchar, hb, hnil, hv⟩ :=
        decode_eq_append_ascii (u := []) (ht c List.mem_cons_self) hbs
      rw [eq_nil_of_decode hnil, List.nil_append, encode_cons]
      rw [utf8EncodeChar_ascii hchar hb]
      exact (List.prefix_cons_inj b).mpr (ih (fun d hd => ht d (List.mem_cons_of_mem c hd)) cs v hv)
  cases t with
  | nil => exact List.nil_infix
  | cons c t =>
    obtain ⟨u, v, huv⟩ := h
    obtain ⟨as, b, cs, rfl, hchar, hb, -, hv⟩ :=
      decode_eq_append_ascii (u := u) (v := t ++ v) (ht c List.mem_cons_self)
        (by rw [← huv]; simp)
    have hpre := hstarts (c :: t) ht (b :: cs) v
      (by rw [show b :: cs = [] ++ b :: cs from rfl, decode_append_ascii [] cs b hb, hv, hchar]; rfl)
    exact hpre.isInfix.trans (List.suffix_append as _).isInfix

/-- An ASCII byte of an encoded text is a character of it. -/
theorem mem_of_mem_encode {s : List Char} {b : UInt8} (hb : b.toNat ≤ 0x7F) (h : b ∈ encode s) :
    Char.ofNat b.toNat ∈ s := by
  obtain ⟨as, bs, hsplit⟩ := List.append_of_mem h
  have hs := decode_encode s
  rw [hsplit, decode_append_ascii as bs b hb] at hs
  rw [← hs]
  simp

/-- The bytes of an ASCII text occur in an encoded text only where it occurs in that text. -/
theorem infix_of_infix_encode {s t : List Char} (ht : ∀ c ∈ t, c.toNat ≤ 0x7F)
    (h : encode t <:+: encode s) : t <:+: s := by
  cases t with
  | nil => exact List.nil_infix
  | cons c t =>
    obtain ⟨u, v, huv⟩ := h
    have hc : c.toNat ≤ 0x7F := ht c List.mem_cons_self
    have hbyte : (UInt8.ofNat c.toNat).toNat = c.toNat := toNat_ofNat_of_lt (by omega)
    have hchar : Char.ofNat (UInt8.ofNat c.toNat).toNat = c := by
      rw [hbyte, Char.ofNat_toNat]
    have hb : (UInt8.ofNat c.toNat).toNat ≤ 0x7F := by
      omega
    have hs : decode (u ++ UInt8.ofNat c.toNat :: (encode t ++ v)) = s := by
      rw [← decode_encode s, ← huv, encode_cons, utf8EncodeChar_ascii hchar hb]
      simp
    have hstart : (feed .start (encode t)).2 = .start := by rw [feed_encode]
    rw [decode_append_ascii _ _ _ hb, hchar, decode_append hstart, decode_encode] at hs
    exact ⟨decode u, decode v, by rw [← hs]; simp⟩

end HardwareTest.Lib.Utf8
