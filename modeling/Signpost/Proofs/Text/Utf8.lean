import Mathlib.Data.List.Induction
import Signpost.Text.Utf8

/-!
# Characters and their bytes

Reading the bytes of a text gives its characters, and bytes that are read without an ill-formed
piece are those of the characters read. So the byte sequences that can be read are the encoded ones.
-/
namespace Signpost.Text.Utf8

/-- The last `n` bytes of the character with code `v`, which hold six bits each. -/
def continuation : Nat → Nat → List UInt8
  | 0, _ => []
  | n + 1, v => UInt8.ofNat (v / Nat.pow 64 n % 64 + 0x80) :: continuation n v

namespace Pending

/-- The character begun may turn out to be the one with code `v`. -/
structure MayBe (p : Pending) (v : Nat) : Prop where
  code : v / Nat.pow 64 p.needed = p.code
  lower : p.lower ≤ v / Nat.pow 64 (p.needed - 1) % 64 + 0x80
  upper : v / Nat.pow 64 (p.needed - 1) % 64 + 0x80 ≤ p.upper

/-- The bytes `begun` are the first ones of every character that this one may be. -/
structure Opens (p : Pending) (begun : List UInt8) : Prop where
  pos : 0 < p.needed
  within : 0x80 ≤ p.lower ∧ p.upper ≤ 0xBF
  encode : ∀ v, p.MayBe v →
    ∃ c : Char, c.toNat = v ∧ String.utf8EncodeChar c = begun ++ continuation p.needed v

/-- The bytes that begin a character beyond ASCII, and what may follow each of them. -/
inductive Lead : Nat → Pending → Prop where
  | two {b : Nat} (lower : 0xC2 ≤ b) (upper : b ≤ 0xDF) : Lead b ⟨1, 0x80, 0xBF, b % 32⟩
  | least : Lead 0xE0 ⟨2, 0xA0, 0xBF, 0⟩
  | three {b : Nat} (lower : 0xE1 ≤ b) (upper : b ≤ 0xEF) (ne : b ≠ 0xED) :
      Lead b ⟨2, 0x80, 0xBF, b % 16⟩
  | surrogates : Lead 0xED ⟨2, 0x80, 0x9F, 13⟩
  | leastFour : Lead 0xF0 ⟨3, 0x90, 0xBF, 0⟩
  | four {b : Nat} (lower : 0xF1 ≤ b) (upper : b ≤ 0xF3) : Lead b ⟨3, 0x80, 0xBF, b % 8⟩
  | greatest : Lead 0xF4 ⟨3, 0x80, 0x8F, 4⟩

theorem Lead.pos {b : Nat} {p : Pending} (h : Lead b p) : 0 < p.needed := by
  cases h <;> simp

theorem Lead.le {b : Nat} {p : Pending} (h : Lead b p) : 0x80 ≤ b := by
  cases h <;> omega

end Pending

namespace Decoder

theorem toNat_continuation (n v : Nat) :
    (UInt8.ofNat (v / Nat.pow 64 n % 64 + 0x80)).toNat = v / Nat.pow 64 n % 64 + 0x80 := by
  rw [UInt8.toNat_ofNat']
  omega

theorem div_pow_succ (n v : Nat) :
    v / Nat.pow 64 (n + 1) * 64 + (v / Nat.pow 64 n % 64 + 0x80) % 64 = v / Nat.pow 64 n := by
  have hpow : Nat.pow 64 (n + 1) = Nat.pow 64 n * 64 := rfl
  rw [hpow, ← Nat.div_div_eq_div_mul]
  omega

theorem step_of_mem {p : Pending} {b : UInt8} (hlower : p.lower ≤ b.toNat)
    (hupper : b.toNat ≤ p.upper) (read : List (Option Char)) :
    step ⟨read, some p⟩ b =
      if p.needed ≤ 1 then ⟨some (Char.ofNat (p.code * 64 + b.toNat % 64)) :: read, none⟩
      else ⟨read, some ⟨p.needed - 1, 0x80, 0xBF, p.code * 64 + b.toNat % 64⟩⟩ := by
  simp [step, hlower, hupper]

/-- The bytes that are missing complete the character. -/
theorem foldl_continuation {p : Pending} {c : Char} (hpos : 0 < p.needed) (h : p.MayBe c.toNat)
    (read : List (Option Char)) :
    (continuation p.needed c.toNat).foldl step ⟨read, some p⟩ = ⟨some c :: read, none⟩ := by
  obtain ⟨needed, lower, upper, code⟩ := p
  obtain ⟨hcode, hlower, hupper⟩ := h
  induction needed generalizing lower upper code with
  | zero => simp at hpos
  | succ n ih =>
    obtain rfl : c.toNat / Nat.pow 64 (n + 1) = code := hcode
    simp only [Nat.add_sub_cancel] at hlower hupper
    rw [← toNat_continuation] at hlower hupper
    rw [continuation, List.foldl_cons, step_of_mem hlower hupper]
    simp only [toNat_continuation, div_pow_succ]
    cases n with
    | zero =>
      have hone : c.toNat / Nat.pow 64 0 = c.toNat := Nat.div_one _
      rw [if_pos (Nat.le_refl _), hone, Char.ofNat_toNat]
      rfl
    | succ n =>
      have hnot : ¬ n + 1 + 1 ≤ 1 := by omega
      rw [if_neg hnot]
      refine ih _ _ _ (by simp) rfl ?_ ?_
      · simp only [Nat.add_sub_cancel]
        omega
      · simp only [Nat.add_sub_cancel]
        omega

theorem first_of_lead {b : Nat} {p : Pending} (h : Pending.Lead b p) (read : List (Option Char)) :
    first read b = ⟨read, some p⟩ := by
  unfold first
  cases h with
  | two lower upper => rw [if_neg (by omega), if_pos (by simp [lower, upper])]
  | least => rfl
  | three lower upper ne =>
    rw [if_neg (by omega), if_neg (by simp; omega), if_neg (by omega), if_neg ne,
      if_pos (by simp [lower, upper])]
  | surrogates => rfl
  | leastFour => rfl
  | four lower upper =>
    rw [if_neg (by omega), if_neg (by simp; omega), if_neg (by omega), if_neg (by omega),
      if_neg (by simp; omega), if_neg (by omega), if_pos (by simp [lower, upper])]
  | greatest => rfl

/-- A byte read between characters is one, begins one, or is out of place. -/
theorem first_cases (read : List (Option Char)) (b : Nat) :
    (b < 0x80 ∧ first read b = ⟨some (Char.ofNat b) :: read, none⟩) ∨
    (∃ p, Pending.Lead b p ∧ first read b = ⟨read, some p⟩) ∨
    first read b = ⟨none :: read, none⟩ := by
  unfold first
  simp only [Bool.and_eq_true, decide_eq_true_eq]
  split
  next hascii => exact .inl ⟨hascii, rfl⟩
  split
  next h => exact .inr (.inl ⟨_, .two h.1 h.2, rfl⟩)
  split
  next h => exact .inr (.inl ⟨_, h ▸ .least, rfl⟩)
  split
  next h => exact .inr (.inl ⟨_, h ▸ .surrogates, rfl⟩)
  split
  next hne h => exact .inr (.inl ⟨_, .three h.1 h.2 hne, rfl⟩)
  split
  next h => exact .inr (.inl ⟨_, h ▸ .leastFour, rfl⟩)
  split
  next h => exact .inr (.inl ⟨_, .four h.1 h.2, rfl⟩)
  split
  next h => exact .inr (.inl ⟨_, h ▸ .greatest, rfl⟩)
  · exact .inr (.inr rfl)

end Decoder

theorem continuation_one (v : Nat) : continuation 1 v = [UInt8.ofNat (v % 64 + 0x80)] := by
  have hzero : v / Nat.pow 64 0 = v := Nat.div_one v
  rw [continuation, continuation, hzero]

theorem continuation_two (v : Nat) :
    continuation 2 v = [UInt8.ofNat (v / 64 % 64 + 0x80), UInt8.ofNat (v % 64 + 0x80)] := by
  rw [continuation, continuation_one]

theorem continuation_three (v : Nat) :
    continuation 3 v = [UInt8.ofNat (v / 4096 % 64 + 0x80), UInt8.ofNat (v / 64 % 64 + 0x80),
      UInt8.ofNat (v % 64 + 0x80)] := by
  rw [continuation, continuation_two]

theorem toNat_valid (c : Char) : c.toNat < 0xD800 ∨ 0xDFFF < c.toNat ∧ c.toNat < 0x110000 :=
  c.valid

theorem exists_toNat_eq {v : Nat} (h : v < 0xD800 ∨ 0xDFFF < v ∧ v < 0x110000) :
    ∃ c : Char, c.toNat = v := ⟨Char.ofNatAux v h, rfl⟩

theorem utf8EncodeChar_one {c : Char} (h : c.toNat < 0x80) :
    String.utf8EncodeChar c = [UInt8.ofNat c.toNat] := by
  have hone : c.toNat ≤ 127 := by omega
  change (if c.toNat ≤ 127 then _ else _) = _
  rw [if_pos hone]
  rfl

theorem utf8EncodeChar_two {c : Char} (hlower : 0x80 ≤ c.toNat) (hupper : c.toNat < 0x800) :
    String.utf8EncodeChar c = UInt8.ofNat (c.toNat / 64 + 0xC0) :: continuation 1 c.toNat := by
  have hone : ¬ c.toNat ≤ 127 := by omega
  have htwo : c.toNat ≤ 2047 := by omega
  have hlead : c.toNat / 64 % 32 = c.toNat / 64 := by omega
  rw [continuation_one, ← hlead]
  change (if c.toNat ≤ 127 then _ else if c.toNat ≤ 2047 then _ else _) = _
  rw [if_neg hone, if_pos htwo]
  rfl

theorem utf8EncodeChar_three {c : Char} (hlower : 0x800 ≤ c.toNat) (hupper : c.toNat < 0x10000) :
    String.utf8EncodeChar c = UInt8.ofNat (c.toNat / 4096 + 0xE0) :: continuation 2 c.toNat := by
  have hone : ¬ c.toNat ≤ 127 := by omega
  have htwo : ¬ c.toNat ≤ 2047 := by omega
  have hthree : c.toNat ≤ 65535 := by omega
  have hlead : c.toNat / 4096 % 16 = c.toNat / 4096 := by omega
  rw [continuation_two, ← hlead]
  change (if c.toNat ≤ 127 then _ else if c.toNat ≤ 2047 then _ else if c.toNat ≤ 65535 then _
    else _) = _
  rw [if_neg hone, if_neg htwo, if_pos hthree]
  rfl

theorem utf8EncodeChar_four {c : Char} (hlower : 0x10000 ≤ c.toNat) :
    String.utf8EncodeChar c = UInt8.ofNat (c.toNat / 262144 + 0xF0) :: continuation 3 c.toNat := by
  have hvalid := toNat_valid c
  have hone : ¬ c.toNat ≤ 127 := by omega
  have htwo : ¬ c.toNat ≤ 2047 := by omega
  have hthree : ¬ c.toNat ≤ 65535 := by omega
  have hlead : c.toNat / 262144 % 8 = c.toNat / 262144 := by omega
  rw [continuation_three, ← hlead]
  change (if c.toNat ≤ 127 then _ else if c.toNat ≤ 2047 then _ else if c.toNat ≤ 65535 then _
    else _) = _
  rw [if_neg hone, if_neg htwo, if_neg hthree]
  rfl

namespace Pending

variable {lower upper code v : Nat}

theorem mayBe_one_iff : MayBe ⟨1, lower, upper, code⟩ v ↔
    v / 64 = code ∧ lower ≤ v % 64 + 0x80 ∧ v % 64 + 0x80 ≤ upper := by
  have hzero : v / Nat.pow 64 0 = v := Nat.div_one v
  constructor
  · intro h
    exact ⟨h.code, by simpa [hzero] using h.lower, by simpa [hzero] using h.upper⟩
  · intro h
    exact ⟨h.1, by simpa [hzero] using h.2.1, by simpa [hzero] using h.2.2⟩

theorem mayBe_two_iff : MayBe ⟨2, lower, upper, code⟩ v ↔
    v / 4096 = code ∧ lower ≤ v / 64 % 64 + 0x80 ∧ v / 64 % 64 + 0x80 ≤ upper :=
  ⟨fun h => ⟨h.code, h.lower, h.upper⟩, fun h => ⟨h.1, h.2.1, h.2.2⟩⟩

theorem mayBe_three_iff : MayBe ⟨3, lower, upper, code⟩ v ↔
    v / 262144 = code ∧ lower ≤ v / 4096 % 64 + 0x80 ∧ v / 4096 % 64 + 0x80 ≤ upper :=
  ⟨fun h => ⟨h.code, h.lower, h.upper⟩, fun h => ⟨h.1, h.2.1, h.2.2⟩⟩

/-- A character beyond ASCII begins with a byte from which on it may turn out to be itself. -/
theorem exists_lead {c : Char} (h : 0x80 ≤ c.toNat) :
    ∃ b p, b < 0x100 ∧ Lead b p ∧ p.MayBe c.toNat ∧
      String.utf8EncodeChar c = UInt8.ofNat b :: continuation p.needed c.toNat := by
  have hvalid := toNat_valid c
  by_cases h2 : c.toNat < 0x800
  · exact ⟨c.toNat / 64 + 0xC0, _, by omega, .two (by omega) (by omega),
      mayBe_one_iff.2 (by omega), utf8EncodeChar_two h h2⟩
  by_cases h3 : c.toNat < 0x10000
  · have hencode := utf8EncodeChar_three (by omega) h3
    generalize hb : c.toNat / 4096 + 0xE0 = b at hencode
    by_cases hE0 : b = 0xE0
    · subst hE0
      exact ⟨0xE0, _, by omega, .least, mayBe_two_iff.2 (by omega), hencode⟩
    by_cases hED : b = 0xED
    · subst hED
      exact ⟨0xED, _, by omega, .surrogates, mayBe_two_iff.2 (by omega), hencode⟩
    · exact ⟨b, _, by omega, .three (by omega) (by omega) hED, mayBe_two_iff.2 (by omega), hencode⟩
  · have hencode := utf8EncodeChar_four (c := c) (by omega)
    generalize hb : c.toNat / 262144 + 0xF0 = b at hencode
    by_cases hF0 : b = 0xF0
    · subst hF0
      exact ⟨0xF0, _, by omega, .leastFour, mayBe_three_iff.2 (by omega), hencode⟩
    by_cases hF4 : b = 0xF4
    · subst hF4
      exact ⟨0xF4, _, by omega, .greatest, mayBe_three_iff.2 (by omega), hencode⟩
    · exact ⟨b, _, by omega, .four (by omega) (by omega), mayBe_three_iff.2 (by omega), hencode⟩

theorem opens_one {b : UInt8} (hwithin : 0x80 ≤ lower ∧ upper ≤ 0xBF)
    (h : ∀ v, MayBe ⟨1, lower, upper, code⟩ v →
      (0x80 ≤ v ∧ v < 0x800) ∧ v / 64 + 0xC0 = b.toNat) : Opens ⟨1, lower, upper, code⟩ [b] := by
  refine ⟨by simp, hwithin, fun v hv => ?_⟩
  obtain ⟨hrange, hb⟩ := h v hv
  obtain ⟨c, rfl⟩ := exists_toNat_eq (v := v) (by omega)
  refine ⟨c, rfl, ?_⟩
  rw [utf8EncodeChar_two hrange.1 hrange.2, hb, UInt8.ofNat_toNat]
  rfl

theorem opens_two {b : UInt8} (hwithin : 0x80 ≤ lower ∧ upper ≤ 0xBF)
    (h : ∀ v, MayBe ⟨2, lower, upper, code⟩ v →
      (0x800 ≤ v ∧ v < 0x10000 ∧ (v < 0xD800 ∨ 0xDFFF < v)) ∧ v / 4096 + 0xE0 = b.toNat) :
    Opens ⟨2, lower, upper, code⟩ [b] := by
  refine ⟨by simp, hwithin, fun v hv => ?_⟩
  obtain ⟨hrange, hb⟩ := h v hv
  obtain ⟨c, rfl⟩ := exists_toNat_eq (v := v) (by omega)
  refine ⟨c, rfl, ?_⟩
  rw [utf8EncodeChar_three hrange.1 hrange.2.1, hb, UInt8.ofNat_toNat]
  rfl

theorem opens_three {b : UInt8} (hwithin : 0x80 ≤ lower ∧ upper ≤ 0xBF)
    (h : ∀ v, MayBe ⟨3, lower, upper, code⟩ v →
      (0x10000 ≤ v ∧ v < 0x110000) ∧ v / 262144 + 0xF0 = b.toNat) :
    Opens ⟨3, lower, upper, code⟩ [b] := by
  refine ⟨by simp, hwithin, fun v hv => ?_⟩
  obtain ⟨hrange, hb⟩ := h v hv
  obtain ⟨c, rfl⟩ := exists_toNat_eq (v := v) (by omega)
  refine ⟨c, rfl, ?_⟩
  rw [utf8EncodeChar_four hrange.1, hb, UInt8.ofNat_toNat]
  rfl

/-- A byte that begins a character begins all those that it may turn out to be. -/
theorem opens_of_lead {b : UInt8} {p : Pending} (h : Lead b.toNat p) : p.Opens [b] := by
  generalize hb : b.toNat = n at h
  cases h with
  | two =>
    refine opens_one (by decide) fun v hv => ?_
    have hbits := mayBe_one_iff.1 hv
    omega
  | least | three | surrogates =>
    refine opens_two (by decide) fun v hv => ?_
    have hbits := mayBe_two_iff.1 hv
    omega
  | leastFour | four | greatest =>
    refine opens_three (by decide) fun v hv => ?_
    have hbits := mayBe_three_iff.1 hv
    omega

/-- One more byte leaves fewer characters that this one may be. -/
theorem Opens.snoc {p : Pending} {n : Nat} {begun : List UInt8} {b : UInt8} (h : p.Opens begun)
    (hneeded : p.needed = n + 1) (hlower : p.lower ≤ b.toNat) (hupper : b.toNat ≤ p.upper)
    (hv : v / Nat.pow 64 n = p.code * 64 + b.toNat % 64) :
    ∃ c : Char, c.toNat = v ∧ String.utf8EncodeChar c = begun ++ b :: continuation n v := by
  have hwithin := h.within
  have hb : v / Nat.pow 64 n % 64 + 0x80 = b.toNat := by omega
  have hcode : v / Nat.pow 64 (n + 1) = p.code := by
    have hpow : Nat.pow 64 (n + 1) = Nat.pow 64 n * 64 := rfl
    rw [hpow, ← Nat.div_div_eq_div_mul]
    omega
  have hmayBe : p.MayBe v := by
    refine ⟨?_, ?_, ?_⟩
    · rw [hneeded, hcode]
    · rw [hneeded, Nat.add_sub_cancel, hb]
      exact hlower
    · rw [hneeded, Nat.add_sub_cancel, hb]
      exact hupper
  obtain ⟨c, hc, hencode⟩ := h.encode v hmayBe
  refine ⟨c, hc, ?_⟩
  rw [hencode, hneeded, continuation, hb, UInt8.ofNat_toNat]

end Pending

theorem le_of_mem_continuation {n v : Nat} {b : UInt8} (h : b ∈ continuation n v) :
    0x80 ≤ b.toNat := by
  induction n with
  | zero => simp [continuation] at h
  | succ n ih =>
    rcases List.mem_cons.1 h with rfl | h
    · rw [Decoder.toNat_continuation]
      omega
    · exact ih h

/-- An ASCII byte occurs in the encoding of its character alone. -/
theorem mem_utf8EncodeChar_iff {b : UInt8} {c : Char} (hb : b.toNat < 0x80) :
    b ∈ String.utf8EncodeChar c ↔ c.toNat = b.toNat := by
  by_cases hascii : c.toNat < 0x80
  · rw [utf8EncodeChar_one hascii, List.mem_singleton, ← UInt8.toNat_inj, UInt8.toNat_ofNat']
    omega
  · obtain ⟨n, p, hn, hlead, -, hencode⟩ := Pending.exists_lead (c := c) (by omega)
    have hne : c.toNat ≠ b.toNat := by omega
    have hfirst : b ≠ UInt8.ofNat n := by
      rintro rfl
      have hle := hlead.le
      rw [UInt8.toNat_ofNat'] at hb
      omega
    have hrest : b ∉ continuation p.needed c.toNat := fun hmem => by
      have hle := le_of_mem_continuation hmem
      omega
    simp [hencode, hne, hfirst, hrest]

theorem mem_encode_iff {b : UInt8} {cs : List Char} (hb : b.toNat < 0x80) :
    b ∈ encode cs ↔ Char.ofNat b.toNat ∈ cs := by
  simp only [encode, List.mem_flatMap, mem_utf8EncodeChar_iff hb]
  constructor
  · rintro ⟨c, hc, heq⟩
    rwa [← heq, Char.ofNat_toNat]
  · intro hc
    obtain ⟨c, hcode⟩ := exists_toNat_eq (v := b.toNat) (by omega)
    rw [← hcode, Char.ofNat_toNat] at hc
    exact ⟨c, hc, hcode⟩

@[simp] theorem encode_nil : encode [] = [] := rfl

theorem encode_cons (c : Char) (cs : List Char) :
    encode (c :: cs) = String.utf8EncodeChar c ++ encode cs := rfl

theorem encode_append (cs ds : List Char) : encode (cs ++ ds) = encode cs ++ encode ds :=
  List.flatMap_append

theorem encode_concat (cs : List Char) (c : Char) :
    encode (cs ++ [c]) = encode cs ++ String.utf8EncodeChar c := by
  simp [encode]

namespace Decoder

/-- The bytes of a character are read as this character. -/
theorem foldl_utf8EncodeChar (read : List (Option Char)) (c : Char) :
    (String.utf8EncodeChar c).foldl step ⟨read, none⟩ = ⟨some c :: read, none⟩ := by
  by_cases hascii : c.toNat < 0x80
  · have hbyte : (UInt8.ofNat c.toNat).toNat = c.toNat := by
      rw [UInt8.toNat_ofNat']
      omega
    simp [utf8EncodeChar_one hascii, step, first, hbyte, hascii, Char.ofNat_toNat]
  · obtain ⟨b, p, hb, hlead, hmayBe, hencode⟩ := Pending.exists_lead (c := c) (by omega)
    have hbyte : (UInt8.ofNat b).toNat = b := by
      rw [UInt8.toNat_ofNat']
      omega
    have hstep : step ⟨read, none⟩ (UInt8.ofNat b) = ⟨read, some p⟩ := by
      simp [step, hbyte, first_of_lead hlead]
    rw [hencode, List.foldl_cons, hstep]
    exact foldl_continuation hlead.pos hmayBe read

theorem foldl_encode (read : List (Option Char)) (cs : List Char) :
    (encode cs).foldl step ⟨read, none⟩ = ⟨(cs.map some).reverse ++ read, none⟩ := by
  induction cs generalizing read with
  | nil => rfl
  | cons c cs ih =>
    rw [encode_cons, List.foldl_append, foldl_utf8EncodeChar, ih]
    simp

/-- If all that was read of `bytes` is well formed, they are the bytes of the characters read, with
those of the character begun behind them. -/
structure Accounts (d : Decoder) (bytes : List UInt8) : Prop where
  complete : ∀ cs, d.read.reverse = cs.map some → d.pending = none → bytes = encode cs
  begun : ∀ cs p, d.read.reverse = cs.map some → d.pending = some p →
    ∃ begun, bytes = encode cs ++ begun ∧ p.Opens begun

theorem accounts_start : Accounts start [] := by
  refine ⟨fun cs hcs _ => ?_, fun cs p _ hp => ?_⟩
  · obtain rfl : cs = [] := by simpa [start] using hcs.symm
    rfl
  · cases hp

theorem accounts_of_none_mem {d : Decoder} (h : none ∈ d.read) (bytes : List UInt8) :
    d.Accounts bytes := by
  have hnot : ∀ cs : List Char, d.read.reverse ≠ cs.map some := by
    intro cs hcs
    have hmem : none ∈ cs.map some := by simpa [← hcs] using h
    simp at hmem
  exact ⟨fun cs hcs => absurd hcs (hnot cs), fun cs _ hcs => absurd hcs (hnot cs)⟩

theorem accounts_of_begun {read : List (Option Char)} {p : Pending} {bytes begun : List UInt8}
    (h : ∀ cs, read.reverse = cs.map some → bytes = encode cs ++ begun) (hp : p.Opens begun) :
    Accounts ⟨read, some p⟩ bytes where
  complete _ _ hpending := nomatch hpending
  begun cs q hcs hpending := by
    obtain rfl := Option.some.inj hpending
    exact ⟨begun, h cs hcs, hp⟩

theorem accounts_of_complete {read : List (Option Char)} {c : Char} {bytes : List UInt8}
    (h : ∀ cs, read.reverse = cs.map some → bytes = encode cs ++ String.utf8EncodeChar c) :
    Accounts ⟨some c :: read, none⟩ bytes where
  complete cs hcs _ := by
    rw [List.reverse_cons, eq_comm, List.map_eq_append_iff] at hcs
    obtain ⟨before, last, rfl, hbefore, hlast⟩ := hcs
    obtain rfl : last = [c] := by simpa [List.map_eq_singleton_iff] using hlast
    rw [encode_concat]
    exact h before hbefore.symm
  begun _ _ _ hpending := nomatch hpending

theorem none_mem_read_first (read : List (Option Char)) (b : Nat) :
    none ∈ (first (none :: read) b).read := by
  rcases first_cases (none :: read) b with ⟨-, hfirst⟩ | ⟨p, -, hfirst⟩ | hfirst
  all_goals simp [hfirst]

theorem accounts_first {read : List (Option Char)} {bytes : List UInt8}
    (h : Accounts ⟨read, none⟩ bytes) (b : UInt8) :
    Accounts (first read b.toNat) (bytes ++ [b]) := by
  rcases first_cases read b.toNat with ⟨hascii, hfirst⟩ | ⟨p, hlead, hfirst⟩ | hfirst
  · rw [hfirst]
    refine accounts_of_complete fun cs hcs => ?_
    have hchar : (Char.ofNat b.toNat).toNat = b.toNat := by
      obtain ⟨c, hc⟩ := exists_toNat_eq (v := b.toNat) (by omega)
      rw [← hc, Char.ofNat_toNat]
    rw [h.complete cs hcs rfl, utf8EncodeChar_one (by omega), hchar, UInt8.ofNat_toNat]
  · rw [hfirst]
    refine accounts_of_begun (fun cs hcs => ?_) (Pending.opens_of_lead hlead)
    rw [h.complete cs hcs rfl]
  · rw [hfirst]
    exact accounts_of_none_mem (by simp) _

theorem accounts_complete {read : List (Option Char)} {p : Pending} {bytes : List UInt8}
    {b : UInt8} (h : Accounts ⟨read, some p⟩ bytes) (hlower : p.lower ≤ b.toNat)
    (hupper : b.toNat ≤ p.upper) (hneeded : p.needed ≤ 1) :
    Accounts ⟨some (Char.ofNat (p.code * 64 + b.toNat % 64)) :: read, none⟩ (bytes ++ [b]) := by
  refine accounts_of_complete fun cs hcs => ?_
  obtain ⟨begun, hbytes, hopens⟩ := h.begun cs p hcs rfl
  have hone : p.needed = 0 + 1 := by
    have hpos := hopens.pos
    omega
  obtain ⟨c, hc, hencode⟩ := hopens.snoc hone hlower hupper (Nat.div_one _)
  rw [← hc, Char.ofNat_toNat, hencode, hbytes, List.append_assoc]
  rfl

theorem accounts_continue {read : List (Option Char)} {p : Pending} {bytes : List UInt8}
    {b : UInt8} (h : Accounts ⟨read, some p⟩ bytes) (hlower : p.lower ≤ b.toNat)
    (hupper : b.toNat ≤ p.upper) (hneeded : 1 < p.needed) :
    Accounts ⟨read, some ⟨p.needed - 1, 0x80, 0xBF, p.code * 64 + b.toNat % 64⟩⟩
      (bytes ++ [b]) where
  complete _ _ hpending := nomatch hpending
  begun cs q hcs hpending := by
    obtain rfl := Option.some.inj hpending
    obtain ⟨begun, hbytes, hopens⟩ := h.begun cs p hcs rfl
    have hsucc : p.needed = p.needed - 1 + 1 := by omega
    refine ⟨begun ++ [b], by rw [hbytes, List.append_assoc], ?_, by simp, fun v hv => ?_⟩
    · change 0 < p.needed - 1
      omega
    · rw [List.append_assoc]
      exact hopens.snoc hsucc hlower hupper hv.code

theorem accounts_step {d : Decoder} {bytes : List UInt8} (h : d.Accounts bytes) (b : UInt8) :
    (d.step b).Accounts (bytes ++ [b]) := by
  obtain ⟨read, pending⟩ := d
  cases pending with
  | none => exact accounts_first h b
  | some p =>
    by_cases hrange : p.lower ≤ b.toNat ∧ b.toNat ≤ p.upper
    · rw [step_of_mem hrange.1 hrange.2]
      split
      next hneeded => exact accounts_complete h hrange.1 hrange.2 hneeded
      next hneeded => exact accounts_continue h hrange.1 hrange.2 (by omega)
    · have hstep : step ⟨read, some p⟩ b = first (none :: read) b.toNat := by
        simp only [step]
        rw [if_neg (by simpa using hrange)]
      rw [hstep]
      exact accounts_of_none_mem (none_mem_read_first read _) _

theorem accounts_foldl (bytes : List UInt8) : (bytes.foldl step start).Accounts bytes := by
  induction bytes using List.reverseRecOn with
  | nil => exact accounts_start
  | append_singleton bytes b ih =>
    rw [List.foldl_append]
    exact accounts_step ih b

end Decoder

@[simp] theorem decode_encode (cs : List Char) : decode (encode cs) = cs.map some := by
  have hread := Decoder.foldl_encode [] cs
  rw [decode, Decoder.start, hread]
  simp [Decoder.finish]

/-- Below 0x80 a byte is the code of its character. -/
theorem encode_ascii {bytes : List UInt8} (h : ∀ b ∈ bytes, b.toNat < 0x80) :
    encode (bytes.map fun b => Char.ofNat b.toNat) = bytes := by
  induction bytes with
  | nil => rfl
  | cons b rest ih =>
    obtain ⟨hb, hrest⟩ := List.forall_mem_cons.1 h
    obtain ⟨c, hc⟩ := exists_toNat_eq (v := b.toNat) (by omega)
    rw [List.map_cons, encode_cons, ih hrest, ← hc, Char.ofNat_toNat,
      utf8EncodeChar_one (by omega), hc, UInt8.ofNat_toNat]
    rfl

theorem encode_eq_nil_iff {cs : List Char} : encode cs = [] ↔ cs = [] := by
  constructor
  · intro h
    have hread := decode_encode cs
    rw [h] at hread
    exact List.map_eq_nil_iff.1 hread.symm
  · rintro rfl
    rfl

/-- Bytes that are read without an ill-formed piece are those of the characters read. -/
theorem eq_encode_of_decode {bytes : List UInt8} {cs : List Char} (h : decode bytes = cs.map some) :
    bytes = encode cs := by
  have haccounts := Decoder.accounts_foldl bytes
  unfold decode Decoder.finish at h
  split at h
  next hpending => exact haccounts.complete cs h hpending
  next =>
    have hmem : none ∈ cs.map some := by simp [← h]
    simp at hmem

theorem map_some_filterMap {read : List (Option Char)} (h : ∀ c ∈ read, c.isSome = true) :
    (read.filterMap id).map some = read := by
  induction read with
  | nil => rfl
  | cons c read ih =>
    obtain ⟨hc, hread⟩ := List.forall_mem_cons.1 h
    obtain ⟨c, rfl⟩ := Option.isSome_iff_exists.1 hc
    have hfirst : (some c :: read).filterMap id = c :: read.filterMap id := rfl
    rw [hfirst, List.map_cons, ih hread]

theorem decode?_eq_some_iff_decode {bytes : List UInt8} {cs : List Char} :
    decode? bytes = some cs ↔ decode bytes = cs.map some := by
  constructor
  · intro h
    simp only [decode?, Option.ite_none_right_eq_some, Option.some.injEq] at h
    rw [← h.2, map_some_filterMap (List.all_eq_true.1 h.1)]
  · intro h
    simp [decode?, h]

/-- The byte sequences that can be read are those of texts. -/
theorem decode?_eq_some_iff {bytes : List UInt8} {cs : List Char} :
    decode? bytes = some cs ↔ bytes = encode cs := by
  rw [decode?_eq_some_iff_decode]
  constructor
  · exact eq_encode_of_decode
  · rintro rfl
    exact decode_encode cs

theorem encode_injective {cs ds : List Char} (h : encode cs = encode ds) : cs = ds := by
  have hread : decode? (encode cs) = some cs := decode?_eq_some_iff.2 rfl
  exact Option.some.inj (hread.symm.trans (decode?_eq_some_iff.2 h))

theorem decodeWith_encode (mark : Char) (cs : List Char) : decodeWith mark (encode cs) = cs := by
  simp [decodeWith, Function.comp_def]

theorem decodeLenient_encode (cs : List Char) : decodeLenient (encode cs) = cs :=
  decodeWith_encode _ cs

end Signpost.Text.Utf8
