import Signpost.Proofs.Text.Utf8

/-!
# The order of texts and of their bytes

Texts are ordered by the codes of their characters. Their encodings, ordered byte by byte, stand in
the same order: a character with a greater code has a greater first byte, or the same one and then
greater bits after it.
-/
namespace Signpost.Text.Utf8

theorem lt_of_ofNat_lt {m n : Nat} (hn : n < 0x100) (h : m < n) :
    UInt8.ofNat m < UInt8.ofNat n := by
  rw [UInt8.lt_iff_toNat_lt, UInt8.toNat_ofNat', UInt8.toNat_ofNat']
  omega

/-- Of two codes that agree in what comes before their last bytes, the greater one has the greater
last bytes. -/
theorem continuation_lt {v w : Nat} (hlt : v < w) (n : Nat)
    (hagree : v / Nat.pow 64 n = w / Nat.pow 64 n) (bytes bytes' : List UInt8) :
    continuation n v ++ bytes < continuation n w ++ bytes' := by
  induction n with
  | zero =>
    have hzero : ∀ u, u / Nat.pow 64 0 = u := fun u => Nat.div_one u
    rw [hzero, hzero] at hagree
    omega
  | succ n ih =>
    have hpow : Nat.pow 64 (n + 1) = Nat.pow 64 n * 64 := rfl
    have hle : v / Nat.pow 64 n ≤ w / Nat.pow 64 n := Nat.div_le_div_right (Nat.le_of_lt hlt)
    rw [hpow, ← Nat.div_div_eq_div_mul, ← Nat.div_div_eq_div_mul] at hagree
    simp only [continuation, List.cons_append, List.cons_lt_cons_iff]
    by_cases hbits : v / Nat.pow 64 n = w / Nat.pow 64 n
    · exact .inr ⟨by rw [hbits], ih hbits⟩
    · exact .inl (lt_of_ofNat_lt (by omega) (by omega))

/-- How many bytes follow the first one of a character. -/
def following (v : Nat) : Nat :=
  if v < 0x80 then 0 else if v < 0x800 then 1 else if v < 0x10000 then 2 else 3

/-- What is added to the first bits of a character to mark the number of bytes. -/
def mark : Nat → Nat
  | 0 => 0
  | 1 => 0xC0
  | 2 => 0xE0
  | _ => 0xF0

/-- The first byte of a character, as a number. -/
def leading (v : Nat) : Nat := v / Nat.pow 64 (following v) + mark (following v)

theorem code_cases (v : Nat) :
    (v < 0x80 ∧ following v = 0 ∧ leading v = v) ∨
    ((0x80 ≤ v ∧ v < 0x800) ∧ following v = 1 ∧ leading v = v / 64 + 0xC0) ∨
    ((0x800 ≤ v ∧ v < 0x10000) ∧ following v = 2 ∧ leading v = v / 4096 + 0xE0) ∨
    (0x10000 ≤ v ∧ following v = 3 ∧ leading v = v / 262144 + 0xF0) := by
  have hzero : v / Nat.pow 64 0 = v := Nat.div_one v
  unfold leading
  by_cases h1 : v < 0x80
  · have hfollowing : following v = 0 := if_pos h1
    rw [hfollowing, hzero]
    exact .inl ⟨h1, rfl, rfl⟩
  by_cases h2 : v < 0x800
  · have hfollowing : following v = 1 := by rw [following, if_neg h1, if_pos h2]
    rw [hfollowing]
    exact .inr (.inl ⟨by omega, rfl, rfl⟩)
  by_cases h3 : v < 0x10000
  · have hfollowing : following v = 2 := by rw [following, if_neg h1, if_neg h2, if_pos h3]
    rw [hfollowing]
    exact .inr (.inr (.inl ⟨by omega, rfl, rfl⟩))
  · have hfollowing : following v = 3 := by rw [following, if_neg h1, if_neg h2, if_neg h3]
    rw [hfollowing]
    exact .inr (.inr (.inr ⟨by omega, rfl, rfl⟩))

theorem utf8EncodeChar_eq (c : Char) : String.utf8EncodeChar c =
    UInt8.ofNat (leading c.toNat) :: continuation (following c.toNat) c.toNat := by
  rcases code_cases c.toNat with ⟨h, hf, hl⟩ | ⟨h, hf, hl⟩ | ⟨h, hf, hl⟩ | ⟨h, hf, hl⟩
  · rw [hf, hl, utf8EncodeChar_one h, continuation]
  · rw [hf, hl, utf8EncodeChar_two h.1 h.2]
  · rw [hf, hl, utf8EncodeChar_three h.1 h.2]
  · rw [hf, hl, utf8EncodeChar_four h]

theorem leading_lt (c : Char) : leading c.toNat < 0x100 := by
  have hvalid := toNat_valid c
  rcases code_cases c.toNat with h | h | h | h <;> omega

/-- The first byte grows with the code, or it stays and so do the number of bytes and the bits in
the first one. -/
theorem leading_cases {v w : Nat} (hlt : v < w) : leading v < leading w ∨
    leading v = leading w ∧ following v = following w ∧
      v / Nat.pow 64 (following v) = w / Nat.pow 64 (following v) := by
  have hw := code_cases w
  have hcases : leading v < leading w ∨ leading v = leading w ∧ following v = following w := by
    rcases code_cases v with h | h | h | h
    · omega
    · omega
    · omega
    · omega
  refine hcases.imp_right fun ⟨hleading, hfollowing⟩ => ⟨hleading, hfollowing, ?_⟩
  rw [leading, leading, ← hfollowing] at hleading
  omega

/-- Of two characters the one with the greater code has the greater bytes, whatever follows. -/
theorem utf8EncodeChar_lt {c d : Char} (h : c < d) (bytes bytes' : List UInt8) :
    String.utf8EncodeChar c ++ bytes < String.utf8EncodeChar d ++ bytes' := by
  have hlt : c.toNat < d.toNat := h
  rw [utf8EncodeChar_eq, utf8EncodeChar_eq, List.cons_append, List.cons_append,
    List.cons_lt_cons_iff]
  rcases leading_cases hlt with hleading | ⟨hleading, hfollowing, hagree⟩
  · exact .inl (lt_of_ofNat_lt (leading_lt d) hleading)
  · rw [← hfollowing]
    exact .inr ⟨by rw [hleading], continuation_lt hlt _ hagree bytes bytes'⟩

theorem encode_lt_of_lt {cs ds : List Char} (h : cs < ds) : encode cs < encode ds := by
  induction cs generalizing ds with
  | nil =>
    cases ds with
    | nil => exact absurd h (List.lt_irrefl [])
    | cons d ds =>
      rw [encode_nil, encode_cons, utf8EncodeChar_eq]
      exact List.nil_lt_cons _ _
  | cons c cs ih =>
    cases ds with
    | nil => exact absurd h (List.not_lt_nil _)
    | cons d ds =>
      rw [encode_cons, encode_cons]
      rcases List.cons_lt_cons_iff.1 h with hlt | ⟨rfl, hlt⟩
      · exact utf8EncodeChar_lt hlt _ _
      · exact List.append_left_lt (ih hlt)

/-- The order of texts is the order of their bytes. -/
theorem encode_lt_encode_iff {cs ds : List Char} : encode cs < encode ds ↔ cs < ds := by
  refine ⟨fun h => ?_, encode_lt_of_lt⟩
  rw [← Decidable.not_not (p := cs < ds), List.not_lt, List.le_iff_lt_or_eq]
  rintro (hlt | rfl)
  · exact List.lt_asymm h (encode_lt_of_lt hlt)
  · exact List.lt_irrefl _ h

/-- The bytes of a text come before those of another one. -/
def BytesBefore (s t : String) : Prop := encode s.toList < encode t.toList

theorem bytesBefore_iff {s t : String} : BytesBefore s t ↔ s < t := by
  rw [BytesBefore, encode_lt_encode_iff, String.lt_iff]

end Signpost.Text.Utf8
