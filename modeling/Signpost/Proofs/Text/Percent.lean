import Signpost.Text.Percent

/-!
# Ways of writing bytes

A byte may be written as itself or as a `%` and two hexadecimal digits, in capitals or not. Decoding
undoes each of these ways, and every byte sequence is one of them: what it writes is what it is
decoded to.
-/
namespace Signpost.Text.Percent

/-- The hexadecimal digit for a number below 16, a capital letter or a small one from 10 on. -/
def hexDigit (capital : Bool) (n : Nat) : UInt8 :=
  UInt8.ofNat (n + if n < 10 then 48 else if capital then 55 else 87)

/-- The escape of a byte, with a case for each digit. -/
def escape (capitalHigh capitalLow : Bool) (b : UInt8) : List UInt8 :=
  [37, hexDigit capitalHigh (b.toNat / 16), hexDigit capitalLow (b.toNat % 16)]

/-- No escape stands first. -/
def NoEscape (written : List UInt8) : Prop :=
  ∀ capitalHigh capitalLow b rest, written ≠ escape capitalHigh capitalLow b ++ rest

/-- The second bytes write the first ones. A `%` that begins no escape stands for itself. -/
inductive Writes : List UInt8 → List UInt8 → Prop where
  | nil : Writes [] []
  | raw {b : UInt8} {bytes written : List UInt8} (ne : b ≠ 37) (rest : Writes bytes written) :
      Writes (b :: bytes) (b :: written)
  | escape {bytes written : List UInt8} (capitalHigh capitalLow : Bool) (b : UInt8)
      (rest : Writes bytes written) :
      Writes (b :: bytes) (escape capitalHigh capitalLow b ++ written)
  | stray {bytes written : List UInt8} (noEscape : NoEscape (37 :: written))
      (rest : Writes bytes written) : Writes (37 :: bytes) (37 :: written)

theorem hexDigit?_hexDigit (capital : Bool) {n : Nat} (h : n < 16) :
    hexDigit? (hexDigit capital n) = some (UInt8.ofNat n) := by
  revert n capital
  decide

theorem exists_hexDigit {b d : UInt8} (h : hexDigit? b = some d) :
    d.toNat < 16 ∧ ∃ capital, b = hexDigit capital d.toNat := by
  have hall : ∀ n < 256, (hexDigit? (UInt8.ofNat n)).all (fun d => d.toNat < 16 &&
      (UInt8.ofNat n == hexDigit false d.toNat || UInt8.ofNat n == hexDigit true d.toNat)) =
        true := by decide +kernel
  have hb := hall b.toNat b.toNat_lt
  simp only [UInt8.ofNat_toNat, h, Option.all_some, Bool.and_eq_true, Bool.or_eq_true,
    decide_eq_true_eq, beq_iff_eq] at hb
  obtain ⟨hd, hsmall | hcapital⟩ := hb
  · exact ⟨hd, false, hsmall⟩
  · exact ⟨hd, true, hcapital⟩

/-- The two digits after a `%` make a byte exactly if they are those of its escape. -/
theorem escaped?_eq_some_iff {high low b : UInt8} :
    escaped? high low = some b ↔
      ∃ capitalHigh capitalLow, [37, high, low] = escape capitalHigh capitalLow b := by
  constructor
  · intro h
    unfold escaped? at h
    split at h
    next x y hhigh hlow =>
      obtain ⟨hx, capitalHigh, rfl⟩ := exists_hexDigit hhigh
      obtain ⟨hy, capitalLow, rfl⟩ := exists_hexDigit hlow
      have hsixteen : (16 : UInt8).toNat = 16 := rfl
      have hb : b.toNat = x.toNat * 16 + y.toNat := by
        rw [← Option.some.inj h, UInt8.toNat_add, UInt8.toNat_mul, hsixteen]
        omega
      have hdiv : b.toNat / 16 = x.toNat := by omega
      have hmod : b.toNat % 16 = y.toNat := by omega
      exact ⟨capitalHigh, capitalLow, by rw [escape, hdiv, hmod]⟩
    · cases h
  · rintro ⟨capitalHigh, capitalLow, h⟩
    obtain ⟨rfl, rfl⟩ : high = hexDigit capitalHigh (b.toNat / 16) ∧
        low = hexDigit capitalLow (b.toNat % 16) := by simpa [escape] using h
    have hb := b.toNat_lt
    have hvalue : UInt8.ofNat (b.toNat / 16) * 16 + UInt8.ofNat (b.toNat % 16) = b := by
      rw [← UInt8.toNat_inj]
      simp
      omega
    rw [escaped?, hexDigit?_hexDigit _ (by omega), hexDigit?_hexDigit _ (by omega)]
    simp only [hvalue]

theorem noEscape_iff {written : List UInt8} :
    NoEscape (37 :: written) ↔
      ∀ high low rest, written = high :: low :: rest → escaped? high low = none := by
  constructor
  · rintro h high low rest rfl
    rw [Option.eq_none_iff_forall_ne_some]
    intro b hb
    obtain ⟨capitalHigh, capitalLow, hescape⟩ := escaped?_eq_some_iff.1 hb
    exact h capitalHigh capitalLow b rest (by rw [← hescape]; rfl)
  · intro h capitalHigh capitalLow b rest heq
    have hnone := h _ _ rest (List.cons.inj heq).2
    rw [escaped?_eq_some_iff.2 ⟨capitalHigh, capitalLow, rfl⟩] at hnone
    cases hnone

theorem decodeOnto_raw (done : List UInt8) {b : UInt8} (h : b ≠ 37) (written : List UInt8) :
    decodeOnto done (b :: written) = decodeOnto (b :: done) written := by
  rw [decodeOnto.eq_def]
  exact if_neg h

theorem decodeOnto_escape (done : List UInt8) (capitalHigh capitalLow : Bool) (b : UInt8)
    (written : List UInt8) :
    decodeOnto done (escape capitalHigh capitalLow b ++ written) =
      decodeOnto (b :: done) written := by
  have hescaped := escaped?_eq_some_iff.2 ⟨capitalHigh, capitalLow, (rfl : _ = escape _ _ b)⟩
  rw [escape, List.cons_append, List.cons_append, List.cons_append, decodeOnto, hescaped]
  rfl

theorem decodeOnto_stray (done : List UInt8) {written : List UInt8}
    (h : NoEscape (37 :: written)) :
    decodeOnto done (37 :: written) = decodeOnto (37 :: done) written := by
  rcases written with - | ⟨high, - | ⟨low, rest⟩⟩
  · simp [decodeOnto]
  · by_cases hhigh : high = 37
    · simp [decodeOnto, hhigh]
    · simp [decodeOnto, hhigh]
  · rw [decodeOnto, noEscape_iff.1 h high low rest rfl]
    rfl

theorem decodeOnto_of_writes {bytes written : List UInt8} (h : Writes bytes written)
    (done : List UInt8) : decodeOnto done written = done.reverse ++ bytes := by
  induction h generalizing done with
  | nil => simp [decodeOnto]
  | raw ne _ ih => simp [decodeOnto_raw _ ne, ih]
  | escape capitalHigh capitalLow b _ ih => simp [decodeOnto_escape, ih]
  | stray noEscape _ ih => simp [decodeOnto_stray _ noEscape, ih]

/-- Every byte sequence is a way of writing one. -/
theorem exists_writes (written : List UInt8) : ∃ bytes, Writes bytes written := by
  induction hlength : written.length using Nat.strongRecOn generalizing written with
  | _ n ih =>
    subst hlength
    cases written with
    | nil => exact ⟨[], .nil⟩
    | cons b written =>
      by_cases hb : b = 37
      · subst hb
        by_cases hescape : NoEscape (37 :: written)
        · obtain ⟨bytes, hbytes⟩ := ih written.length (by simp) written rfl
          exact ⟨37 :: bytes, .stray hescape hbytes⟩
        · simp only [NoEscape, Classical.not_forall, Decidable.not_not] at hescape
          obtain ⟨capitalHigh, capitalLow, b, rest, heq⟩ := hescape
          have hlt : rest.length < (37 :: written).length := by
            rw [heq, List.length_append]
            simp [escape]
          obtain ⟨bytes, hbytes⟩ := ih rest.length hlt rest rfl
          exact ⟨b :: bytes, heq ▸ .escape capitalHigh capitalLow b hbytes⟩
      · obtain ⟨bytes, hbytes⟩ := ih written.length (by simp) written rfl
        exact ⟨b :: bytes, .raw hb hbytes⟩

theorem decode_of_writes {bytes written : List UInt8} (h : Writes bytes written) :
    decode written = bytes :=
  decodeOnto_of_writes h []

/-- Decoding finds what a byte sequence writes. -/
theorem decode_eq_iff {bytes written : List UInt8} :
    decode written = bytes ↔ Writes bytes written := by
  constructor
  · rintro rfl
    obtain ⟨bytes, hbytes⟩ := exists_writes written
    rwa [decode_of_writes hbytes]
  · exact decode_of_writes

theorem Writes.append_raw {raw bytes written : List UInt8} (h : Writes bytes written)
    (hraw : (37 : UInt8) ∉ raw) : Writes (raw ++ bytes) (raw ++ written) := by
  induction raw with
  | nil => exact h
  | cons b raw ih =>
    obtain ⟨hb, hrest⟩ : (37 : UInt8) ≠ b ∧ (37 : UInt8) ∉ raw := by simpa using hraw
    exact .raw (Ne.symm hb) (ih hrest)

/-- A byte that is neither `%` nor a hexadecimal digit is part of no escape. -/
theorem notMem_escape {c : UInt8} (hpercent : c ≠ 37) (hdigit : hexDigit? c = none)
    (capitalHigh capitalLow : Bool) (b : UInt8) : c ∉ escape capitalHigh capitalLow b := by
  have hb := b.toNat_lt
  have hne : ∀ capital n, n < 16 → c ≠ hexDigit capital n := by
    rintro capital n hn rfl
    simp [hexDigit?_hexDigit capital hn] at hdigit
  simp [escape, hpercent, hne _ (b.toNat / 16) (by omega), hne _ (b.toNat % 16) (by omega)]

theorem Writes.mem {bytes written : List UInt8} (h : Writes bytes written) {c : UInt8}
    (hc : c ≠ 37) (hdigit : hexDigit? c = none) (hmem : c ∈ written) : c ∈ bytes := by
  induction h with
  | nil => exact hmem
  | raw _ _ ih =>
    rcases List.mem_cons.1 hmem with rfl | hmem
    · exact List.mem_cons_self
    · exact List.mem_cons_of_mem _ (ih hmem)
  | escape capitalHigh capitalLow b _ ih =>
    rcases List.mem_append.1 hmem with hmem | hmem
    · exact absurd hmem (notMem_escape hc hdigit capitalHigh capitalLow b)
    · exact List.mem_cons_of_mem _ (ih hmem)
  | stray _ _ ih =>
    rcases List.mem_cons.1 hmem with h | hmem
    · exact absurd h hc
    · exact List.mem_cons_of_mem _ (ih hmem)

theorem writes_nil_left {written : List UInt8} (h : Writes [] written) : written = [] := by
  cases h
  rfl

end Signpost.Text.Percent
