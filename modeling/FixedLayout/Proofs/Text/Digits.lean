import FixedLayout.Text.Digits

/-! Digits that are written are read back. -/

namespace FixedLayout.Text

/-- The digits of a number in base sixteen with upper-case letters. -/
def hexDigits (n : Nat) : List Char := (Nat.toDigits 16 n).map Char.toUpper

theorem toList_hexUpper (n : Nat) : (hexUpper n).toList = hexDigits n :=
  String.toList_ofList ..

theorem hexDigits_of_lt {n : Nat} (h : n < 16) : hexDigits n = [n.digitChar.toUpper] := by
  rw [hexDigits, Nat.toDigits_of_lt_base h]
  rfl

theorem hexDigits_of_le {n : Nat} (h : 16 ≤ n) :
    hexDigits n = hexDigits (n / 16) ++ hexDigits (n % 16) := by
  rw [hexDigits_of_lt (Nat.mod_lt n (by omega)), hexDigits, Nat.toDigits_of_base_le (by omega) h,
    List.map_append]
  rfl

/-- What holds of each single digit holds of the digits of every number. -/
theorem forall_hexDigits {P : Char → Prop} (h : ∀ d < 16, P (Nat.digitChar d).toUpper) (n : Nat) :
    ∀ c ∈ hexDigits n, P c := by
  induction n using Nat.strongRecOn with
  | ind n ih =>
    rcases Nat.lt_or_ge n 16 with hLt | hLe
    · rw [hexDigits_of_lt hLt]
      simpa using h n hLt
    · rw [hexDigits_of_le hLe, hexDigits_of_lt (Nat.mod_lt n (by omega))]
      intro c hc
      rcases List.mem_append.mp hc with hc | hc
      · exact ih (n / 16) (by omega) c hc
      · rw [List.mem_singleton.mp hc]
        exact h (n % 16) (Nat.mod_lt n (by omega))

/-- The character is a hexadecimal digit, in either case, and `d` is its value. -/
structure IsHexDigit (c : Char) (d : Nat) : Prop where
  lt : d < 16
  char : c = d.digitChar ∨ c = d.digitChar.toUpper

theorem lt_of_digitValue? {c : Char} {d : Nat} (h : digitValue? c = some d) : c.toNat < 128 := by
  have hLe : ∀ {last : Char}, c ≤ last → last.toNat < 128 → c.toNat < 128 :=
    fun hLe hLast => Nat.lt_of_le_of_lt hLe hLast
  unfold digitValue? at h
  split at h
  · rename_i hRange
    exact hLe hRange.2 (by decide)
  · split at h
    · rename_i hRange
      exact hLe hRange.2 (by decide)
    · split at h
      · rename_i hRange
        exact hLe hRange.2 (by decide)
      · cases h

/-- The digits that are read are those of either case. -/
theorem digitValue?_eq_some {c : Char} {d : Nat} : digitValue? c = some d ↔ IsHexDigit c d := by
  constructor
  · intro h
    have hAscii : ∀ n < 128, ∀ d ∈ digitValue? (Char.ofNat n),
        d < 16 ∧ (Char.ofNat n = d.digitChar ∨ Char.ofNat n = d.digitChar.toUpper) := by
      decide
    obtain ⟨hLt, hChar⟩ := hAscii c.toNat (lt_of_digitValue? h) d (by rwa [Char.ofNat_toNat])
    rw [Char.ofNat_toNat] at hChar
    exact ⟨hLt, hChar⟩
  · rintro ⟨hLt, rfl | rfl⟩ <;> revert d <;> decide

theorem not_isHexDigit {c : Char} {d : Nat} (h : digitValue? c = none) : ¬IsHexDigit c d := by
  rw [← digitValue?_eq_some, h]
  nofun

theorem isHexDigit_toUpper {d : Nat} (h : d < 16) : IsHexDigit d.digitChar.toUpper d :=
  ⟨h, .inr rfl⟩

/-- A byte is written with two digits. -/
theorem toList_hexPadded_two {n : Nat} (h : n < 256) :
    (hexPadded 2 n).toList = [(n / 16).digitChar.toUpper, (n % 16).digitChar.toUpper] := by
  have hPadded : (hexPadded 2 n).toList =
      List.replicate (2 - (hexDigits n).length) '0' ++ hexDigits n :=
    String.toList_ofList ..
  rcases Nat.lt_or_ge n 16 with hLt | hLe
  · rw [hPadded, hexDigits_of_lt hLt, Nat.div_eq_of_lt hLt, Nat.mod_eq_of_lt hLt]
    rfl
  · have hHigh : n / 16 < 16 := by omega
    rw [hPadded, hexDigits_of_le hLe, hexDigits_of_lt hHigh,
      hexDigits_of_lt (Nat.mod_lt n (by omega))]
    rfl

theorem digitValue?_digitChar {d : Nat} (h : d < 16) :
    digitValue? (Nat.digitChar d).toUpper = some d :=
  digitValue?_eq_some.mpr (isHexDigit_toUpper h)

theorem readDigitsFrom_append (base value : Nat) (cs ds : List Char) :
    readDigitsFrom base value (cs ++ ds) =
      (readDigitsFrom base value cs).bind fun v => readDigitsFrom base v ds := by
  induction cs generalizing value with
  | nil => rfl
  | cons c cs ih =>
    simp only [List.cons_append, readDigitsFrom]
    cases digitValue? c with
    | none => rfl
    | some d =>
      dsimp only
      split
      · exact ih _
      · rfl

theorem readDigitsFrom_hexDigits (n : Nat) : readDigitsFrom 16 0 (hexDigits n) = some n := by
  induction n using Nat.strongRecOn with
  | ind n ih =>
    rcases Nat.lt_or_ge n 16 with hLt | hLe
    · rw [hexDigits_of_lt hLt]
      simp [readDigitsFrom, digitValue?_digitChar hLt, hLt]
    · have hDigit : n % 16 < 16 := Nat.mod_lt n (by omega)
      rw [hexDigits_of_le hLe, readDigitsFrom_append, ih (n / 16) (by omega),
        hexDigits_of_lt hDigit]
      simp [readDigitsFrom, digitValue?_digitChar hDigit, hDigit, Nat.div_add_mod']

theorem readDigits_hexDigits (n : Nat) : readDigits 16 (hexDigits n) = some n := by
  have hSome : hexDigits n ≠ [] := by simp [hexDigits, Nat.toDigits_ne_nil]
  rw [readDigits, if_neg (by simpa using hSome), readDigitsFrom_hexDigits]

/-! ### Decimal numerals -/

theorem numeral_injective : Function.Injective (toString : Nat → String) := by
  intro n m h
  have hDigits : (Nat.repr n).toList = (Nat.repr m).toList := congrArg String.toList h
  rw [Nat.toList_repr, Nat.toList_repr] at hDigits
  rw [← @Nat.ofDigitChars_ten_toDigits n, hDigits, Nat.ofDigitChars_ten_toDigits]

theorem isDigit_of_mem_numeral {n : Nat} {c : Char} (h : c ∈ (toString n).toList) :
    c.isDigit := by
  have hMem : c ∈ (Nat.repr n).toList := h
  rw [Nat.toList_repr] at hMem
  exact Nat.isDigit_of_mem_toDigits (by omega) (by omega) hMem

end FixedLayout.Text
