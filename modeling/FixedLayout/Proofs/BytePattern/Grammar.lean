import FixedLayout.BytePattern
import FixedLayout.Proofs.Association
import FixedLayout.Proofs.Text.Digits
import FixedLayout.Proofs.Text.Words
import Mathlib.Data.List.Forall2

/-! The grammar of byte patterns: question marks for a wildcard, two hexadecimal digits for a byte,
blanks between them. What is read goes beyond it in one point, a plus sign in the place of the first
digit. -/

namespace FixedLayout.BytePattern

open Text (IsHexDigit)

/-- A word of the grammar, with the byte and the bit of the mask that it stands for. -/
inductive Writes : List Char → UInt8 → Bool → Prop
  | wildcard : Writes ['?'] 0 false
  | wildcards : Writes ['?', '?'] 0 false
  | byte {high low : Char} {h l : Nat} (hHigh : IsHexDigit high h) (hLow : IsHexDigit low l) :
      Writes [high, low] (UInt8.ofNat (16 * h + l)) true

/-- A word that is read: one of the grammar, or a plus sign before a digit. -/
inductive Reads : List Char → UInt8 → Bool → Prop
  | plain {word : List Char} {byte : UInt8} {bit : Bool} (h : Writes word byte bit) :
      Reads word byte bit
  | signed {low : Char} {l : Nat} (hLow : IsHexDigit low l) :
      Reads ['+', low] (UInt8.ofNat l) true

/-- The pieces of a text between its blanks, apart from empty ones. -/
def tokens (text : String) : List (List Char) :=
  (text.toList.splitOnP Text.isBlank).filter (!·.isEmpty)

/-- Every token is a word of the given kind, and one of them stands for a byte. -/
structure Grammatical (Word : List Char → UInt8 → Bool → Prop) (text : String) : Prop where
  words : ∀ token ∈ tokens text, ∃ byte bit, Word token byte bit
  byte : ∃ token ∈ tokens text, ∃ byte, Word token byte true

/-! ### Single words -/

theorem Writes.head?_ne_plus {word : List Char} {byte : UInt8} {bit : Bool}
    (h : Writes word byte bit) : word.head? ≠ some '+' := by
  cases h with
  | wildcard | wildcards => decide
  | byte hHigh =>
    rintro ⟨⟩
    exact Text.not_isHexDigit rfl hHigh

/-- What is read is a word of the grammar unless it starts with the sign. -/
theorem Reads.writes_iff {word : List Char} {byte : UInt8} {bit : Bool} (h : Reads word byte bit) :
    Writes word byte bit ↔ word.head? ≠ some '+' := by
  refine ⟨Writes.head?_ne_plus, fun hHead => ?_⟩
  cases h with
  | plain h => exact h
  | signed => exact absurd rfl hHead

theorem byte?_eq_some {high low : Char} {b : UInt8} : byte? high low = some b ↔
    ∃ h l, (high = '+' ∧ h = 0 ∨ IsHexDigit high h) ∧ IsHexDigit low l ∧
      UInt8.ofNat (16 * h + l) = b := by
  by_cases hPlus : high = '+'
  · subst hPlus
    have hNot (h : Nat) : ¬IsHexDigit '+' h := Text.not_isHexDigit rfl
    simp [byte?, Option.bind_eq_some_iff, Text.digitValue?_eq_some, hNot]
  · simp [byte?, hPlus, Option.bind_eq_some_iff, Text.digitValue?_eq_some]

/-- A word is read as the byte and the bit that its cell has. -/
theorem reads_of_cell? {word : List Char} {cell : Option UInt8} (h : cell? word = some cell) :
    Reads word (cell.getD 0) cell.isSome := by
  unfold cell? at h
  split at h
  · cases h
    exact .plain .wildcard
  · rename_i high low
    split at h
    · rename_i hMarks
      cases h
      obtain ⟨rfl, rfl⟩ : high = '?' ∧ low = '?' := by simpa using hMarks
      exact .plain .wildcards
    · obtain ⟨b, hByte, rfl⟩ := Option.map_eq_some_iff.mp h
      obtain ⟨h, l, ⟨rfl, rfl⟩ | hHigh, hLow, rfl⟩ := byte?_eq_some.mp hByte
      · simpa using Reads.signed hLow
      · exact .plain (.byte hHigh hLow)
  · cases h

theorem cell?_of_byte {high low : Char} {b : UInt8} (h : byte? high low = some b)
    (hLow : low ≠ '?') : cell? [high, low] = some (some b) := by
  simp [cell?, hLow, h]

theorem cell?_of_reads {word : List Char} {byte : UInt8} {bit : Bool} (h : Reads word byte bit) :
    cell? word = some (if bit then some byte else none) := by
  have hNoMark {low : Char} {l : Nat} (hLow : IsHexDigit low l) : low ≠ '?' := by
    rintro rfl
    exact Text.not_isHexDigit rfl hLow
  cases h with
  | plain h =>
    cases h with
    | wildcard | wildcards => rfl
    | byte hHigh hLow =>
      exact cell?_of_byte (byte?_eq_some.mpr ⟨_, _, .inr hHigh, hLow, rfl⟩) (hNoMark hLow)
  | signed hLow =>
    exact cell?_of_byte (byte?_eq_some.mpr ⟨0, _, .inl ⟨rfl, rfl⟩, hLow, by simp⟩) (hNoMark hLow)

/-! ### Whole texts -/

theorem any_isSome {cells : List (Option UInt8)} :
    cells.any Option.isSome = true ↔ ∃ b, some b ∈ cells := by
  simp [Option.isSome_iff_exists, and_comm]

theorem parse_eq_ok {owner text : String} {p : BytePattern} : parse owner text = .ok p ↔
    (tokens text).map cell? = p.cells.map some ∧ ∃ b, some b ∈ p.cells := by
  obtain ⟨cells⟩ := p
  rw [parse, Text.words_eq_splitOnP, ← tokens, ← mapM_eq_some_iff, ← any_isSome]
  cases (tokens text).mapM cell? with
  | none => simp
  | some found =>
    simp only [Option.some.injEq]
    constructor
    · intro h
      split at h
      · cases h
        exact ⟨rfl, ‹_›⟩
      · cases h
    · rintro ⟨rfl, hAny⟩
      rw [if_pos hAny]

theorem exists_parse_iff {owner text : String} :
    (∃ p, parse owner text = .ok p) ↔ Grammatical Reads text := by
  constructor
  · rintro ⟨p, h⟩
    obtain ⟨hCells, b, hByte⟩ := parse_eq_ok.mp h
    refine ⟨fun token hToken => ?_, ?_⟩
    · have hMem : cell? token ∈ p.cells.map some := hCells ▸ List.mem_map_of_mem hToken
      obtain ⟨cell, -, hCell⟩ := List.mem_map.mp hMem
      exact ⟨_, _, reads_of_cell? hCell.symm⟩
    · have hMem : some (some b) ∈ (tokens text).map cell? := hCells ▸ List.mem_map_of_mem hByte
      obtain ⟨token, hToken, hCell⟩ := List.mem_map.mp hMem
      exact ⟨token, hToken, b, reads_of_cell? hCell⟩
  · rintro ⟨hWords, token, hToken, b, hByte⟩
    let cell (token : List Char) : Option UInt8 := (cell? token).getD none
    refine ⟨⟨(tokens text).map cell⟩, parse_eq_ok.mpr ⟨?_, b, ?_⟩⟩
    · rw [List.map_map]
      refine List.map_congr_left fun token hToken => ?_
      obtain ⟨byte, bit, hReads⟩ := hWords token hToken
      simp [cell, cell?_of_reads hReads]
    · exact List.mem_map.mpr ⟨token, hToken, by simp [cell, cell?_of_reads hByte]⟩

theorem parse_of_not_exists {owner text : String} (h : ¬∃ p, parse owner text = .ok p) :
    parse owner text = .error (.invalidSignature owner text) := by
  unfold parse at h ⊢
  split
  · split
    · simp_all
    · rfl
  · rfl

theorem zip_bytes_mask (p : BytePattern) :
    p.bytes.zip p.mask = p.cells.map fun cell => (cell.getD 0, cell.isSome) := by
  simp [bytes, mask, List.zip_map']

/-- One byte and one bit of the mask for each token, in order. -/
theorem forall₂_of_parse {owner text : String} {p : BytePattern} (h : parse owner text = .ok p) :
    List.Forall₂ (fun token cell => Reads token cell.1 cell.2) (tokens text)
      (p.bytes.zip p.mask) := by
  have hSame : List.Forall₂ (fun token cell => cell? token = some cell) (tokens text) p.cells := by
    have hCells := (parse_eq_ok.mp h).1
    rwa [← List.forall₂_eq_eq_eq, List.forall₂_map_left_iff, List.forall₂_map_right_iff] at hCells
  rw [zip_bytes_mask, List.forall₂_map_right_iff]
  exact hSame.imp fun _ _ => reads_of_cell?

theorem grammatical_writes_iff {text : String} (h : Grammatical Reads text) :
    Grammatical Writes text ↔ ∀ token ∈ tokens text, token.head? ≠ some '+' := by
  constructor
  · intro hWrites token hToken
    obtain ⟨byte, bit, hWord⟩ := hWrites.words token hToken
    exact hWord.head?_ne_plus
  · intro hHead
    refine ⟨fun token hToken => ?_, ?_⟩
    · obtain ⟨byte, bit, hWord⟩ := h.words token hToken
      exact ⟨byte, bit, hWord.writes_iff.mpr (hHead token hToken)⟩
    · obtain ⟨token, hToken, byte, hWord⟩ := h.byte
      exact ⟨token, hToken, byte, hWord.writes_iff.mpr (hHead token hToken)⟩

theorem Grammatical.reads {text : String} (h : Grammatical Writes text) : Grammatical Reads text where
  words token hToken :=
    let ⟨byte, bit, hWord⟩ := h.words token hToken
    ⟨byte, bit, .plain hWord⟩
  byte :=
    let ⟨token, hToken, byte, hWord⟩ := h.byte
    ⟨token, hToken, byte, .plain hWord⟩

/-- A text is parsed exactly if it is a text of the grammar, where a plus sign may take the place of
a first digit. It yields the byte and the bit of each token in order, and any other text is refused
in the name of the owner. So the grammar without the sign decides as well unless the sign occurs. -/
theorem parse_grammar (owner text : String) :
    ((∃ p, parse owner text = .ok p) ↔ Grammatical Reads text) ∧
    (∀ p, parse owner text = .ok p →
      List.Forall₂ (fun token cell => Reads token cell.1 cell.2) (tokens text)
        (p.bytes.zip p.mask)) ∧
    (¬Grammatical Reads text → parse owner text = .error (.invalidSignature owner text)) ∧
    (((∃ p, parse owner text = .ok p) ↔ Grammatical Writes text) ↔
      ¬(Grammatical Reads text ∧ ∃ token ∈ tokens text, token.head? = some '+')) := by
  refine ⟨exists_parse_iff, fun p h => forall₂_of_parse h, fun h => ?_, ?_⟩
  · exact parse_of_not_exists (mt exists_parse_iff.mp h)
  · rw [exists_parse_iff]
    by_cases hReads : Grammatical Reads text
    · simp [hReads, grammatical_writes_iff hReads]
    · simp [hReads, mt Grammatical.reads hReads]

/-- A plus sign before a digit is read as that digit, although the grammar has no such word. -/
theorem exists_parse_not_grammatical :
    parse "Character" "E8 +5" = .ok ⟨[some 0xE8, some 0x05]⟩ ∧ ¬Grammatical Writes "E8 +5" := by
  refine ⟨by decide, fun h => ?_⟩
  obtain ⟨byte, bit, hWord⟩ := h.words ['+', '5'] (by decide)
  exact hWord.head?_ne_plus rfl

end FixedLayout.BytePattern
