import FixedLayout.Proofs.BytePattern.Grammar

/-! The normal form of byte patterns. What is read, with its blanks, its case and its signs, is
written with one word of the grammar for each cell and single spaces between them. That text is read
as the same pattern again, so the text of a pattern and its bytes and mask describe one scan. -/

namespace FixedLayout.BytePattern

open Text (IsHexDigit IsWord)

theorem isBlank_of_isHexDigit {c : Char} {d : Nat} (h : IsHexDigit c d) :
    Text.isBlank c = false := by
  have hDigits : ∀ d < 16, Text.isBlank d.digitChar = false ∧
      Text.isBlank d.digitChar.toUpper = false := by
    decide
  rcases h.char with rfl | rfl
  · exact (hDigits d h.lt).1
  · exact (hDigits d h.lt).2

theorem Writes.isWord {word : List Char} {byte : UInt8} {bit : Bool} (h : Writes word byte bit) :
    IsWord word := by
  have hMark : Text.isBlank '?' = false := by decide
  cases h with
  | wildcard | wildcards => exact ⟨by simp, by simp [hMark]⟩
  | byte hHigh hLow =>
    refine ⟨by simp, fun c hc => ?_⟩
    rcases List.mem_pair.mp hc with rfl | rfl
    · exact isBlank_of_isHexDigit hHigh
    · exact isBlank_of_isHexDigit hLow

/-- The text of a cell is a word of the grammar. -/
theorem writes_cellText (cell : Option UInt8) :
    Writes (cellText cell).toList (cell.getD 0) cell.isSome := by
  cases cell with
  | none => exact .wildcards
  | some b =>
    have hLt : b.toNat < 256 := b.toNat_lt
    have hHigh : b.toNat / 16 < 16 := by omega
    have hLow : b.toNat % 16 < 16 := by omega
    have hByte : UInt8.ofNat (16 * (b.toNat / 16) + b.toNat % 16) = b := by
      rw [Nat.div_add_mod, UInt8.ofNat_toNat]
    have hWord := Writes.byte (Text.isHexDigit_toUpper hHigh) (Text.isHexDigit_toUpper hLow)
    rwa [hByte, ← Text.toList_hexPadded_two hLt] at hWord

/-- The words of the text of a pattern are those of its cells. -/
theorem tokens_text (p : BytePattern) :
    tokens p.text = p.cells.map fun cell => (cellText cell).toList := by
  have hWords : ∀ word ∈ (p.cells.map cellText).map String.toList, IsWord word := by
    simp only [List.map_map, List.forall_mem_map]
    exact fun cell _ => (writes_cellText cell).isWord
  rw [tokens, ← Text.words_eq_splitOnP, text, String.toList_intercalate]
  exact (Text.words_intercalate hWords).trans List.map_map

/-- A pattern with a byte is read back from its text, whoever asks for it. -/
theorem parse_text_of_byte {p : BytePattern} {b : UInt8} (h : some b ∈ p.cells) (owner : String) :
    parse owner p.text = .ok p := by
  refine parse_eq_ok.mpr ⟨?_, b, h⟩
  rw [tokens_text, List.map_map]
  refine List.map_congr_left fun cell _ => ?_
  rw [Function.comp_apply, cell?_of_reads (.plain (writes_cellText cell))]
  cases cell <;> rfl

/-- A pattern that is read has as many bytes as bits in its mask, and some byte that has to match;
the byte of a wildcard is zero. Its text consists of words of the grammar, one for each byte and bit
in order, and is read as the same pattern for every owner. -/
theorem normalForm_of_parse {owner text : String} {p : BytePattern} (h : parse owner text = .ok p) :
    p.bytes.length = p.mask.length ∧ 0 < p.bytes.length ∧
    (∀ i : Nat, p.mask[i]? = some false → p.bytes[i]? = some 0) ∧ true ∈ p.mask ∧
    List.Forall₂ (fun token cell => Writes token cell.1 cell.2) (tokens p.text)
      (p.bytes.zip p.mask) ∧
    ∀ owner', parse owner' p.text = .ok p := by
  obtain ⟨-, b, hByte⟩ := parse_eq_ok.mp h
  refine ⟨by simp [bytes, mask], ?_, fun i hWild => ?_, ?_, ?_, parse_text_of_byte hByte⟩
  · rw [bytes, List.length_map]
    exact List.length_pos_of_mem hByte
  · rw [mask, List.getElem?_map, Option.map_eq_some_iff] at hWild
    obtain ⟨cell, hCell, hNone⟩ := hWild
    obtain rfl : cell = none := by simpa using hNone
    rw [bytes, List.getElem?_map, hCell]
    rfl
  · exact List.mem_map.mpr ⟨some b, hByte, rfl⟩
  · rw [tokens_text, zip_bytes_mask, List.forall₂_map_left_iff, List.forall₂_map_right_iff,
      List.forall₂_same]
    exact fun cell _ => writes_cellText cell

/-- Blanks of any kind, digits of either case, both forms of the wildcard and a sign. -/
theorem normalForm_of_parse_mixedText :
    let p : BytePattern := ⟨[some 0x48, some 0x8B, none, none, some 0x05]⟩
    parse "Character" "\t48 8b\u00a0? ??\n+5" = .ok p ∧ p.text = "48 8B ?? ?? 05" ∧
      p.mask[2]? = some false ∧ p.bytes[2]? = some 0 ∧ true ∈ p.mask ∧
      parse "Vehicle" "48 8B ?? ?? 05" = .ok p := by
  intro p
  have hParse : parse "Character" "\t48 8b\u00a0? ??\n+5" = .ok p := by decide
  have hText : p.text = "48 8B ?? ?? 05" := by decide
  obtain ⟨-, -, hZero, hBit, -, hBack⟩ := normalForm_of_parse hParse
  exact ⟨hParse, hText, rfl, hZero 2 rfl, hBit, hText ▸ hBack "Vehicle"⟩

end FixedLayout.BytePattern
