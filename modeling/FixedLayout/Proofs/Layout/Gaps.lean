import FixedLayout.Proofs.Layout.Tiling

/-! Gaps between fields. A gap of words leaves less than a word behind it, and a shorter gap brings
the cursor to a wider alignment, so six gaps are enough for any room. On the way the cursor never
leaves the words of 64 bits. -/

namespace FixedLayout.Layout

/-! ### How many gaps there are -/

section Length

variable {cursor target : Nat}

theorem fillGaps_eq_nil (h : target ≤ cursor) : fillGaps cursor target = [] := by
  rw [fillGaps, dif_neg (by omega)]

/-- A gap adds one to those behind it. -/
theorem length_fillGaps_le_succ {n : Nat}
    (h : (fillGaps (cursor + gapSpan cursor (target - cursor)) target).length ≤ n) :
    (fillGaps cursor target).length ≤ n + 1 := by
  rw [fillGaps]
  split
  · exact Nat.succ_le_succ h
  · exact Nat.zero_le _

theorem length_fillGaps_of_byte (hRoom : target ≤ cursor + 1) :
    (fillGaps cursor target).length ≤ 1 := by
  apply length_fillGaps_le_succ
  have := gapSpan_pos cursor (target - cursor)
  rw [fillGaps_eq_nil (by omega), List.length_nil]

/-- Less than four bytes: two of them, and the last one. -/
theorem length_fillGaps_of_few (hEven : cursor % 2 = 0) (hRoom : target < cursor + 4) :
    (fillGaps cursor target).length ≤ 2 := by
  apply length_fillGaps_le_succ
  have := gapSpan_cases cursor (target - cursor)
  exact length_fillGaps_of_byte (by omega)

/-- Where no eight bytes are taken at once, words of four bytes leave less than one of them. -/
theorem length_fillGaps_of_words (hAligned : cursor % 4 = 0)
    (hRoom : cursor % 8 ≠ 0 ∨ target < cursor + 8) : (fillGaps cursor target).length ≤ 3 := by
  have hSpan := gapSpan_cases cursor (target - cursor)
  by_cases hFew : target < cursor + 4
  · exact (length_fillGaps_of_few (by omega) hFew).trans (by omega)
  · exact length_fillGaps_le_succ (length_fillGaps_of_few (by omega) (by omega))

/-- Words of eight bytes leave less than one of them. -/
theorem length_fillGaps_of_aligned (hAligned : cursor % 4 = 0) :
    (fillGaps cursor target).length ≤ 4 := by
  have hSpan := gapSpan_cases cursor (target - cursor)
  by_cases hRoom : cursor % 8 ≠ 0 ∨ target < cursor + 8
  · exact (length_fillGaps_of_words hAligned hRoom).trans (by omega)
  · exact length_fillGaps_le_succ (length_fillGaps_of_words (by omega) (by omega))

/-- Two bytes lead to the alignment of four, if there are two. -/
theorem length_fillGaps_of_even (hEven : cursor % 2 = 0) :
    (fillGaps cursor target).length ≤ 5 := by
  have hSpan := gapSpan_cases cursor (target - cursor)
  by_cases hByte : target ≤ cursor + 1
  · exact (length_fillGaps_of_byte hByte).trans (by omega)
  · by_cases hAligned : cursor % 4 = 0
    · exact (length_fillGaps_of_aligned hAligned).trans (by omega)
    · exact length_fillGaps_le_succ (length_fillGaps_of_aligned (by omega))

theorem length_fillGaps_le_six (cursor target : Nat) : (fillGaps cursor target).length ≤ 6 := by
  have hSpan := gapSpan_cases cursor (target - cursor)
  by_cases hEven : cursor % 2 = 0
  · exact (length_fillGaps_of_even hEven).trans (by omega)
  · exact length_fillGaps_le_succ (length_fillGaps_of_even (by omega))

end Length

/-! ### The loop in words -/

/-- The sum of two words, unless it is none itself. -/
def wordSum? (a b : Nat) : Option Nat := if a + b < 2 ^ 64 then some (a + b) else none

/-- The difference of two words, unless it is below zero. -/
def wordDifference? (a b : Nat) : Option Nat := if b ≤ a then some (a - b) else none

def wordSpan? (cursor room : Nat) : Option Nat :=
  let width := gapWidth cursor room
  if 4 ≤ width then wordDifference? room (room % width) else some width

/-- The gaps as a loop over words of 64 bits finds them. There is no answer if some rounds do not end
it, or if a sum or a difference is out of range. -/
def wordGaps? (rounds cursor target : Nat) : Option (List Member) :=
  if cursor < target then
    match rounds with
    | 0 => none
    | rounds + 1 => do
      let room ← wordDifference? target cursor
      let span ← wordSpan? cursor room
      let next ← wordSum? cursor span
      let gaps ← wordGaps? rounds next target
      some (.gap cursor span :: gaps)
  else some []

theorem wordSpan?_eq (cursor room : Nat) :
    wordSpan? cursor room = some (gapSpan cursor room) := by
  rw [wordSpan?, gapSpan]
  split
  · exact if_pos (Nat.mod_le ..)
  · rfl

/-- A round for each gap ends the loop, and all that it adds and subtracts is in range. -/
theorem wordGaps?_eq (cursor : Nat) {target : Nat} (hTarget : target < 2 ^ 64) :
    ∀ {rounds : Nat}, (fillGaps cursor target).length ≤ rounds →
      wordGaps? rounds cursor target = some (fillGaps cursor target) := by
  fun_induction fillGaps cursor target with
  | case1 cursor hLt span =>
    rename_i ih
    intro rounds hRounds
    have hLe : span ≤ target - cursor := gapSpan_le cursor (by omega)
    have hRoom : wordDifference? target cursor = some (target - cursor) := if_pos hLt.le
    have hSpan : wordSpan? cursor (target - cursor) = some span := wordSpan?_eq ..
    have hNext : wordSum? cursor span = some (cursor + span) := if_pos (by omega)
    cases rounds with
    | zero => exact absurd hRounds (Nat.not_succ_le_zero _)
    | succ rounds =>
      have hRest := ih (Nat.le_of_succ_le_succ hRounds)
      rw [wordGaps?.eq_def, if_pos hLt]
      simp only [hRoom, hSpan, hNext, hRest, Option.bind_eq_bind, Option.bind_some, span]
  | case2 cursor hLe =>
    intro rounds _
    rw [wordGaps?.eq_def, if_neg hLe]

/-! ### What they are -/

/-- Gaps that close the room between two addresses. -/
structure Closes (cursor target : Nat) (gaps : List Member) : Prop where
  tiles : Tiles cursor target gaps
  few : gaps.length ≤ 6
  gap : ∀ m ∈ gaps, m = .gap m.offset m.size
  positive : ∀ m ∈ gaps, 0 < m.size
  aligned : ∀ m ∈ gaps, 4 ≤ m.size → 4 ∣ m.offset
  byte : ∀ m ∈ gaps, m.size = 1 → m.type = .ofPath ["u8"]
  bytes : ∀ m ∈ gaps, 1 < m.size → m.type = (TypeExpr.ofPath ["u8"]).withExtent m.size

theorem closes_fillGaps {cursor target : Nat} (h : cursor < target) :
    Closes cursor target (fillGaps cursor target) := by
  have hTiles := tiles_fillGaps cursor target
  rw [max_eq_left h.le] at hTiles
  refine ⟨hTiles, length_fillGaps_le_six cursor target, ?_, ?_, ?_, ?_, ?_⟩ <;>
    intro m hMem <;> obtain ⟨c, hLt, rfl⟩ := exists_cursor_of_mem_fillGaps hMem
  · rfl
  · exact gapSpan_pos c _
  · intro hWord
    have := gapSpan_cases c (target - c)
    exact Nat.dvd_of_mod_eq_zero (by simp only [Member.gap] at hWord ⊢; omega)
  · intro hByte
    exact if_pos hByte
  · intro hBytes
    exact if_neg hBytes.ne'

/-- Whatever the target in the address space, the loop that fills gaps ends within six rounds and
without an overflow. From a cursor at the target or behind it there are none, else they close the
room in between. -/
theorem fillGaps_closes (cursor : Nat) {target : Nat} (hTarget : target < 2 ^ 64) :
    (∀ rounds, 6 ≤ rounds → wordGaps? rounds cursor target = some (fillGaps cursor target)) ∧
    (target ≤ cursor → fillGaps cursor target = []) ∧
    (cursor < target → Closes cursor target (fillGaps cursor target)) := by
  refine ⟨fun rounds hRounds => ?_, fillGaps_eq_nil, closes_fillGaps⟩
  exact wordGaps?_eq cursor hTarget ((length_fillGaps_le_six cursor target).trans hRounds)

/-- The greatest number of gaps: up to the words of two, four and eight bytes, and down again. -/
theorem fillGaps_closes_odd : 23 < 2 ^ 64 ∧ 6 ≤ 6 ∧ 5 < 23 ∧
    (fillGaps 5 23).map (fun m => (m.offset, m.size)) =
      [(5, 1), (6, 2), (8, 8), (16, 4), (20, 2), (22, 1)] ∧
    wordGaps? 5 5 23 = none ∧ wordGaps? 6 5 23 = some (fillGaps 5 23) ∧
    Closes 5 23 (fillGaps 5 23) := by
  obtain ⟨hLoop, -, hCloses⟩ := fillGaps_closes 5 (by decide : 23 < 2 ^ 64)
  exact ⟨by decide, by decide, by decide, by decide +kernel, by decide, hLoop 6 (by decide),
    hCloses (by decide)⟩

end FixedLayout.Layout
