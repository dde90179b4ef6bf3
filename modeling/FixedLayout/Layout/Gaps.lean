import FixedLayout.Record

/-! Bytes that no field claims. A gap is as wide as alignment and room allow, so that the generated
code has to name few of them. -/

namespace FixedLayout.Layout

/-- The widest of the words of 8, 4, 2 and 1 bytes that is aligned at `cursor` and fits into `room`
bytes. -/
def gapWidth (cursor room : Nat) : Nat :=
  if cursor % 8 = 0 ∧ 8 ≤ room then 8
  else if cursor % 4 = 0 ∧ 4 ≤ room then 4
  else if cursor % 2 = 0 ∧ 2 ≤ room then 2
  else 1

/-- The bytes of the first gap. Words of four bytes and more are taken as often as they fit. -/
def gapSpan (cursor room : Nat) : Nat :=
  let width := gapWidth cursor room
  if 4 ≤ width then room - room % width else width

/-- A gap is as long as words of its width fit, or one word of two bytes or one byte long. -/
theorem gapSpan_cases (cursor room : Nat) :
    (cursor % 8 = 0 ∧ 8 ≤ room ∧ gapSpan cursor room = room - room % 8) ∨
    (cursor % 4 = 0 ∧ 4 ≤ room ∧ (cursor % 8 ≠ 0 ∨ room < 8) ∧
      gapSpan cursor room = room - room % 4) ∨
    (cursor % 2 = 0 ∧ 2 ≤ room ∧ (cursor % 4 ≠ 0 ∨ room < 4) ∧ gapSpan cursor room = 2) ∨
    ((cursor % 2 ≠ 0 ∨ room < 2) ∧ gapSpan cursor room = 1) := by
  simp only [gapSpan, gapWidth]
  repeat' split
  all_goals omega

/-- A gap takes some room. -/
theorem gapSpan_pos (cursor room : Nat) : 0 < gapSpan cursor room := by
  have := gapSpan_cases cursor room
  omega

/-- A gap stays inside the room. -/
theorem gapSpan_le (cursor : Nat) {room : Nat} (h : 0 < room) : gapSpan cursor room ≤ room := by
  have := gapSpan_cases cursor room
  omega

/-- The gaps from `cursor` up to `target`. -/
def fillGaps (cursor target : Nat) : List Member :=
  if _h : cursor < target then
    let span := gapSpan cursor (target - cursor)
    .gap cursor span :: fillGaps (cursor + span) target
  else []
termination_by target - cursor
decreasing_by
  have := gapSpan_pos cursor (target - cursor)
  omega

/-- Each gap begins at a cursor on the way to the target. -/
theorem exists_cursor_of_mem_fillGaps {cursor target : Nat} {m : Member}
    (h : m ∈ fillGaps cursor target) :
    ∃ c < target, m = .gap c (gapSpan c (target - c)) := by
  fun_induction fillGaps cursor target with
  | case1 cursor hLt span ih =>
    rcases List.mem_cons.mp h with rfl | h
    · exact ⟨cursor, hLt, rfl⟩
    · exact ih h
  | case2 => cases h

end FixedLayout.Layout
