import FixedLayout.Code
import FixedLayout.Proofs.Text.Lines

/-! Code at a depth. Code in which every indent has its dedent leaves a writer at the level where it
found it. What it writes there is what it writes at the outermost level, behind the margin of the
level. -/

namespace FixedLayout

namespace Code

/-- Code of single lines that ends `depth` levels further out than it begins, and that goes no
further out on the way. -/
inductive Nested : Nat → Code → Prop
  | nil : Nested 0 []
  | line {depth : Nat} {text : String} {rest : Code} (hText : Text.IsLine text)
      (h : Nested depth rest) : Nested depth (.line text :: rest)
  | blank {depth : Nat} {rest : Code} (h : Nested depth rest) : Nested depth (.blank :: rest)
  | indent {depth : Nat} {rest : Code} (h : Nested (depth + 1) rest) :
      Nested depth (.indent :: rest)
  | dedent {depth : Nat} {rest : Code} (h : Nested depth rest) :
      Nested (depth + 1) (.dedent :: rest)
  | block {depth : Nat} {header : String} {body rest : Code} (hHeader : Text.IsLine header)
      (hBody : Nested 0 body) (h : Nested depth rest) :
      Nested depth (.block header body :: rest)

section Cons

variable {depth : Nat} {rest : Code}

@[simp] theorem nested_nil_iff : Nested depth [] ↔ depth = 0 :=
  ⟨fun h => by cases h; rfl, fun h => h ▸ .nil⟩

@[simp] theorem nested_line_iff {text : String} :
    Nested depth (.line text :: rest) ↔ Text.IsLine text ∧ Nested depth rest :=
  ⟨fun h => by cases h; constructor <;> assumption, fun h => .line h.1 h.2⟩

@[simp] theorem nested_blank_iff : Nested depth (.blank :: rest) ↔ Nested depth rest :=
  ⟨fun h => by cases h; assumption, .blank⟩

@[simp] theorem nested_indent_iff : Nested depth (.indent :: rest) ↔ Nested (depth + 1) rest :=
  ⟨fun h => by cases h; assumption, .indent⟩

@[simp] theorem nested_dedent_iff :
    Nested (depth + 1) (.dedent :: rest) ↔ Nested depth rest :=
  ⟨fun h => by cases h; assumption, .dedent⟩

@[simp] theorem nested_block_iff {header : String} {body : Code} :
    Nested depth (.block header body :: rest) ↔
      Text.IsLine header ∧ Nested 0 body ∧ Nested depth rest :=
  ⟨fun h => by cases h; refine ⟨?_, ?_, ?_⟩ <;> assumption, fun h => .block h.1 h.2.1 h.2.2⟩

end Cons

/-- Code after code goes as far out as both together. -/
theorem Nested.append {depth depth' : Nat} {code code' : Code} (h : Nested depth code)
    (h' : Nested depth' code') : Nested (depth + depth') (code ++ code') := by
  induction h with
  | nil => rwa [Nat.zero_add]
  | line hText _ ih => exact .line hText ih
  | blank _ ih => exact .blank ih
  | indent _ ih => exact .indent (Nat.add_right_comm _ depth' 1 ▸ ih)
  | dedent _ ih => exact Nat.add_right_comm _ 1 depth' ▸ .dedent ih
  | block hHeader hBody _ _ ih => exact .block hHeader hBody ih

theorem nested_flatMap {α : Type} {l : List α} {f : α → Code} (h : ∀ a ∈ l, Nested 0 (f a)) :
    Nested 0 (l.flatMap f) := by
  induction l with
  | nil => exact .nil
  | cons a l ih =>
    obtain ⟨hHead, hTail⟩ := List.forall_mem_cons.mp h
    rw [List.flatMap_cons]
    exact hHead.append (ih hTail)

theorem nested_lines {α : Type} {l : List α} {f : α → String} (h : ∀ a ∈ l, Text.IsLine (f a)) :
    Nested 0 (l.map fun a => .line (f a)) := by
  induction l with
  | nil => exact .nil
  | cons a l ih =>
    obtain ⟨hHead, hTail⟩ := List.forall_mem_cons.mp h
    exact .line hHead (ih hTail)

/-! ### What nested code writes -/

/-- Lines by their depth, written from a level on. -/
def laid (width level : Nat) (lines : List (Nat × String)) : String :=
  String.join (lines.map fun l => Text.behindMargin ((level + l.1) * width) l.2 ++ "\n")

theorem laid_cons (width level : Nat) (l : Nat × String) (lines : List (Nat × String)) :
    laid width level (l :: lines) =
      Text.behindMargin ((level + l.1) * width) l.2 ++ "\n" ++ laid width level lines := by
  rw [laid, List.map_cons, String.join_cons, laid]

theorem laid_append (width level : Nat) (lines lines' : List (Nat × String)) :
    laid width level (lines ++ lines') = laid width level lines ++ laid width level lines' := by
  rw [laid, List.map_append, String.join_append, laid, laid]

/-- Lines at a greater depth are lines from a greater level on. -/
theorem laid_deeper (width level depth : Nat) (lines : List (Nat × String)) :
    laid width level (lines.map fun l => (depth + l.1, l.2)) = laid width (level + depth) lines := by
  rw [laid, List.map_map, laid]
  simp only [Function.comp_def, Nat.add_assoc]

/-- Lines from a level on are those of the outermost level behind its margin. -/
theorem indented_laid (width level : Nat) {lines : List (Nat × String)}
    (h : ∀ l ∈ lines, Text.IsLine l.2) :
    Text.indented (level * width) (laid width 0 lines) = laid width level lines := by
  induction lines with
  | nil => exact Text.indented_empty _
  | cons l lines ih =>
    obtain ⟨hHead, hTail⟩ := List.forall_mem_cons.mp h
    rw [laid_cons, Text.indented_append (hHead.behindMargin _), ih hTail, laid_cons,
      ← Text.behindMargin_add, ← Nat.add_mul, Nat.zero_add]

end Code

namespace Writer

/-- One line more, behind the margin of the level. -/
theorem line_eq (w : Writer) (text : String) : w.line text =
    { w with text := w.text ++ (Text.behindMargin (w.level * w.width) text ++ "\n") } := by
  rw [← String.append_assoc]
  rfl

/-- From some level on, a writer adds the lines of the code and goes out to the level. -/
theorem exists_lines_of_nested {depth : Nat} {code : Code} (h : code.Nested depth) :
    ∃ lines : List (Nat × String), (∀ l ∈ lines, Text.IsLine l.2) ∧
      ∀ (w : Writer) (level : Nat), w.level = level + depth →
        w.run code = ⟨w.width, level, w.text ++ Code.laid w.width level lines⟩ := by
  induction h with
  | nil =>
    refine ⟨[], nofun, fun w level hLevel => ?_⟩
    obtain rfl : w.level = level := hLevel
    simp [run, Code.laid]
  | @line depth text rest hText _ ih =>
    obtain ⟨lines, hLines, hRun⟩ := ih
    refine ⟨(depth, text) :: lines, List.forall_mem_cons.mpr ⟨hText, hLines⟩, ?_⟩
    intro w level hLevel
    rw [run, step, hRun (w.line text) level hLevel, Code.laid_cons, line_eq, hLevel,
      String.append_assoc]
  | @blank depth rest _ ih =>
    obtain ⟨lines, hLines, hRun⟩ := ih
    refine ⟨(0, "") :: lines, List.forall_mem_cons.mpr ⟨by decide, hLines⟩, ?_⟩
    intro w level hLevel
    rw [run, step, hRun (w.line "") level hLevel, Code.laid_cons, line_eq, String.append_assoc]
    rfl
  | indent _ ih =>
    obtain ⟨lines, hLines, hRun⟩ := ih
    refine ⟨lines, hLines, fun w level hLevel => ?_⟩
    rw [run, step, hRun w.indent level (congrArg (· + 1) hLevel)]
    rfl
  | dedent _ ih =>
    obtain ⟨lines, hLines, hRun⟩ := ih
    refine ⟨lines, hLines, fun w level hLevel => ?_⟩
    rw [run, step, hRun w.dedent level (congrArg (· - 1) hLevel)]
    rfl
  | @block depth header body rest hHeader _ _ ihBody ih =>
    obtain ⟨bodyLines, hBodyLines, hBody⟩ := ihBody
    obtain ⟨lines, hLines, hRun⟩ := ih
    refine ⟨(depth, header ++ " \x7b") :: bodyLines.map (fun l => (depth + 1 + l.1, l.2)) ++
      (depth, "\x7d") :: lines, ?_, fun w level hLevel => ?_⟩
    · rw [List.forall_mem_append, List.forall_mem_cons, List.forall_mem_cons, List.forall_mem_map]
      have hBrace : Text.IsLine "\x7d" := by decide
      exact ⟨⟨Text.isLine_append.mpr ⟨hHeader, by decide⟩, hBodyLines⟩, hBrace, hLines⟩
    · rw [run, step, hBody _ (level + (depth + 1)) (congrArg (· + 1) hLevel), hRun _ level rfl]
      simp only [line_eq, dedent, indent, hLevel, Code.laid_append, Code.laid_cons,
        Code.laid_deeper, String.append_assoc, Nat.add_sub_cancel, ← Nat.add_assoc]

/-- The writer with a text after its own, behind the margin of its level. -/
def insert (w : Writer) (text : String) : Writer :=
  { w with text := w.text ++ Text.indented (w.level * w.width) text }

/-- At the level where a writer stands, nested code is what it is at the outermost level, behind the
margin of the level. -/
theorem run_nested (w : Writer) {code : Code} (h : code.Nested 0) :
    w.run code = w.insert (code.render w.width) := by
  obtain ⟨lines, hLines, hRun⟩ := exists_lines_of_nested h
  have hRender : code.render w.width = Code.laid w.width 0 lines := by
    rw [Code.render, hRun (empty w.width) 0 rfl]
    exact String.empty_append
  rw [hRun w w.level rfl, insert, hRender, Code.indented_laid _ _ hLines]

end Writer

end FixedLayout
