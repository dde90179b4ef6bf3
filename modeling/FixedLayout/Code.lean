/-! Generated code as data. A declaration answers the steps that write it; a writer takes the steps
and keeps the text and the current depth. -/

namespace FixedLayout

/-- One step of writing. -/
inductive Code.Step where
  | line (text : String)
  | blank
  | indent
  | dedent
  /-- A header with an opening brace, the body one level deeper, and the closing brace. -/
  | block (header : String) (body : List Code.Step)
deriving Repr, Inhabited

/-- The steps that write a piece of code, in order. -/
abbrev Code := List Code.Step

/-- What has been written, and how deep the next line stands. -/
structure Writer where
  width : Nat
  level : Nat
  text : String
deriving Repr, DecidableEq

namespace Writer

/-- Nothing written, with `width` blanks for each level. -/
def empty (width : Nat) : Writer := ⟨width, 0, ""⟩

/-- The blanks in front of a line at the current level. -/
def margin (w : Writer) : String := String.ofList (List.replicate (w.level * w.width) ' ')

/-- Writes one line. An empty line has no margin. -/
def line (w : Writer) (text : String) : Writer :=
  { w with text := w.text ++ (if text.isEmpty then "" else w.margin ++ text) ++ "\n" }

def indent (w : Writer) : Writer := { w with level := w.level + 1 }

/-- One level less deep. The outermost level stays. -/
def dedent (w : Writer) : Writer := { w with level := w.level - 1 }

mutual

def step (w : Writer) : Code.Step → Writer
  | .line text => w.line text
  | .blank => w.line ""
  | .indent => w.indent
  | .dedent => w.dedent
  | .block header body => ((run (w.line (header ++ " \x7b")).indent body).dedent).line "\x7d"

def run (w : Writer) : Code → Writer
  | [] => w
  | s :: steps => run (step w s) steps

end

end Writer

def Code.render (width : Nat) (code : Code) : String := ((Writer.empty width).run code).text

end FixedLayout
