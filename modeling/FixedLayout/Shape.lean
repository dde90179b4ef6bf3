import FixedLayout.Scalar

/-! Shapes: the types of fields, parameters and results as the described library writes them. -/

namespace FixedLayout

inductive Shape where
  | void
  | scalar (s : Scalar)
  | pointer (pointee : Shape)
  | named (name : String) (args : List Shape)
  /-- A parameter of an open generic definition. -/
  | param (name : String)
deriving Repr, Inhabited

namespace Shape

mutual

/-- Shapes are compared part by part. -/
def decEq : (a b : Shape) → Decidable (a = b)
  | .void, .void => isTrue rfl
  | .scalar s, .scalar t => if h : s = t then isTrue (by rw [h]) else isFalse (by simpa using h)
  | .pointer a, .pointer b =>
    match decEq a b with
    | isTrue h => isTrue (by rw [h])
    | isFalse h => isFalse (by simpa using h)
  | .named n as, .named m bs =>
    match decEqList as bs with
    | isTrue h => if hn : n = m then isTrue (by rw [h, hn]) else isFalse (by simp [hn])
    | isFalse h => isFalse (by simp [h])
  | .param n, .param m => if h : n = m then isTrue (by rw [h]) else isFalse (by simpa using h)
  | .void, .scalar _ | .void, .pointer _ | .void, .named .. | .void, .param _
  | .scalar _, .void | .scalar _, .pointer _ | .scalar _, .named .. | .scalar _, .param _
  | .pointer _, .void | .pointer _, .scalar _ | .pointer _, .named .. | .pointer _, .param _
  | .named .., .void | .named .., .scalar _ | .named .., .pointer _ | .named .., .param _
  | .param _, .void | .param _, .scalar _ | .param _, .pointer _ | .param _, .named .. =>
    isFalse (by simp)

/-- Lists of shapes are compared in order. -/
def decEqList : (as bs : List Shape) → Decidable (as = bs)
  | [], [] => isTrue rfl
  | a :: as, b :: bs =>
    match decEq a b, decEqList as bs with
    | isTrue h, isTrue hs => isTrue (by rw [h, hs])
    | isFalse h, _ => isFalse (by simp [h])
    | _, isFalse hs => isFalse (by simp [hs])
  | [], _ :: _ => isFalse (by simp)
  | _ :: _, [] => isFalse (by simp)

end

instance : DecidableEq Shape := decEq

mutual

def text : Shape → String
  | void => "void"
  | scalar s => s.label
  | pointer pointee => text pointee ++ "*"
  | named name args =>
    if args.isEmpty then name else name ++ "<" ++ ", ".intercalate (texts args) ++ ">"
  | param name => name

def texts : List Shape → List String
  | [] => []
  | shape :: shapes => text shape :: texts shapes

end

instance : ToString Shape := ⟨text⟩

/-- The shape behind all pointers. -/
def pointeeBase : Shape → Shape
  | pointer pointee => pointeeBase pointee
  | shape => shape

/-- The number of pointers in front. -/
def pointerDepth : Shape → Nat
  | pointer pointee => pointerDepth pointee + 1
  | _ => 0

end Shape

end FixedLayout
