import FixedLayout.Ident
import FixedLayout.Text.Digits

/-! Type expressions of the generated code: a path with optional generic arguments, behind some
pointers, in an array of fixed extent if there is one. Pointers and the extent are decoration: `T`,
`*mut T` and `[T; 4]` name the same declaration. -/

namespace FixedLayout

/-- A written type. The extent counts elements, so the pointers belong to the element. -/
structure TypeExpr where
  path : List String
  arguments : Option (List TypeExpr)
  indirection : Nat
  extent : Option Nat
deriving Repr, Inhabited

namespace TypeExpr

mutual

def decEq : (s t : TypeExpr) → Decidable (s = t)
  | ⟨p, none, i, e⟩, ⟨p', none, i', e'⟩ =>
    if h : p = p' ∧ i = i' ∧ e = e' then isTrue (by simp [h]) else isFalse (by simpa using h)
  | ⟨p, some as, i, e⟩, ⟨p', some as', i', e'⟩ =>
    match decEqList as as' with
    | isTrue ha =>
      if h : p = p' ∧ i = i' ∧ e = e' then isTrue (by simp [ha, h])
      else isFalse (by simpa [ha] using h)
    | isFalse ha => isFalse (by simp [ha])
  | ⟨_, none, _, _⟩, ⟨_, some _, _, _⟩ => isFalse (by simp)
  | ⟨_, some _, _, _⟩, ⟨_, none, _, _⟩ => isFalse (by simp)

def decEqList : (ss ts : List TypeExpr) → Decidable (ss = ts)
  | [], [] => isTrue rfl
  | s :: ss, t :: ts =>
    match decEq s t, decEqList ss ts with
    | isTrue h, isTrue hs => isTrue (by rw [h, hs])
    | isFalse h, _ => isFalse (by simp [h])
    | _, isFalse hs => isFalse (by simp [hs])
  | [], _ :: _ => isFalse (by simp)
  | _ :: _, [] => isFalse (by simp)

end

instance : DecidableEq TypeExpr := decEq

/-- The first segment of paths into the generated crate. -/
def crateRoot : String := "crate"

/-- The first segment of paths into the standard library. -/
def stdRoot : String := "std"

/-- An undecorated path without arguments. -/
def ofPath (path : List String) : TypeExpr := ⟨path, none, 0, none⟩

/-- The declaration `name` in a module of the generated crate. -/
def inModule (modules : List String) (name : String) : TypeExpr :=
  ofPath (crateRoot :: modules ++ [name])

def withArguments (t : TypeExpr) (args : List TypeExpr) : TypeExpr :=
  { t with arguments := some args }

def withIndirection (t : TypeExpr) (n : Nat) : TypeExpr := { t with indirection := n }

def withExtent (t : TypeExpr) (n : Nat) : TypeExpr := { t with extent := some n }

/-- One more pointer in front. -/
def pointerTo (t : TypeExpr) : TypeExpr := { t with indirection := t.indirection + 1 }

/-- The expression without pointers and extent. -/
def base (t : TypeExpr) : TypeExpr := { t with indirection := 0, extent := none }

/-- The undecorated expression with an emptied argument list, if it has one. -/
def erased (t : TypeExpr) : TypeExpr := { t.base with arguments := t.arguments.map fun _ => [] }

/-- The path of the wrapper that keeps a value from being dropped. -/
def manuallyDropPath : List String := [stdRoot, "mem", "ManuallyDrop"]

/-- The whole expression inside the wrapper that keeps it from being dropped. -/
def manuallyDrop (t : TypeExpr) : TypeExpr := (ofPath manuallyDropPath).withArguments [t]

def isManuallyDrop (t : TypeExpr) : Bool := t.path == manuallyDropPath

def isPointer (t : TypeExpr) : Bool := t.indirection > 0

/-- The last segment of the path, or nothing for an empty path. -/
def name (t : TypeExpr) : String := t.path.getLast?.getD ""

/-- The modules around a declaration of the generated crate. Anything else lives at the root. -/
def modulePath (t : TypeExpr) : List String :=
  match t.path with
  | first :: rest => if first = crateRoot then rest.dropLast else []
  | [] => []

/-- A name behind pointers, in an array if there is an extent. -/
def decorate (indirection : Nat) (extent : Option Nat) (name : String) : String :=
  let element := String.join (List.replicate indirection "*mut ") ++ name
  match extent with
  | some n => "[" ++ element ++ "; 0x" ++ Text.hexUpper n ++ "]"
  | none => element

mutual

/-- The path and the arguments, without pointers and extent: what a declaration is known by. -/
def canonical : TypeExpr → String
  | ⟨path, none, _, _⟩ => "::".intercalate path
  | ⟨path, some args, _, _⟩ =>
    "::".intercalate path ++ "<" ++ ", ".intercalate (texts args) ++ ">"

def texts : List TypeExpr → List String
  | [] => []
  | t :: ts => decorate t.indirection t.extent (canonical t) :: texts ts

end

def text (t : TypeExpr) : String := decorate t.indirection t.extent t.canonical

instance : ToString TypeExpr := ⟨text⟩

section InModule

variable (modules : List String) (name : String)

@[simp] theorem modulePath_inModule : (inModule modules name).modulePath = modules := by
  simp [modulePath, inModule, ofPath]

@[simp] theorem name_inModule : (inModule modules name).name = name := by
  rw [TypeExpr.name, inModule, ofPath, List.getLast?_concat, Option.getD_some]

theorem canonical_inModule :
    (inModule modules name).canonical = "::".intercalate (crateRoot :: modules ++ [name]) := rfl

theorem text_inModule :
    (inModule modules name).text = "::".intercalate (crateRoot :: modules ++ [name]) :=
  String.empty_append

end InModule

theorem texts_eq_map (ts : List TypeExpr) : texts ts = ts.map text := by
  induction ts with
  | nil => rfl
  | cons t ts ih => simp [texts, text, ih]

/-- The arguments in angle brackets, or nothing where there is no list. -/
def argumentText (t : TypeExpr) : String :=
  match t.arguments with
  | some args => "<" ++ ", ".intercalate (args.map text) ++ ">"
  | none => ""

/-- The path with an empty argument list for any argument list. -/
def erasedText (t : TypeExpr) : String :=
  "::".intercalate t.path ++ if t.arguments.isSome then "<>" else ""

/-- The name as the declaration itself bears it, with its parameters. -/
def declaredName (t : TypeExpr) : String := t.name ++ t.argumentText

/-- The segments that tell a type apart inside an identifier: all below the root for the generated
crate, else the last one. -/
def mangledPath (path : List String) : List String :=
  match path with
  | first :: rest => if first = crateRoot then rest else path.drop (path.length - 1)
  | [] => []

mutual

/-- The expression as part of an identifier. Different expressions may give one text. -/
def mangled : TypeExpr → String
  | ⟨path, args, indirection, extent⟩ =>
    String.join (List.replicate indirection "Ptr_")
      ++ "_".intercalate ((mangledPath path).map Ident.dropRaw)
      ++ (match args with
        | some args => String.join (mangledArguments args)
        | none => "")
      ++ (match extent with
        | some n => "_x" ++ toString n
        | none => "")

/-- Each argument as part of an identifier, after an underscore. -/
def mangledArguments : List TypeExpr → List String
  | [] => []
  | t :: ts => ("_" ++ mangled t) :: mangledArguments ts

end

mutual

/-- The expression and every argument nested in it, from the outside in and left to right. -/
def references : TypeExpr → List TypeExpr
  | ⟨path, none, indirection, extent⟩ => [⟨path, none, indirection, extent⟩]
  | ⟨path, some args, indirection, extent⟩ =>
    ⟨path, some args, indirection, extent⟩ :: referencesOfAll args

def referencesOfAll : List TypeExpr → List TypeExpr
  | [] => []
  | t :: ts => references t ++ referencesOfAll ts

end

/-- `u` is `t` itself or stands, at any depth, among the arguments of `t`. -/
inductive Mentions : TypeExpr → TypeExpr → Prop
  | self (t : TypeExpr) : Mentions t t
  | argument {t a u : TypeExpr} {args : List TypeExpr} :
      t.arguments = some args → a ∈ args → Mentions a u → Mentions t u

theorem mem_referencesOfAll {u : TypeExpr} {ts : List TypeExpr} :
    u ∈ referencesOfAll ts ↔ ∃ t ∈ ts, u ∈ t.references := by
  induction ts with
  | nil => simp [referencesOfAll]
  | cons t ts ih => simp [referencesOfAll, ih]

mutual

theorem mentions_of_mem_references : (t : TypeExpr) → {u : TypeExpr} → u ∈ t.references →
    t.Mentions u
  | ⟨path, none, indirection, extent⟩, u, h => by
    obtain rfl : u = _ := by simpa [references] using h
    exact .self _
  | ⟨path, some args, indirection, extent⟩, u, h => by
    rw [references, List.mem_cons] at h
    rcases h with rfl | h
    · exact .self _
    · obtain ⟨a, ha, hu⟩ := exists_mentions_of_mem args h
      exact .argument rfl ha hu

theorem exists_mentions_of_mem : (ts : List TypeExpr) → {u : TypeExpr} →
    u ∈ referencesOfAll ts → ∃ t ∈ ts, t.Mentions u
  | [], u, h => by simp [referencesOfAll] at h
  | t :: ts, u, h => by
    rw [referencesOfAll, List.mem_append] at h
    rcases h with h | h
    · exact ⟨t, by simp, mentions_of_mem_references t h⟩
    · obtain ⟨a, ha, hu⟩ := exists_mentions_of_mem ts h
      exact ⟨a, by simp [ha], hu⟩

end

/-- The references of a type are the types that it mentions. -/
theorem mem_references_iff {t u : TypeExpr} : u ∈ t.references ↔ t.Mentions u := by
  refine ⟨mentions_of_mem_references t, fun h => ?_⟩
  induction h with
  | self t => rcases t with ⟨_, _ | _, _, _⟩ <;> simp [references]
  | @argument t a u args hArgs ha _ ih =>
    obtain ⟨path, _, indirection, extent⟩ := t
    obtain rfl : _ = some args := hArgs
    exact List.mem_cons_of_mem _ (mem_referencesOfAll.mpr ⟨a, ha, ih⟩)

end TypeExpr

end FixedLayout
