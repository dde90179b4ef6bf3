import FixedLayout.Code

/-! Items in generated code: what blocks hold, which modules lie in each other, and which constants
and functions a type has. -/

namespace FixedLayout

namespace Code

/-- The bodies of the blocks with a header. -/
def bodies (header : String) (code : Code) : List Code :=
  code.filterMap fun
    | .block h body => if h = header then some body else none
    | _ => none

/-- What stands in the modules with a path. -/
def modulesAt : List String → Code → List Code
  | [], code => [code]
  | name :: path, code => (bodies ("pub mod " ++ name) code).flatMap (modulesAt path)

/-- Among the code there is a constant or a function with the name. -/
inductive Declares (name : String) (code : Code) : Prop
  | constant {text : String} (rest : String) (h : .line text ∈ code)
      (hText : text = "pub const " ++ name ++ ": " ++ rest)
  | function {header : String} {body : Code} (rest : String) (h : .block header body ∈ code)
      (hHeader : header = "pub fn " ++ name ++ "(" ++ rest)
  | unsafeFunction {header : String} {body : Code} (rest : String) (h : .block header body ∈ code)
      (hHeader : header = "pub unsafe fn " ++ name ++ "(" ++ rest)

/-- The methods of a type declare an item. -/
def Offers (type name : String) (code : Code) : Prop :=
  ∃ methods ∈ bodies ("impl " ++ type) code, Declares name methods

theorem bodies_append (header : String) (code code' : Code) :
    bodies header (code ++ code') = bodies header code ++ bodies header code' :=
  List.filterMap_append

theorem mem_bodies {header : String} {body code : Code} :
    body ∈ bodies header code ↔ .block header body ∈ code := by
  simp only [bodies, List.mem_filterMap]
  constructor
  · rintro ⟨step, hStep, hBody⟩
    cases step with
    | block h b =>
      dsimp only at hBody
      split at hBody
      · rename_i hSame
        cases hBody
        exact hSame ▸ hStep
      · cases hBody
    | line | blank | indent | dedent => cases hBody
  · intro hBlock
    exact ⟨_, hBlock, if_pos rfl⟩

theorem Declares.mono {name : String} {code code' : Code} (h : Declares name code)
    (hSub : code ⊆ code') : Declares name code' := by
  cases h with
  | constant rest h hText => exact .constant rest (hSub h) hText
  | function rest h hHeader => exact .function rest (hSub h) hHeader
  | unsafeFunction rest h hHeader => exact .unsafeFunction rest (hSub h) hHeader

theorem exists_modulesAt_of_infix {path : List String} {code code' body : Code}
    (h : code <:+: code') (hBody : body ∈ modulesAt path code) :
    ∃ body' ∈ modulesAt path code', body <:+: body' := by
  cases path with
  | nil =>
    obtain rfl := List.mem_singleton.mp hBody
    exact ⟨code', List.mem_singleton_self _, h⟩
  | cons name path =>
    obtain ⟨inner, hInner, hBody⟩ := List.mem_flatMap.mp hBody
    refine ⟨body, List.mem_flatMap.mpr ⟨inner, ?_, hBody⟩, List.infix_rfl⟩
    exact mem_bodies.mpr (h.subset (mem_bodies.mp hInner))

end Code

end FixedLayout
