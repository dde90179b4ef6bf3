import FixedLayout.Error

/-! The tree of modules. A module holds other modules and the keys of the declarations placed in
it, under names that it keeps in order, so that the order of discovery does not show. -/

namespace FixedLayout

/-- A module or a declaration placed in one. -/
inductive ModuleTree where
  /-- A module with its path from the root and its members by name. -/
  | module (path : List String) (members : List (String × ModuleTree))
  /-- The key of a declaration. -/
  | leaf (key : String)
deriving Repr, Inhabited

abbrev Members := List (String × ModuleTree)

namespace Members

/-- Puts a member under a name, in the place of the one that has it. -/
def insert (name : String) (member : ModuleTree) : Members → Members
  | [] => [(name, member)]
  | (n, m) :: rest =>
    if name = n then (name, member) :: rest
    else if name < n then (name, member) :: (n, m) :: rest
    else (n, m) :: insert name member rest

end Members

structure Module where
  path : List String
  members : Members
deriving Repr, Inhabited

namespace Module

/-- The root before anything is placed. -/
def root : Module := ⟨[], []⟩

/-- The module as a member of another one. -/
def toTree (m : Module) : ModuleTree := .module m.path m.members

/-- The last segment of the path; nothing for the root. -/
def name (m : Module) : String := m.path.getLast?.getD ""

/-- The full name, as messages have it. -/
def fullName (m : Module) : String := "::".intercalate ("crate" :: m.path)

def member? (m : Module) (name : String) : Option ModuleTree := m.members.lookup name

def size (m : Module) : Nat := m.members.length

def isEmpty (m : Module) : Bool := m.members.isEmpty

def insert (m : Module) (name : String) (member : ModuleTree) : Module :=
  { m with members := Members.insert name member m.members }

def conflict (m : Module) (name : String) : ExportError :=
  .duplicateRegistration m.fullName name

/-- Runs `f` on the module at a path below `m` and answers the changed `m`. Modules that are missing
on the way are made, and stay even if `f` fails. -/
def update (f : Module → Except ExportError α × Module) :
    List String → Module → Except ExportError α × Module
  | [], m => f m
  | name :: path, m =>
    match m.member? name with
    | none =>
      let (result, child) := update f path ⟨m.path ++ [name], []⟩
      (result, m.insert name child.toTree)
    | some (.module childPath members) =>
      let (result, child) := update f path ⟨childPath, members⟩
      (result, m.insert name child.toTree)
    | some (.leaf _) => (.error (m.conflict name), m)

/-- The module at a path, made where it is missing. -/
def make (path : List String) (m : Module) : Except ExportError Module × Module :=
  update (fun found => (.ok found, found)) path m

/-- Places a declaration in the module itself, under a free name. -/
def addHere (name key : String) (m : Module) : Except ExportError Unit × Module :=
  if (m.member? name).isSome then (.error (m.conflict name), m)
  else (.ok (), m.insert name (.leaf key))

/-- Places a declaration in the module at a path. -/
def add (path : List String) (name key : String) (m : Module) :
    Except ExportError Unit × Module :=
  update (addHere name key) path m

/-- The module at a path, if it is there. -/
def find? : List String → Module → Option Module
  | [], m => some m
  | name :: path, m =>
    match m.member? name with
    | some (.module childPath members) => find? path ⟨childPath, members⟩
    | _ => none

end Module

mutual

/-- There is no declaration at any depth. -/
def ModuleTree.isBare : ModuleTree → Bool
  | .module _ members => Members.areBare members
  | .leaf _ => false

/-- There is no declaration at any depth of any member. -/
def Members.areBare : List (String × ModuleTree) → Bool
  | [] => true
  | (_, member) :: rest => ModuleTree.isBare member && Members.areBare rest

end

/-- There is no declaration in the module or below it. -/
def Module.isBare (m : Module) : Bool := m.toTree.isBare

end FixedLayout
