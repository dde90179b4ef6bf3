import FixedLayout.Datum

/-! The tables of a TOML document while it is read. A table may come into being by its header, on
the way to another header, or by a dotted key, and that decides what may be added to it later. -/

namespace FixedLayout.Toml

/-- How a table came into being. -/
inductive Origin where
  /-- By a header of its own, or as the document itself. -/
  | header
  /-- On the way to the header of a table inside it. -/
  | passage
  /-- By a dotted key. -/
  | dotted
deriving Repr, DecidableEq

/-- What stands under a key. -/
inductive Tree where
  | leaf (d : Datum)
  | table (origin : Origin) (entries : List (String × Tree))
  /-- The tables of a header in double brackets, last one first. -/
  | tables (rows : List (List (String × Tree)))
deriving Repr, Inhabited

/-- A table with its entries, in the order of their keys' first appearance. -/
structure Table where
  origin : Origin := .header
  entries : List (String × Tree) := []
deriving Repr, Inhabited

namespace Table

def find? (t : Table) (key : String) : Option Tree := t.entries.lookup key

/-- Puts a value under a key, in the place of the one that has it. -/
def put (t : Table) (key : String) (value : Tree) : Table :=
  if (t.find? key).isSome then
    { t with entries := t.entries.map fun e => if e.1 = key then (key, value) else e }
  else { t with entries := t.entries ++ [(key, value)] }

def toTree (t : Table) : Tree := .table t.origin t.entries

/-- Changes the table at a path by `f`. Tables that are missing on the way are made with the given
origin. A dotted key does not lead into a table with a header; a path leads into the last of
several tables, and into no other value. -/
def update (origin : Origin) (f : Table → Option Table) : List String → Table → Option Table
  | [], t => f t
  | key :: path, t =>
    match t.find? key with
    | none => do
      let child ← update origin f path ⟨origin, []⟩
      return t.put key child.toTree
    | some (.table made entries) =>
      if origin = .dotted ∧ made = .header then none
      else do
        let child ← update origin f path ⟨made, entries⟩
        return t.put key child.toTree
    | some (.tables (entries :: rows)) => do
      let child ← update origin f path ⟨.header, entries⟩
      return t.put key (.tables (child.entries :: rows))
    | some (.tables []) | some (.leaf _) => none

/-- Adds a value under a dotted key, in front of whose last part stands `path`. The table that it
goes to must itself be made by dotted keys, unless the key has one part. -/
def add (path : List String) (key : String) (value : Datum) (t : Table) : Option Table :=
  update .dotted
    (fun t =>
      if (t.origin == .dotted) == path.isEmpty then none
      else if (t.find? key).isSome then none
      else some (t.put key (.leaf value)))
    path t

end Table

mutual

def Tree.toDatum : Tree → Datum
  | .leaf d => d
  | .table _ entries => .table (Tree.toFields entries)
  | .tables rows => .list (Tree.toRows rows).reverse

def Tree.toFields : List (String × Tree) → List (String × Datum)
  | [] => []
  | (key, tree) :: rest => (key, tree.toDatum) :: Tree.toFields rest

def Tree.toRows : List (List (String × Tree)) → List Datum
  | [] => []
  | entries :: rest => .table (Tree.toFields entries) :: Tree.toRows rest

end

end FixedLayout.Toml
