import FixedLayout.Proofs.Construction.Placed
import FixedLayout.Proofs.Export.Session

/-! What is written for the module tree. The code of a tree has the form of its outline, which
leaves out modules without declarations; a tidy tree has none of these, so every declaration is
written once, inside the modules of its path. -/

namespace FixedLayout

namespace Export

/-- What is written for a tree: declarations, and modules around others. -/
inductive Outline where
  | declaration (key : String)
  | module (name : String) (parts : List Outline)

namespace Outline

mutual

/-- The code of an outline, where `declare` writes the declaration under a key. -/
def code (declare : String → Code) : Outline → Code
  | .declaration key => declare key
  | .module name parts => [.block ("pub mod " ++ name) (separated (codes declare parts))]

def codes (declare : String → Code) : List Outline → List Code
  | [] => []
  | part :: parts => code declare part :: codes declare parts

end

/-- The code of a part of the root. -/
def rootCode (declare : String → Code) : Outline → Code
  | .declaration key => declare key
  | .module name parts => .line allowLine :: code declare (.module name parts)

mutual

/-- The keys of the declarations that are written, each with the modules around it. -/
def sites (modules : List String) : Outline → List (List String × String)
  | .declaration key => [(modules, key)]
  | .module name parts => sitesOfAll (modules ++ [name]) parts

def sitesOfAll (modules : List String) : List Outline → List (List String × String)
  | [] => []
  | part :: parts => sites modules part ++ sitesOfAll modules parts

end

theorem codes_append (declare : String → Code) (parts parts' : List Outline) :
    codes declare (parts ++ parts') = codes declare parts ++ codes declare parts' := by
  induction parts with
  | nil => rfl
  | cons part parts ih => simp [codes, ih]

theorem sitesOfAll_append (modules : List String) (parts parts' : List Outline) :
    sitesOfAll modules (parts ++ parts') =
      sitesOfAll modules parts ++ sitesOfAll modules parts' := by
  induction parts with
  | nil => rfl
  | cons part parts ih => simp [sitesOfAll, ih]

end Outline

mutual

/-- The outline of a member, or nothing for a module without declarations. -/
def outline? : ModuleTree → Option Outline
  | .module path members =>
    if Members.areBare members then none
    else some (.module (path.getLast?.getD "") (outlines members))
  | .leaf key => some (.declaration key)

def outlines : List (String × ModuleTree) → List Outline
  | [] => []
  | (_, member) :: rest => (outline? member).toList ++ outlines rest

end

/-- What is written for the module tree of an export. -/
def outline (e : Export) : List Outline := outlines e.root.members

mutual

theorem memberCode?_eq (declare : String → Code) (t : ModuleTree) :
    memberCode? declare t = (outline? t).map (Outline.code declare) := by
  cases t with
  | leaf key => rfl
  | module path members =>
    unfold memberCode? outline?
    split
    · rfl
    · rw [membersCode_eq declare members]
      rfl

theorem membersCode_eq (declare : String → Code) (members : List (String × ModuleTree)) :
    membersCode declare members = Outline.codes declare (outlines members) := by
  cases members with
  | nil => rfl
  | cons e rest =>
    obtain ⟨name, member⟩ := e
    rw [membersCode, outlines, Outline.codes_append, memberCode?_eq declare member,
      membersCode_eq declare rest]
    cases outline? member <;> rfl

end

theorem rootMemberCode?_eq (declare : String → Code) (t : ModuleTree) :
    rootMemberCode? declare t = (outline? t).map (Outline.rootCode declare) := by
  unfold rootMemberCode?
  rw [memberCode?_eq]
  cases t with
  | leaf key => rfl
  | module path members =>
    unfold outline?
    split <;> rfl

theorem code_eq (e : Export) (config : Config) : e.code config = headerCode config ++
    separated (e.outline.map (Outline.rootCode (declarationCode e.registry e.taint config)) ++
      [.line allowLine :: (wiring e.registry).code]) := by
  have hRoot : ∀ (declare : String → Code) (members : List (String × ModuleTree)),
      (members.filterMap fun m => rootMemberCode? declare m.2) =
        (outlines members).map (Outline.rootCode declare) := by
    intro declare members
    induction members with
    | nil => rfl
    | cons e rest ih =>
      obtain ⟨name, member⟩ := e
      rw [outlines, List.map_append, ← ih, List.filterMap_cons, rootMemberCode?_eq]
      cases outline? member <;> rfl
  unfold Export.code
  dsimp only
  rw [hRoot]
  rfl

/-! ### Tidy trees -/

theorem not_isBare {path : List String} {t : ModuleTree} (h : t.Tidy path) : t.isBare = false := by
  induction h with
  | leaf => rfl
  | @module path members hSome _ _ ih =>
    obtain ⟨⟨name, member⟩, rest, rfl⟩ := List.exists_cons_of_ne_nil hSome
    rw [ModuleTree.isBare, Members.areBare, ih name member List.mem_cons_self]
    rfl

/-- The modules around a place of the tree, with the key there. -/
def site (place : List String × String) : List String × String := (place.1.dropLast, place.2)

theorem sites_outlines {path : List String} {members : List (String × ModuleTree)}
    (h : ∀ name member, (name, member) ∈ members → ∃ part, outline? member = some part ∧
      part.sites path = (member.places (path ++ [name])).map site) :
    Outline.sitesOfAll path (outlines members) = (Members.places path members).map site := by
  induction members with
  | nil => rfl
  | cons e rest ih =>
    obtain ⟨name, member⟩ := e
    obtain ⟨part, hPart, hSites⟩ := h name member List.mem_cons_self
    rw [outlines, Members.places, Outline.sitesOfAll_append, List.map_append, hPart,
      ih fun name member hMem => h name member (List.mem_cons_of_mem _ hMem), ← hSites]
    simp [Outline.sitesOfAll]

/-- Nothing in a tidy tree is left out, and everything stands inside the modules of its path. -/
theorem sites_outline {full : List String} {t : ModuleTree} (h : t.Tidy full) {path : List String}
    {name : String} (hFull : full = path ++ [name]) :
    ∃ part, outline? t = some part ∧ part.sites path = (t.places full).map site := by
  induction h generalizing path name with
  | leaf =>
    rw [hFull]
    exact ⟨_, rfl, by simp [Outline.sites, ModuleTree.places, site]⟩
  | @module full members hSome hSorted hMembers ih =>
    have hBare : Members.areBare members = false := not_isBare (.module hSome hSorted hMembers)
    refine ⟨.module (full.getLast?.getD "") (outlines members), ?_, ?_⟩
    · rw [outline?, hBare]
      rfl
    · rw [Outline.sites, hFull, List.getLast?_concat, Option.getD_some, ← hFull]
      exact sites_outlines fun name member hMem => ih name member hMem rfl

end Export

/-! ### Wrapped unions -/

namespace Taint

variable (t : Taint) (r : Registry)

theorem place_wrapDeclaration (d : Declaration) : (t.wrapDeclaration r d).place = d.place := by
  have hType : (t.wrapDeclaration r d).type = d.type := by
    cases d with
    | record record => exact type_wrapRecord t r record
    | enumeration | primitive => rfl
  rw [Declaration.place, Declaration.place, hType, key_wrapDeclaration]

theorem emitted_wrapUnions :
    (t.wrapUnions r).emitted = r.emitted.map (t.wrapDeclaration r) := by
  have hEmitted : ∀ d, (t.wrapDeclaration r d).isEmitted = d.isEmitted := fun d => by
    cases d <;> rfl
  simp [Registry.emitted, Registry.declarations, wrapUnions, List.filter_map, Function.comp_def,
    hEmitted]

end Taint

namespace Export

open Construction

/-- The registry, the module tree and the output of an export agree. -/
structure Agrees (e : Export) : Prop where
  keys : e.registry.keys.Nodup
  /-- Every declaration has the key that it stands under. -/
  own : ∀ key d, (key, d) ∈ e.registry.entries → d.key = key
  /-- The tree has one place for each declaration that is written, and no other places. -/
  places : e.root.places.Perm (e.registry.emitted.map Declaration.place)
  once : (e.root.places.map (·.2)).Nodup
  found : ∀ d ∈ e.registry.emitted,
    (e.root.find? d.type.modulePath).bind (·.member? d.type.name) = some (.leaf d.key)
  /-- Each of these declarations is written once, inside the modules of its path. -/
  sites : (Outline.sitesOfAll [] e.outline).Perm
    (e.registry.emitted.map fun d => (d.type.modulePath, d.key))
  written : ∀ config, ∀ d ∈ e.registry.emitted,
    declarationCode e.registry e.taint config d.key ≠ []
  code : ∀ config, e.code config = headerCode config ++
    separated (e.outline.map (Outline.rootCode (declarationCode e.registry e.taint config)) ++
      [.line allowLine :: (wiring e.registry).code])
  count : e.emitted = (Outline.sitesOfAll [] e.outline).length

variable {setting : Setting} {s : Session} {e : Export}

theorem FromSession.own (h : FromSession setting s e) {key : String} {d : Declaration}
    (hMem : (key, d) ∈ e.registry.entries) : d.key = key := by
  rw [h.registry] at hMem
  obtain ⟨⟨key', d'⟩, hMem', hEq⟩ := List.mem_map.mp hMem
  cases hEq
  rw [Taint.key_wrapDeclaration]
  exact (h.built.origin _ _ hMem').1.symm

theorem FromSession.places (h : FromSession setting s e) :
    e.root.places.Perm (e.registry.emitted.map Declaration.place) := by
  rw [h.root, h.registry, Taint.emitted_wrapUnions, List.map_map]
  simpa only [Function.comp_def, Taint.place_wrapDeclaration] using h.built.placed.places

theorem FromSession.sites (h : FromSession setting s e) : (Outline.sitesOfAll [] e.outline).Perm
    (e.registry.emitted.map fun d => (d.type.modulePath, d.key)) := by
  have hPlaced := h.built.placed
  have hSites : Outline.sitesOfAll [] e.outline = e.root.places.map site := by
    rw [outline, h.root]
    refine (sites_outlines fun name member hMem => ?_).trans ?_
    · have hTidy := hPlaced.tidy.members name member hMem
      rw [hPlaced.path] at hTidy
      exact sites_outline hTidy rfl
    · rw [Module.places, hPlaced.path]
  rw [hSites]
  refine (h.places.map site).trans ?_
  rw [List.map_map]
  simp [Function.comp_def, site, Declaration.place]

/-- Whatever a construction has registered is where it belongs in the module tree and in the
output. -/
theorem agrees_of_build {library : Library} {config : Config} (h : build library config = .ok e) :
    e.Agrees := by
  obtain ⟨-, s, hSession⟩ := exists_session h
  have hKeys : e.registry.keys.Nodup := by
    rw [hSession.registry, Taint.keys_wrapUnions]
    exact hSession.built.keys
  have hGet : ∀ d ∈ e.registry.emitted, e.registry.get? d.key = some d := by
    intro d hd
    obtain ⟨⟨key, d⟩, hEntry, rfl⟩ := List.mem_map.mp (List.mem_of_mem_filter hd)
    rw [hSession.own hEntry]
    exact Registry.get?_of_mem hKeys hEntry
  constructor
  case keys => exact hKeys
  case own => exact fun key d hMem => hSession.own hMem
  case places => exact hSession.places
  case once =>
    have hEmitted := Registry.nodup_emitted hKeys fun key d hMem => hSession.own hMem
    refine (hSession.places.map _).nodup_iff.mpr ?_
    rwa [List.map_map]
  case found =>
    intro d hd
    have hPlaced := hSession.built.placed
    have hPlace : d.place ∈ s.root.places :=
      hSession.root ▸ hSession.places.mem_iff.mpr (List.mem_map_of_mem hd)
    rw [hSession.root]
    apply hPlaced.tidy.member_of_mem_places
    rwa [hPlaced.path]
  case sites => exact hSession.sites
  case written =>
    intro config d hd
    rw [declarationCode, hGet d hd]
    have hEmitted := (List.mem_filter.mp hd).2
    cases d with
    | record r => simp [Record.code]
    | enumeration en => simp [Enumeration.code]
    | primitive => cases hEmitted
  case code => exact code_eq e
  case count =>
    rw [hSession.sites.length_eq, List.length_map, Export.emitted, Registry.emitted,
      List.countP_eq_length_filter]

/-- A struct beside a namespace with an enumeration in it. -/
def besideModule : Library := .ofTypes [
  .ofFields "App.World" 8 [{ name := "mode", shape := .named "App.Time.Mode" [], offset := 0 }],
  .ofConstants "App.Time.Mode" .int32 []]

theorem agrees_of_build_besideModule : ∃ e,
    build besideModule (.forNamespace "App" ["app"]) = .ok e ∧
    Outline.sitesOfAll [] e.outline =
      [(["app"], "crate::app::World"), (["app", "time"], "crate::app::time::Mode")] ∧
    e.Agrees := by
  have hBuild : ((build besideModule (.forNamespace "App" ["app"])).toOption.map fun e =>
      Outline.sitesOfAll [] e.outline) =
        some [(["app"], "crate::app::World"), (["app", "time"], "crate::app::time::Mode")] := by
    decide +kernel
  obtain ⟨e, hOk, hSites⟩ := Option.map_eq_some_iff.mp hBuild
  have hOk := Script.ok_of_toOption hOk
  exact ⟨e, hOk, hSites, agrees_of_build hOk⟩

end Export

end FixedLayout
