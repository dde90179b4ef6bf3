import FixedLayout.Metadata.Document
import FixedLayout.Proofs.Json.RoundTrip

/-! Shapes as text. The datum of a shape is read back as the shape, and so is its text in a
document as far as a document may be nested. Beyond that nothing is read. -/

namespace FixedLayout

theorem Scalar.ofKeyword?_keyword (s : Scalar) : ofKeyword? s.keyword = some s := by
  cases s <;> rfl

namespace Shape

/-! ### The data of shapes -/

/-- The shapes that a shape is directly made of. -/
def parts : Shape → List Shape
  | pointer pointee => [pointee]
  | named _ args => args
  | _ => []

theorem toData_eq_map (shapes : List Shape) : toData shapes = shapes.map toDatum := by
  induction shapes with
  | nil => rfl
  | cons shape shapes ih => rw [toData, ih, List.map_cons]

mutual

theorem plain_toDatum : (shape : Shape) → shape.toDatum.Plain
  | .void => Datum.plain_table_iff.mpr (by simp)
  | .scalar s => Datum.plain_table_iff.mpr (by simp [Scalar.toDatum])
  | .pointer pointee => Datum.plain_table_iff.mpr (by simp [plain_toDatum pointee])
  | .named name args => Datum.plain_table_iff.mpr (by simp [Datum.Plain.list (plain_toData args)])
  | .param name => Datum.plain_table_iff.mpr (by simp)

theorem plain_toData : (shapes : List Shape) → ∀ d ∈ toData shapes, d.Plain
  | [] => nofun
  | shape :: shapes => List.forall_mem_cons.mpr ⟨plain_toDatum shape, plain_toData shapes⟩

end

theorem depth_toDatum_pos (shape : Shape) : 0 < shape.toDatum.depth := by
  cases shape <;> simp [toDatum, Datum.depth]

theorem depth_toDatum_of_mem_parts {shape part : Shape} (h : part ∈ shape.parts) :
    part.toDatum.depth < shape.toDatum.depth := by
  cases shape with
  | void | scalar | param => simp [parts] at h
  | pointer pointee =>
    obtain rfl := List.mem_singleton.mp h
    simp only [toDatum, Datum.depth, Datum.depthOfFields]
    omega
  | named name args =>
    have hEach := (Datum.depthOfItems_le_iff _ (toData args)).mp (Nat.le_refl _)
    have hPart := hEach part.toDatum (by rw [toData_eq_map]; exact List.mem_map_of_mem h)
    simp only [toDatum, Datum.depth, Datum.depthOfFields]
    omega

/-! ### Reading them back -/

variable {inner : Bool}

theorem mapM_toData {part : Datum → Option Shape} {shapes : List Shape}
    (h : ∀ shape ∈ shapes, part shape.toDatum = some shape) :
    (toData shapes).mapM part = some shapes := by
  rw [mapM_eq_some_iff, toData_eq_map, List.map_map]
  exact List.map_congr_left h

/-- A record is read as the shape that wrote it where its parts are. -/
theorem ofRecord_toDatum {part : Datum → Option Shape} {shape : Shape}
    (h : ∀ p ∈ shape.parts, part p.toDatum = some p) :
    ofRecord inner part shape.toDatum = some shape := by
  cases shape with
  | void =>
    rw [toDatum, ofRecord, Datum.tagged_kind (by simp) rfl]
    rfl
  | scalar s =>
    rw [toDatum, ofRecord, Datum.tagged_kind (by simp) rfl]
    change (Scalar.ofKeyword? s.keyword).bind _ = _
    rw [s.ofKeyword?_keyword]
    rfl
  | pointer pointee =>
    have hSound := (plain_toDatum pointee).isSound
    rw [toDatum, ofRecord,
      Datum.tagged_kind (by simp) ((Datum.haveSound_iff _).mpr (by simp [hSound]))]
    change (part pointee.toDatum).bind _ = _
    rw [h pointee List.mem_cons_self]
    rfl
  | named name args =>
    have hName := (Datum.plain_text name).isSound
    have hArgs := (Datum.Plain.list (plain_toData args)).isSound
    have hEach : ∀ arg ∈ args, part arg.toDatum = some arg := h
    rw [toDatum, ofRecord,
      Datum.tagged_kind (by simp) ((Datum.haveSound_iff _).mpr (by simp [hName, hArgs]))]
    change ((toData args).mapM part).bind _ = _
    rw [mapM_toData hEach]
    rfl
  | param name =>
    rw [toDatum, ofRecord, Datum.tagged_kind (by simp) rfl]
    rfl

theorem ofDatumWithin_toDatum {n : Nat} {shape : Shape} (h : shape.toDatum.depth ≤ n) :
    ofDatumWithin inner n shape.toDatum = some shape := by
  induction n generalizing inner shape with
  | zero => exact absurd h (Nat.not_le.mpr shape.depth_toDatum_pos)
  | succ n ih =>
    refine ofRecord_toDatum fun part hPart => ih ?_
    have := depth_toDatum_of_mem_parts hPart
    omega

theorem ofDatum_toDatum (shape : Shape) : ofDatum shape.toDatum = some shape :=
  ofDatumWithin_toDatum (Nat.le_refl _)

/-! ### Documents -/

theorem isSound_of_ofRecord {part : Datum → Option Shape} {d : Datum} {shape : Shape}
    (h : ofRecord inner part d = some shape) : d.isSound = true := by
  obtain ⟨⟨tag, content⟩, hTagged, hRest⟩ := Option.bind_eq_some_iff.mp h
  obtain ⟨kind, hKind, -⟩ := Option.bind_eq_some_iff.mp hRest
  refine Datum.isSound_of_tagged hTagged ?_
  cases tag <;> first | rfl | cases hKind

theorem isSound_of_ofDatum {d : Datum} {shape : Shape} (h : ofDatum d = some shape) :
    d.isSound = true := by
  rw [ofDatum] at h
  cases hDepth : d.depth with
  | zero => rw [hDepth] at h; cases h
  | succ n => rw [hDepth] at h; exact isSound_of_ofRecord h

/-- The text of a shape is read back as the shape, and exactly as far as a document may be
nested. -/
theorem ofDatum_document_print (shape : Shape) :
    (Json.document (Json.print shape.toDatum)).bind ofDatum =
      if shape.toDatum.depth ≤ Json.maxDepth then some shape else none := by
  have hPlain := shape.plain_toDatum
  rw [Json.document_print hPlain, Option.bind_some]
  split
  · rename_i hDepth
    rw [hPlain.limit_eq_self hDepth]
    exact shape.ofDatum_toDatum
  · rename_i hDepth
    rw [Option.eq_none_iff_forall_ne_some]
    intro read hRead
    exact hDepth (hPlain.isSound_limit_iff.mp (isSound_of_ofDatum hRead))

end Shape

end FixedLayout
