import FixedLayout.Proofs.Construction.Mentions
import FixedLayout.Proofs.Layout.Types

/-! What declarations use. A build that ends without an error calls for everything that the types of
its members and functions mention. -/

namespace FixedLayout

def Descriptor.uses (d : Descriptor) : List TypeExpr := d.params.map (·.type) ++ [d.returns]

/-- The types that a record uses: those of its members, apart from markers, and of the parameters
and results of its functions. -/
def Record.uses (r : Record) : List TypeExpr :=
  (r.members.filter (·.role ≠ .phantom)).map (·.type) ++ r.functions.flatMap (·.uses)

theorem Record.forall_uses {r : Record} {P : TypeExpr → Prop}
    (hMembers : ∀ m ∈ r.members, m.role ≠ .phantom → P m.type)
    (hFunctions : ∀ d ∈ r.functions, ∀ t ∈ d.uses, P t) : ∀ t ∈ r.uses, P t := by
  intro t ht
  rcases List.mem_append.mp ht with ht | ht
  · obtain ⟨m, hm, rfl⟩ := List.mem_map.mp ht
    obtain ⟨hMem, hRole⟩ := List.mem_filter.mp hm
    exact hMembers m hMem (by simpa using hRole)
  · obtain ⟨d, hd, ht⟩ := List.mem_flatMap.mp ht
    exact hFunctions d hd t ht

namespace Construction

open Script

theorem uses_of_make {owner : TypeExpr} {name : String} {overload : Nat} {binding : Binding}
    {params : List Param} {returns : TypeExpr} {isStatic : Bool} {d : Descriptor}
    (h : Descriptor.make owner name overload binding params returns isStatic = .ok d) :
    d.uses = params.map (·.type) ++ [returns] := by
  rw [eq_of_make h]
  simp [Descriptor.uses]

namespace Host

variable {setting : Setting} (hBasis : setting.basis.result = .ok ()) (hComplete : setting.Complete)
include hBasis hComplete

theorem covers_slot (desc : TypeDesc) (f : FieldDesc) :
    Answers (fun as slot => setting.Covers as slot.type) ((recorder setting).slot desc f) := by
  refine (covers_resolveUnder hBasis hComplete _ _ 0 f.shape).bind fun as element hElement => ?_
  refine answers_ofExcept fun slot hSlot => ?_
  obtain ⟨hPath, hArgs⟩ : slot.type.path = element.type.path ∧
      slot.type.arguments = element.type.arguments := by
    rcases (Setting.slotOf_cases hSlot).2 with ⟨-, hType, -⟩ | ⟨_, -, hType, -⟩
    · rw [hType]
      exact ⟨rfl, rfl⟩
    · rw [hType]
      exact ⟨rfl, rfl⟩
  rw [List.append_nil]
  exact hElement.congr hPath hArgs

theorem covers_descriptor (desc : TypeDesc) (owner : TypeExpr) (f : FunctionDesc)
    (binding : BindingDesc) (overload : Nat) :
    Answers (fun as d => ∀ t ∈ d.uses, setting.Covers as t)
      ((recorder setting).descriptor desc owner f binding overload) := by
  unfold descriptor
  refine (answers_ofExcept (P := fun as _ => as = []) fun _ _ => rfl).bind
    fun as binding hNil => ?_
  cases hNil
  have hParams : Answers (fun as params => ∀ p ∈ params, setting.Covers as p.type)
      (f.params.mapM fun p => do
        let resolved ← (recorder setting).resolve (desc.name ++ "." ++ f.name) p.shape
        return { name := p.name, type := resolved.type : Param }) := by
    refine answers_mapM (fun h hSub => h.mono hSub) _ fun p _ => ?_
    refine (covers_resolveUnder hBasis hComplete _ _ 0 p.shape).bind fun as resolved hType => ?_
    refine answers_pure ?_
    rwa [List.append_nil]
  refine hParams.bind fun as params hParams => ?_
  refine (covers_resolveUnder hBasis hComplete _ _ 0 f.returns).bind fun bs returns hReturns => ?_
  refine answers_ofExcept fun d hMake t ht => ?_
  rw [uses_of_make hMake] at ht
  rcases List.mem_append.mp ht with ht | ht
  · obtain ⟨p, hp, rfl⟩ := List.mem_map.mp ht
    exact (hParams p hp).mono (by simp)
  · rw [List.mem_singleton.mp ht]
    exact hReturns.mono (by simp)

theorem covers_descriptors (desc : TypeDesc) (owner : TypeExpr) (earlier : List String)
    (fs : List FunctionDesc) :
    Answers (fun as ds => ∀ d ∈ ds, ∀ t ∈ d.uses, setting.Covers as t)
      ((recorder setting).descriptors desc owner earlier fs) := by
  induction fs generalizing earlier with
  | nil => exact answers_pure (by simp)
  | cons f fs ih =>
    unfold descriptors
    split
    · refine (covers_descriptor hBasis hComplete _ _ _ _ _).bind fun as d hd => ?_
      refine (ih _).bind fun bs ds hds => answers_pure ?_
      intro d' hd' t ht
      rcases List.mem_cons.mp hd' with rfl | hd'
      · exact (hd t ht).mono (by simp)
      · exact (hds d' hd' t ht).mono (by simp)
    · exact ih earlier

omit hComplete in
/-- The unions that a record needs are declared before it. -/
theorem covers_layOut {as : List Action} {slots : List Layout.Slot}
    (hSlots : ∀ s ∈ slots, setting.Covers as s.type) (desc : TypeDesc) (type : TypeExpr) :
    Answers (fun bs record => record.functions = [] ∧
        ∀ m ∈ record.members, setting.Covers (as ++ bs) m.type)
      ((recorder setting).layOut desc type slots) := by
  have hBytes : ∀ {as} size, setting.Covers as (Member.bytesType size) := fun size =>
    Setting.covers_bytesType hBasis size
  unfold layOut
  split
  · exact answers_pure ⟨rfl, by simp [Record.empty]⟩
  · split
    · refine answers_pure ⟨rfl, ?_⟩
      rw [List.append_nil]
      exact Layout.types_unionOf hBytes hSlots type desc.size
    · refine answers_perform ?_
      have hPlaced : Answers (fun bs _ => ∀ u ∈
            (Layout.reconstruct setting.config type desc.size slots).unions,
            .place (.record u) ∈ bs)
          ((Layout.reconstruct setting.config type desc.size slots).unions.forM fun u =>
            (recorder setting).perform (.place (.record u))) := by
        intro v hOk u hu
        exact (actions_subset_forM hOk hu).2 (List.mem_singleton_self _)
      refine hPlaced.bind fun bs _ hPlaced => answers_pure ⟨rfl, fun m hm => ?_⟩
      rcases (Layout.uses_reconstruct hBytes hSlots _ _ _).1 m hm with hType | ⟨u, hu, hType⟩
      · exact hType.mono (by simp)
      · obtain ⟨k, slots', rfl⟩ := Layout.union_of_mem_layGroups hu
        rw [hType]
        refine Setting.covers_of_plain rfl ⟨.place (.record _), .inr ?_,
          .place (Setting.key_of_plain rfl)⟩
        simp [hPlaced _ hu]

theorem covers_declares {desc : TypeDesc} {type : TypeExpr} {r : Record}
    (hOk : (setting.buildScript desc type).result = .ok ())
    (h : setting.Declares desc type (.record r)) :
    ∀ t ∈ r.uses, setting.Covers (setting.buildScript desc type).actions t := by
  have hRecord : ¬desc.isEnum = true := by
    intro hEnum
    cases h with
    | own hOwn =>
      rw [Setting.declaration?, if_pos hEnum] at hOwn
      cases hOwn
    | union hStruct => simp [TypeDesc.isEnum, hStruct] at hEnum
  have hScript : setting.buildScript desc type = (recorder setting).buildRecord desc type :=
    if_neg hRecord
  rw [hScript] at hOk ⊢
  unfold buildRecord at hOk ⊢
  obtain ⟨slots, hSlots, hRest, hFirst⟩ := bind_ok hOk
  obtain ⟨record, hLaidOut, hRest, hSecond⟩ := bind_ok hRest
  obtain ⟨functions, hFunctions, hRest, hThird⟩ := bind_ok hRest
  rw [hFirst, hSecond, hThird]
  have hSlotTypes := answers_mapM (fun h hSub => h.mono hSub) _
    (fun f _ => covers_slot hBasis hComplete desc f) slots hSlots
  have hSlots : setting.slots? desc = some slots := congrArg Except.toOption hSlots
  cases h with
  | own hOwn =>
    rcases Setting.declaration?_cases hOwn with
      ⟨-, hEq⟩ | ⟨slots', record', functions', table, hSlots', hRecord', hFunctions', hEq⟩
    · cases hEq
    · cases hEq
      cases hSlots.symm.trans hSlots'
      cases hLaidOut.symm.trans hRecord'
      cases hFunctions.symm.trans hFunctions'
      obtain ⟨-, hMembers⟩ := covers_layOut hBasis hSlotTypes desc type record hLaidOut
      refine Record.forall_uses (fun m hm _ => ?_) fun d hd t ht => ?_
      · exact (hMembers m hm).mono (by simp)
      · refine (covers_descriptors hBasis hComplete _ _ _ _ _ hFunctions d hd t ht).mono ?_
        intro a ha
        simp [ha]
  | @union slots' _ hStruct hSlots' hMem =>
    cases hSlots.symm.trans hSlots'
    have hMembers := (Layout.uses_reconstruct (fun size => Setting.covers_bytesType hBasis size)
      hSlotTypes setting.config type desc.size).2 r hMem
    obtain ⟨k, slots', rfl⟩ := Layout.union_of_mem_layGroups hMem
    refine Record.forall_uses (fun m hm _ => (hMembers m hm).mono (by simp)) ?_
    intro d hd
    cases hd

end Host

end Construction

end FixedLayout
