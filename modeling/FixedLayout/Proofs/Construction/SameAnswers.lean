import FixedLayout.Proofs.Construction.Whole

/-! What a construction reads of its library: what the look-ups answer. Two settings with the same
configuration and the same answers have the same scripts and the same runs. -/

namespace FixedLayout.Construction

open Script

/-- The settings have one configuration, and their libraries answer alike. -/
structure Setting.SameAnswers (setting' setting : Setting) : Prop where
  config : setting'.config = setting.config
  definition : setting'.library.definition? = setting.library.definition?
  instantiation : setting'.library.instantiation? = setting.library.instantiation?

variable {setting setting' : Setting}

namespace Host

section Named

variable (h : setting'.SameAnswers setting)
include h

theorem config_congr : (recorder setting').config = (recorder setting).config := h.config

theorem definition?_congr :
    (recorder setting').library.definition? = (recorder setting).library.definition? :=
  h.definition

theorem instantiation?_congr :
    (recorder setting').library.instantiation? = (recorder setting).library.instantiation? :=
  h.instantiation

theorem sizeOf_congr : (recorder setting').sizeOf = (recorder setting).sizeOf := by
  funext context name args
  simp only [sizeOf, config_congr h, definition?_congr h, instantiation?_congr h]

theorem refer_congr : (recorder setting').refer = (recorder setting).refer := by
  funext context name args argTypes
  simp only [refer, referExported, referForeign, config_congr h, definition?_congr h,
    instantiation?_congr h]
  rfl

theorem resolveNamed_congr :
    (recorder setting').resolveNamed = (recorder setting).resolveNamed := by
  funext context name depth args argTypes
  simp only [resolveNamed, config_congr h, refer_congr h, sizeOf_congr h]

end Named

mutual

theorem resolveUnder_congr (h : setting'.SameAnswers setting) (context : String) (whole : Shape)
    (depth : Nat) (shape : Shape) :
    (recorder setting').resolveUnder context whole depth shape =
      (recorder setting).resolveUnder context whole depth shape := by
  cases shape with
  | void | scalar | param => rfl
  | pointer pointee => exact resolveUnder_congr h context whole (depth + 1) pointee
  | named name args =>
    simp only [resolveUnder, resolveNamed_congr h, resolveAll_congr h context args]

theorem resolveAll_congr (h : setting'.SameAnswers setting) (context : String)
    (shapes : List Shape) :
    (recorder setting').resolveAll context shapes =
      (recorder setting).resolveAll context shapes := by
  cases shapes with
  | nil => rfl
  | cons shape shapes =>
    simp only [resolveAll, resolveUnder_congr h context shape 0 shape,
      resolveAll_congr h context shapes]

end

section Build

variable (h : setting'.SameAnswers setting)
include h

theorem resolve_congr : (recorder setting').resolve = (recorder setting).resolve := by
  funext context shape
  exact resolveUnder_congr h context shape 0 shape

theorem slot_congr : (recorder setting').slot = (recorder setting).slot := by
  funext desc f
  simp only [slot, resolve_congr h]

theorem descriptors_congr (desc : TypeDesc) (owner : TypeExpr) (earlier : List String)
    (fs : List FunctionDesc) :
    (recorder setting').descriptors desc owner earlier fs =
      (recorder setting).descriptors desc owner earlier fs := by
  induction fs generalizing earlier with
  | nil => rfl
  | cons f fs ih => simp only [descriptors, descriptor, resolve_congr h, ih]

theorem layOut_congr : (recorder setting').layOut = (recorder setting).layOut := by
  funext desc type slots
  simp only [layOut, config_congr h]
  rfl

theorem ensureDesc_congr : (recorder setting').ensureDesc = (recorder setting).ensureDesc := by
  funext desc
  have hArgs : (recorder setting').resolveAll = (recorder setting).resolveAll := by
    funext context shapes
    exact resolveAll_congr h context shapes
  simp only [ensureDesc, config_congr h, refer_congr h, hArgs]
  rfl

end Build

end Host

theorem Setting.SameAnswers.buildScript (h : setting'.SameAnswers setting) :
    setting'.buildScript = setting.buildScript := by
  funext desc type
  simp only [Setting.buildScript, Host.buildType, Host.buildRecord, Host.config_congr h,
    Host.slot_congr h, Host.layOut_congr h, Host.descriptors_congr h]
  rfl

theorem Setting.SameAnswers.symm (h : setting'.SameAnswers setting) :
    setting.SameAnswers setting' :=
  ⟨h.config.symm, h.definition.symm, h.instantiation.symm⟩

theorem Setting.SameAnswers.reaches_of {as : List Action} {a : Action}
    (h : setting'.SameAnswers setting) (hReaches : setting'.Reaches as a) :
    setting.Reaches as a := by
  induction hReaches with
  | here hMem => exact .here hMem
  | inner _ hCandidate hMem ih =>
    rw [h.buildScript] at hMem
    exact .inner ih (h.config ▸ hCandidate) hMem

theorem Setting.SameAnswers.exec {as : List Action} {r : Except ExportError Unit} {s s' : Session}
    (h : setting'.SameAnswers setting) (hRun : Exec setting' s as r s') :
    Exec setting s as r s' := by
  induction hRun with
  | done => exact .done
  | step hStep _ ih => exact .step (h.config ▸ hStep) ih
  | fail hStep => exact .fail (h.config ▸ hStep)
  | skip hSkip _ ih => exact .skip (h.config ▸ hSkip) ih
  | build hCandidate hFree hOk _ _ ihInner ihRest =>
    rw [h.buildScript] at hOk ihInner
    exact .build (h.config ▸ hCandidate) hFree hOk ihInner ihRest
  | abort hCandidate hFree _ hError ihInner =>
    rw [h.buildScript] at hError ihInner
    exact .abort (h.config ▸ hCandidate) hFree ihInner hError

/-! ### Libraries in another order -/

section Perm

variable {library library' : Library} {config : Config}
  (hDistinct : (library.types.map fun t => (t.name, t.args)).Nodup)
  (hPerm : library'.types.Perm library.types)
include hDistinct hPerm

theorem sameAnswers_perm : Setting.SameAnswers ⟨library', config⟩ ⟨library, config⟩ :=
  ⟨rfl, Library.definition?_perm hDistinct hPerm, Library.instantiation?_perm hDistinct hPerm⟩

theorem script_ok_perm : (∃ n, (Setting.mk library' config).script.result = .ok n) ↔
    ∃ n, (Setting.mk library config).script.result = .ok n := by
  have hSame : Setting.SameAnswers ⟨library', config⟩ ⟨library, config⟩ :=
    sameAnswers_perm hDistinct hPerm
  simp only [script_ok_iff, Host.ensureDesc_congr hSame, hPerm.mem_iff]
  rfl

theorem script_actions_perm {n n' : Nat} (hOk : (Setting.mk library config).script.result = .ok n)
    (hOk' : (Setting.mk library' config).script.result = .ok n') :
    (Setting.mk library' config).script.actions.Perm
      (Setting.mk library config).script.actions := by
  have hSame : Setting.SameAnswers ⟨library', config⟩ ⟨library, config⟩ :=
    sameAnswers_perm hDistinct hPerm
  rw [script_actions hOk, script_actions hOk', Host.ensureDesc_congr hSame]
  exact (hPerm.flatMap_right _).append_left _

end Perm

end FixedLayout.Construction
