import FixedLayout.Proofs.Taint.Wrapping
import Mathlib.Order.Bounds.Basic

/-! The taint as a closure. A struct or union is tainted when a member mentions a tainted
declaration, and propagation finds the least set of keys that keeps to this rule and contains the
initial taint. The rule asks for no order, so neither does the result. -/

namespace FixedLayout

namespace Registry

/-- Whenever a member of a struct or union mentions a type that stands for a key of `S`, the struct
or union itself has its key in `S`. -/
def ClosedUnderMention (r : Registry) (S : Set String) : Prop :=
  ∀ record ∈ r.records, ∀ m ∈ record.members, ∀ u, m.type.Mentions u →
    ∀ key, r.resolve? u = some key → key ∈ S → record.key ∈ S

theorem closedUnderMention_congr {r r' : Registry}
    (hContains : ∀ key, r'.contains key = r.contains key)
    (hRecords : ∀ record, record ∈ r'.records ↔ record ∈ r.records) (S : Set String) :
    r'.ClosedUnderMention S ↔ r.ClosedUnderMention S := by
  simp only [ClosedUnderMention, hRecords, resolve?_of_contains hContains]

theorem closedUnderMention_perm {r r' : Registry} (h : r'.entries.Perm r.entries)
    (S : Set String) : r'.ClosedUnderMention S ↔ r.ClosedUnderMention S := by
  refine closedUnderMention_congr (fun key => ?_) (fun record => ?_) S
  · rw [Bool.eq_iff_iff, contains_iff, contains_iff]
    exact (h.map _).mem_iff
  · exact ((h.map _).filterMap _).mem_iff

end Registry

namespace Taint

/-- A fold taints what one of its steps taints. -/
theorem contains_foldl {f : Taint → Declaration → Taint} {P : Declaration → String → Prop}
    (hStep : ∀ t d key, (f t d).contains key = true ↔ t.contains key = true ∨ P d key)
    (ds : List Declaration) (t : Taint) (key : String) :
    (ds.foldl f t).contains key = true ↔ t.contains key = true ∨ ∃ d ∈ ds, P d key := by
  induction ds generalizing t with
  | nil => simp
  | cons d ds ih => simp [ih, hStep, or_assoc]

/-- Taint begins with the tainted primitives. -/
theorem mem_keySet_seeds {r : Registry} {key : String} : key ∈ (seeds r).keySet ↔
    ∃ p : Primitive, (∃ k, (k, .primitive p) ∈ r.entries) ∧ p.tainted = true ∧ p.key = key := by
  rw [mem_keySet, seeds]
  refine (@contains_foldl _ (fun d key =>
    ∃ p : Primitive, d = .primitive p ∧ p.tainted = true ∧ p.key = key) ?_ _ empty key).trans ?_
  · intro t d key
    cases d with
    | record | enumeration => simp
    | primitive p =>
      cases hTainted : p.tainted with
      | true => simp [hTainted, @eq_comm _ key]
      | false => simp [hTainted]
  · have hEmpty : empty.contains key = false := rfl
    simp [hEmpty, Registry.declarations]

/-- A key is a seed where it leads to a tainted primitive. -/
theorem contains_seeds_iff {r : Registry} (hKeys : r.keys.Nodup)
    (hOwn : ∀ key d, (key, d) ∈ r.entries → d.key = key) {key : String} :
    (seeds r).contains key = true ↔
      ∃ p : Primitive, r.get? key = some (.primitive p) ∧ p.tainted = true := by
  rw [← mem_keySet, mem_keySet_seeds]
  constructor
  · rintro ⟨p, ⟨other, hEntry⟩, hTainted, rfl⟩
    obtain rfl := hOwn _ _ hEntry
    exact ⟨p, Registry.get?_of_mem hKeys hEntry, hTainted⟩
  · rintro ⟨p, hFound, hTainted⟩
    have hEntry := Registry.mem_of_get? hFound
    exact ⟨p, ⟨key, hEntry⟩, hTainted, hOwn _ _ hEntry⟩

/-- A record has to be tainted when it is not and a member mentions a tainted declaration. -/
theorem reaches_iff {t : Taint} {r : Registry} {record : Record} :
    t.reaches r record = true ↔ record.key ∉ t.keySet ∧
      ∃ m ∈ record.members, ∃ u, m.type.Mentions u ∧
        ∃ key, r.resolve? u = some key ∧ key ∈ t.keySet := by
  simp only [reaches, Bool.and_eq_true, Bool.not_eq_true', List.any_eq_true, touches_iff,
    mem_keySet, Bool.not_eq_true]

/-- A pass taints nothing outside a closed set that contains its taint. -/
theorem keySet_pass_subset {r : Registry} {S : Set String} (hClosed : r.ClosedUnderMention S)
    {records : List Record} (hRecords : ∀ record ∈ records, record ∈ r.records) {t : Taint}
    (h : t.keySet ⊆ S) : (pass r records t).1.keySet ⊆ S := by
  induction records generalizing t with
  | nil => exact h
  | cons record records ih =>
    have hRest : ∀ other ∈ records, other ∈ r.records := fun other hOther =>
      hRecords other (List.mem_cons_of_mem _ hOther)
    rw [pass]
    split
    · rename_i hReaches
      obtain ⟨-, m, hm, u, hu, key, hResolve, hKey⟩ := reaches_iff.mp hReaches
      have hMember : record.key ∈ S :=
        hClosed record (hRecords record (by simp)) m hm u hu key hResolve (h hKey)
      apply ih hRest
      intro other hOther
      rw [mem_keySet, contains_mark, Bool.or_eq_true, beq_iff_eq] at hOther
      rcases hOther with hOld | rfl
      · exact h hOld
      · exact hMember
    · exact ih hRest h

/-- A pass that counts nothing leaves the taint as it is and found no record to taint. -/
theorem pass_of_zero {r : Registry} {records : List Record} {t : Taint}
    (h : (pass r records t).2 = 0) :
    (pass r records t).1 = t ∧ ∀ record ∈ records, ¬t.reaches r record = true := by
  induction records generalizing t with
  | nil => exact ⟨rfl, by simp⟩
  | cons record records ih =>
    by_cases hReaches : t.reaches r record = true
    · simp [pass, hReaches] at h
    · simp only [pass, hReaches] at h ⊢
      obtain ⟨hTaint, hNone⟩ := ih h
      refine ⟨hTaint, fun other hOther => ?_⟩
      rcases List.mem_cons.mp hOther with rfl | hOther
      · exact hReaches
      · exact hNone other hOther

/-- Where no record has to be tainted any more, the taint is closed. -/
theorem closedUnderMention_of_not_reaches {r : Registry} {t : Taint}
    (h : ∀ record ∈ r.records, ¬t.reaches r record = true) : r.ClosedUnderMention t.keySet := by
  intro record hRecord m hm u hu key hResolve hKey
  by_contra hOut
  exact h record hRecord (reaches_iff.mpr ⟨hOut, m, hm, u, hu, key, hResolve, hKey⟩)

/-- Spreading ends with the least closed set that contains the initial taint. -/
theorem isLeast_spread (r : Registry) (t : Taint) :
    IsLeast {S : Set String | t.keySet ⊆ S ∧ r.ClosedUnderMention S} (spread r t).1.keySet := by
  induction t using spread.induct r with
  | case1 t =>
    rename_i hStop
    obtain ⟨hTaint, hNone⟩ := pass_of_zero hStop
    rw [spread, dif_pos hStop, hTaint]
    exact ⟨⟨subset_rfl, closedUnderMention_of_not_reaches hNone⟩, fun S hS => hS.1⟩
  | case2 t =>
    rename_i hMore ih
    rw [spread, dif_neg hMore]
    refine ⟨⟨(keySet_subset_pass r r.records t).trans ih.1.1, ih.1.2⟩, fun S hS => ?_⟩
    exact ih.2 ⟨keySet_pass_subset hS.2 (fun _ h => h) hS.1, hS.2⟩

/-- Propagation taints what must be tainted and nothing else: its taint is the least set of keys
that contains the initial one and is closed under mention among the declarations as they were
before any union was wrapped. The order of registration does not show in it. -/
theorem propagate_isLeast (r : Registry) (t : Taint) :
    IsLeast {S : Set String | t.keySet ⊆ S ∧ r.ClosedUnderMention S}
        (propagate r t).2.1.keySet ∧
      ∀ r' : Registry, r'.entries.Perm r.entries →
        (propagate r' t).2.1.keySet = (propagate r t).2.1.keySet := by
  have hSpread : ∀ r : Registry, (propagate r t).2.1 = (spread r t).1 := fun r => by
    rw [propagate_eq]
  refine ⟨hSpread r ▸ isLeast_spread r t, fun r' hPerm => ?_⟩
  rw [hSpread, hSpread]
  have h' := isLeast_spread r' t
  simp only [Registry.closedUnderMention_perm hPerm] at h'
  exact h'.unique (isLeast_spread r t)

/-- A tainted container, a struct that points to a union, and the union, which holds the container
and points back. -/
def containerCycle : List (String × Declaration) :=
  let container := TypeExpr.ofPath ["crate", "cpp_std", "Vector"]
  let owner := TypeExpr.inModule ["app"] "Owner"
  let union := TypeExpr.inModule ["app"] "Owner_Union"
  [("crate::cpp_std::Vector<>", .primitive (Primitive.wrapper container).asTainted),
    ("crate::app::Owner", .record
      { Record.empty owner 8 .struct with members := [⟨"all", union.pointerTo, 0, 8, .field⟩] }),
    ("crate::app::Owner_Union", .record
      { Record.empty union 24 .union with
        members := [⟨"items", container.withArguments [.ofPath ["u8"]], 0, 24, .field⟩,
          ⟨"owner", owner.pointerTo, 0, 8, .field⟩] })]

theorem propagate_isLeast_containerCycle :
    containerCycle.reverse.Perm containerCycle ∧
      (propagate ⟨containerCycle.reverse⟩ (seeds ⟨containerCycle⟩)).2.1.keySet =
        (propagate ⟨containerCycle⟩ (seeds ⟨containerCycle⟩)).2.1.keySet :=
  ⟨containerCycle.reverse_perm,
    (propagate_isLeast ⟨containerCycle⟩ (seeds ⟨containerCycle⟩)).2 ⟨containerCycle.reverse⟩
      containerCycle.reverse_perm⟩

end Taint

end FixedLayout
