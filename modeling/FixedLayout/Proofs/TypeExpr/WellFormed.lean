import FixedLayout.TypeExpr.Reader

/-! Well-formed type expressions, which are the ones that a text can write: a path of segments or
the unit type, an extent that fits an address, and arguments of the same kind. Whatever is read is
well formed. -/

namespace FixedLayout.TypeExpr

/-- The text is a segment of a path: letters, digits, underscores and hashes, one at least. -/
structure IsSegment (segment : String) : Prop where
  nonempty : segment ≠ ""
  chars : ∀ c ∈ segment.toList, isSegmentChar c = true

/-- The unit type, or segments of which there is one at least. -/
inductive IsPath : List String → Prop
  | unit : IsPath ["()"]
  | segments {path : List String} (hSome : path ≠ []) (hEach : ∀ s ∈ path, IsSegment s) :
      IsPath path

inductive WellFormed : TypeExpr → Prop
  | mk {t : TypeExpr} (hPath : IsPath t.path) (hExtent : ∀ n, t.extent = some n → n < UInt64.size)
      (hArguments : ∀ args, t.arguments = some args → ∀ a ∈ args, WellFormed a) : WellFormed t

namespace WellFormed

variable {t : TypeExpr}

theorem path (h : t.WellFormed) : IsPath t.path := by
  cases h
  assumption

theorem arguments (h : t.WellFormed) {args : List TypeExpr} (hArgs : t.arguments = some args) :
    ∀ a ∈ args, a.WellFormed := by
  cases h with
  | mk _ _ hArguments => exact hArguments args hArgs

/-- Well-formed expressions are so without their decoration. -/
theorem base (h : t.WellFormed) : t.base.WellFormed :=
  ⟨h.path, nofun, fun _ hArgs => h.arguments hArgs⟩

theorem erased (h : t.WellFormed) : t.erased.WellFormed := by
  refine ⟨h.path, nofun, fun args hArgs a ha => ?_⟩
  obtain ⟨_, -, rfl⟩ := Option.map_eq_some_iff.mp hArgs
  cases ha

end WellFormed

/-! ### What is read -/

theorem ok_bind {ε α β : Type} (a : α) (f : α → Except ε β) : (.ok a >>= f) = f a := rfl

theorem exists_of_bind_ok {ε α β : Type} {x : Except ε α} {f : α → Except ε β} {b : β}
    (h : (x >>= f) = .ok b) : ∃ a, x = .ok a ∧ f a = .ok b := by
  cases x with
  | error e => cases h
  | ok a => exact ⟨a, rfl, h⟩

theorem segments_of_readSegments {segment cs rest : List Char} {segments : List String}
    (h : readSegments segment cs = .ok (segments, rest))
    (hSegment : ∀ c ∈ segment, isSegmentChar c = true) :
    segments ≠ [] ∧ ∀ s ∈ segments, IsSegment s := by
  have hWhole : ∀ {cs : List Char}, ¬cs.isEmpty = true → (∀ c ∈ cs, isSegmentChar c = true) →
      IsSegment (String.ofList cs.reverse) := fun hSome hChars =>
    ⟨by simpa [← String.toList_inj] using hSome, by simpa using hChars⟩
  fun_induction readSegments segment cs generalizing segments with
  | case1 => cases h
  | case2 segment cs hSome ih =>
    cases hRest : readSegments [] cs with
    | error e =>
      rw [hRest] at h
      cases h
    | ok r =>
      rw [hRest] at h
      cases h
      refine ⟨List.cons_ne_nil _ _, fun s hs => ?_⟩
      rcases List.mem_cons.mp hs with rfl | hs
      · exact hWhole hSome hSegment
      · exact (ih hRest (by simp)).2 s hs
  | case3 segment c cs _ hChar ih =>
    exact ih h (by simpa [hChar] using hSegment)
  | case4 => cases h
  | case5 segment c cs _ _ hSome =>
    cases h
    exact ⟨by simp, by simpa using hWhole hSome hSegment⟩
  | case6 => cases h
  | case7 segment hSome =>
    cases h
    exact ⟨by simp, by simpa using hWhole hSome hSegment⟩

theorem isPath_of_readPath {cs rest : List Char} {path : List String}
    (h : readPath cs = .ok (path, rest)) : IsPath path := by
  unfold readPath at h
  split at h
  · cases h
    exact .unit
  · obtain ⟨hSome, hEach⟩ := segments_of_readSegments h (by simp)
    exact .segments hSome hEach

theorem lt_of_readLength {cs rest : List Char} {n : Nat} (h : readLength cs = .ok (n, rest)) :
    n < UInt64.size := by
  unfold readLength at h
  dsimp only at h
  split at h
  · split at h
    · cases h
      assumption
    · cases h
  · cases h

/-- Whatever is read is well formed, for one expression and for arguments alike. -/
theorem wellFormed_of_read (fuel : Nat) :
    (∀ {cs rest t}, readExpr fuel cs = .ok (t, rest) → t.WellFormed) ∧
      ∀ {cs rest ts}, readArguments fuel cs = .ok (ts, rest) → ∀ t ∈ ts, t.WellFormed := by
  induction fuel with
  | zero => exact ⟨nofun, nofun⟩
  | succ fuel ih =>
    obtain ⟨ihExpr, ihArguments⟩ := ih
    refine ⟨fun {cs rest t} h => ?_, fun {cs rest ts} h => ?_⟩
    · unfold readExpr at h
      split at h
      · split at h
        · cases h
        · obtain ⟨⟨element, _⟩, hElement, h⟩ := exists_of_bind_ok h
          have hInner := ihExpr hElement
          dsimp only at h
          split at h
          · cases h
          · obtain ⟨_, -, h⟩ := exists_of_bind_ok h
            obtain ⟨⟨n, _⟩, hLength, h⟩ := exists_of_bind_ok h
            obtain ⟨_, -, h⟩ := exists_of_bind_ok h
            cases h
            refine ⟨hInner.path, ?_, fun _ hArgs => hInner.arguments hArgs⟩
            rintro _ ⟨⟩
            exact lt_of_readLength hLength
      · obtain ⟨⟨path, _⟩, hPath, h⟩ := exists_of_bind_ok h
        have hPath := isPath_of_readPath hPath
        dsimp only at h
        split at h
        · split at h
          · cases h
            exact ⟨hPath, nofun, fun _ hArgs => by cases hArgs; simp⟩
          · obtain ⟨⟨args, _⟩, hArguments, h⟩ := exists_of_bind_ok h
            cases h
            refine ⟨hPath, nofun, fun _ hArgs => ?_⟩
            cases hArgs
            exact ihArguments hArguments
        · cases h
          exact ⟨hPath, nofun, nofun⟩
    · unfold readArguments at h
      obtain ⟨⟨arg, _⟩, hArg, h⟩ := exists_of_bind_ok h
      have hFirst := ihExpr hArg
      dsimp only at h
      split at h
      · obtain ⟨⟨args, _⟩, hRest, h⟩ := exists_of_bind_ok h
        cases h
        exact List.forall_mem_cons.mpr ⟨hFirst, ihArguments hRest⟩
      · obtain ⟨_, -, h⟩ := exists_of_bind_ok h
        cases h
        simpa using hFirst

theorem wellFormed_of_parse {text : String} {t : TypeExpr} (h : parse text = .ok t) :
    t.WellFormed := by
  unfold parse at h
  split at h
  · rename_i expr hRead
    cases h
    obtain ⟨⟨_, _⟩, hExpr, h⟩ := exists_of_bind_ok hRead
    dsimp only at h
    split at h
    · cases h
      exact (wellFormed_of_read _).1 hExpr
    · cases h
  · cases h

end FixedLayout.TypeExpr
