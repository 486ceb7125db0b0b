import Switchboard.Proofs.Parsed

/-!
# What the text of a value says

The text of a value whose integers are in range is read if and only if the value does not nest too deep,
and then it is read as `reread` says (`parse_render_iff`). In what order the fields of an object are
written makes no difference to the reader (`parse_object_iff`).
-/

namespace Switchboard

namespace Json

/-- When the compact text of a value is read, and as what. -/
theorem parse_render_iff {u v : Json} (range : exact u = true) :
    parse u.render = .ok v ↔ height u < depthLimit ∧ v = u.reread :=
  parse_of_toList (toList_render u) range

/-! ## The order of fields -/

variable {fs : List (String × Json)}

theorem perm_setField {key : String} {v : Json}
    (fresh : key ∉ fs.map Prod.fst) : (setField key v fs).Perm ((key, v) :: fs) := by
  induction fs with
  | nil => exact .refl _
  | cons f _ ih =>
    obtain ⟨k, x⟩ := f
    simp only [List.map_cons, List.mem_cons, not_or] at fresh
    unfold setField
    rw [if_neg fresh.1]
    split
    · exact .refl _
    · exact ((ih fresh.2).cons (k, x)).trans (.swap ..)

/-- Fields with different keys are only put into order. -/
theorem perm_sortFields (keys : (fs.map Prod.fst).Nodup) :
    (sortFields fs).Perm fs := by
  suffices ∀ (rest acc : List (String × Json)), ((acc ++ rest).map Prod.fst).Nodup →
      (rest.foldl (fun acc f => setField f.1 f.2 acc) acc).Perm (acc ++ rest) from this fs [] keys
  intro rest
  induction rest with
  | nil => exact fun acc _ => by rw [List.append_nil]; exact .refl _
  | cons f rest ih =>
    intro acc distinct
    have middle : (acc ++ f :: rest).Perm (f :: acc ++ rest) := List.perm_middle
    have moved := (middle.map Prod.fst).nodup_iff.mp distinct
    have grown : (setField f.1 f.2 acc).Perm (f :: acc) := by
      grind [perm_setField]
    refine (ih _ (((grown.append_right rest).map Prod.fst).nodup_iff.mpr moved)).trans ?_
    exact (grown.append_right rest).trans middle.symm

theorem exactFields_perm {gs : List (String × Json)} (h : fs.Perm gs) :
    exactFields fs = exactFields gs := by
  rw [Bool.eq_iff_iff, exactFields_iff, exactFields_iff]
  exact ⟨fun all f hf => all f (h.mem_iff.mpr hf), fun all f hf => all f (h.mem_iff.mp hf)⟩

theorem heightFields_perm {gs : List (String × Json)} (h : fs.Perm gs) :
    heightFields fs = heightFields gs := by
  have le : ∀ {fs gs : List (String × Json)}, fs.Perm gs → heightFields fs ≤ heightFields gs := by
    intro fs gs h
    refine Nat.le_of_lt_succ ((heightFields_lt_iff (Nat.succ_pos _)).mpr fun f hf => ?_)
    exact (heightFields_lt_iff (Nat.succ_pos _)).mp (Nat.lt_succ_self _) f (h.mem_iff.mp hf)
  exact Nat.le_antisymm (le h) (le h.symm)

theorem rereadFields_setField (key : String) (v : Json) (fs : List (String × Json)) :
    rereadFields (setField key v fs) = setField key v.reread (rereadFields fs) := by
  induction fs with
  | nil => rfl
  | cons =>
    grind [setField, rereadFields]

theorem rereadFields_sortFields (fs : List (String × Json)) :
    rereadFields (sortFields fs) = sortFields (rereadFields fs) := by
  suffices ∀ (rest acc : List (String × Json)),
      rereadFields (rest.foldl (fun acc f => setField f.1 f.2 acc) acc) =
        (rereadFields rest).foldl (fun acc f => setField f.1 f.2 acc) (rereadFields acc) from this fs []
  intro rest
  induction rest with
  | nil => exact fun _ => rfl
  | cons _ _ ih =>
    intro acc
    rw [List.foldl_cons, ih, rereadFields_setField]
    rfl

theorem reread_object (fs : List (String × Json)) : (object fs).reread = (obj fs).reread := by
  have sorted : inOrder (sortFields (rereadFields fs)) :=
    (sortFields_spec (P := fun _ => True) fun _ _ => trivial).1
  rw [object, reread, reread, rereadFields_sortFields, object, object, sortFields_of_inOrder sorted]

/-- The text of an object is read alike in whatever order its fields are written. -/
theorem parse_object_iff (keys : (fs.map Prod.fst).Nodup) (range : exactFields fs = true) (v : Json) :
    parse (obj fs).render = .ok v ↔ parse (object fs).render = .ok v := by
  have perm := perm_sortFields keys
  have range' : exact (object fs) = true := (exactFields_perm perm).trans range
  rw [parse_render_iff (by rw [exact]; exact range), parse_render_iff range', reread_object, object, height,
    height, heightFields_perm perm]

end Json

end Switchboard
