import Mathlib.Data.List.Basic
import Switchboard.Proofs.Reading

/-!
# Values that have been read

Whatever text is read, its integers are in range, it nests no deeper than the limit, and the fields of
its objects are in order. So it can be written and read again.
-/

namespace Switchboard

namespace Json

theorem exactItems_iff {xs : List Json} : exactItems xs = true ↔ ∀ x ∈ xs, exact x = true := by
  induction xs with
  | nil => simp [exactItems]
  | cons _ _ ih => simp [exactItems, ih]

variable {fs : List (String × Json)}

theorem exactFields_iff :
    exactFields fs = true ↔ ∀ f ∈ fs, exact f.2 = true := by
  induction fs with
  | nil => simp [exactFields]
  | cons _ _ ih => simp [exactFields, ih]

theorem heightItems_lt_iff {xs : List Json} {n : Nat} (pos : 0 < n) :
    heightItems xs < n ↔ ∀ x ∈ xs, height x < n := by
  induction xs with
  | nil => simp [heightItems, pos]
  | cons _ _ ih => simp [heightItems, ih]

theorem heightFields_lt_iff {n : Nat} (pos : 0 < n) :
    heightFields fs < n ↔ ∀ f ∈ fs, height f.2 < n := by
  induction fs with
  | nil => simp [heightFields, pos]
  | cons _ _ ih => simp [heightFields, ih]

theorem mem_of_mem_setField {key : String} {v : Json} {f : String × Json}
    (h : f ∈ setField key v fs) : f = (key, v) ∨ f ∈ fs := by
  induction fs with
  | nil => exact Or.inl (List.mem_singleton.mp h)
  | cons =>
    unfold setField at h
    split at h
    · exact (List.mem_cons.mp h).imp id id
    · grind

theorem inOrder_setField (h : inOrder fs) (key : String) (v : Json) :
    inOrder (setField key v fs) := by
  induction fs with
  | nil => exact List.pairwise_singleton ..
  | cons _ _ ih =>
    obtain ⟨first, rest⟩ := List.pairwise_cons.mp h
    unfold setField
    split
    · next less =>
      refine List.pairwise_cons.mpr ⟨fun f hf => ?_, h⟩
      rcases List.mem_cons.mp hf with rfl | hf
      · exact less
      · exact String.lt_trans less (first f hf)
    · next notLess =>
      split
      · next eq =>
        subst eq
        exact List.pairwise_cons.mpr ⟨first, rest⟩
      · next other =>
        refine List.pairwise_cons.mpr ⟨fun f hf => ?_, ih rest⟩
        rcases mem_of_mem_setField hf with rfl | hf
        · exact Std.lt_of_le_of_ne (String.not_lt.mp notLess) (Ne.symm other)
        · exact first f hf

/-- What holds of every value of fields holds of the object that they make. -/
theorem sortFields_spec {P : Json → Prop} (h : ∀ f ∈ fs, P f.2) :
    inOrder (sortFields fs) ∧ ∀ f ∈ sortFields fs, P f.2 := by
  suffices ∀ (rest acc : List (String × Json)), inOrder acc → (∀ f ∈ acc, P f.2) →
      (∀ f ∈ rest, P f.2) → inOrder (rest.foldl (fun acc f => setField f.1 f.2 acc) acc) ∧
        ∀ f ∈ rest.foldl (fun acc f => setField f.1 f.2 acc) acc, P f.2 from
    this fs [] List.Pairwise.nil (fun _ h => absurd h List.not_mem_nil) h
  intro rest
  induction rest with
  | nil => exact fun acc sorted all _ => ⟨sorted, all⟩
  | cons g _ ih =>
    intro acc sorted all new
    refine ih _ (inOrder_setField sorted g.1 g.2) (fun f hf => ?_)
      (fun f hf => new f (List.mem_cons_of_mem g hf))
    rcases mem_of_mem_setField hf with rfl | hf
    · exact new g (.head _)
    · exact all f hf

/-- Integers in range, containers that nest less than `room` deep, fields in order. -/
structure Legal (room : Nat) (v : Json) : Prop where
  exact : v.exact = true
  height : v.height < room
  ordered : ∀ fs, v = .obj fs → inOrder fs

def numeric : Json → Bool
  | .int i => isRepresentable i
  | .float _ => true
  | _ => false

theorem Legal.of_numeric {v : Json} (h : numeric v = true) {room : Nat} (pos : 0 < room) : Legal room v := by
  cases v with
  | int => exact ⟨h, pos, nofun⟩
  | float => exact ⟨rfl, pos, nofun⟩
  | _ => cases h

section Numbers

variable {c c' : Cursor} {positive : Bool} {v : Json}

variable {sig : Nat}

theorem numeric_doubleOfParts {exponent : Int}
    (h : doubleOfParts c positive sig exponent = .ok (v, c')) : numeric v = true := by
  unfold doubleOfParts at h
  split at h
  · cases h
  · cases h
    rfl

theorem numeric_exponentDigits {positiveExp : Bool} {start : Int} {first : Nat}
    (h : exponentDigits c positive positiveExp sig start first = .ok (v, c')) : numeric v = true := by
  unfold exponentDigits at h
  simp only at h
  split at h
  · split at h
    · split at h
      · cases h
      · cases h
        rfl
    · exact numeric_doubleOfParts h
  · exact numeric_doubleOfParts h

theorem numeric_exponentPart {start : Int}
    (h : exponentPart c positive sig start = .ok (v, c')) : numeric v = true := by
  grind [exponentPart, Cursor.fail, Cursor.failPeek, numeric_exponentDigits]

theorem numeric_afterDigits {exponent : Int}
    (h : afterDigits c positive sig exponent = .ok (v, c')) : numeric v = true := by
  grind [afterDigits, numeric_exponentPart, numeric_doubleOfParts]

theorem numeric_numberRest {before : Nat} (small : sig ≤ significandMax)
    (h : numberRest c positive sig before = .ok (v, c')) : numeric v = true := by
  unfold numberRest at h
  split at h
  · unfold fractionPart at h
    simp only at h
    split at h
    · cases h
    · exact numeric_afterDigits h
  · exact numeric_exponentPart h
  · exact numeric_exponentPart h
  · unfold significandMax at small
    split at h
    · exact numeric_doubleOfParts h
    · grind [numeric, isRepresentable]

theorem takeDigits_le {limit : Nat} (cs : List Char) (pos : Position) (n : Nat)
    (h : sig ≤ limit) : (takeDigits limit cs pos sig n).1 ≤ limit := by
  induction cs generalizing pos sig n with
  | nil => exact h
  | cons _ _ ih =>
    unfold takeDigits
    split
    · exact h
    · split
      · exact h
      · exact ih _ _ (by omega)

theorem numeric_number (h : number c positive = .ok (v, c')) : numeric v = true := by
  unfold number at h
  split at h
  · cases h
  · simp only at h
    split at h
    · split at h
      · cases h
      · exact numeric_numberRest (Nat.zero_le _) h
    · exact numeric_numberRest (Nat.zero_le _) h
  · split at h
    · exact numeric_numberRest (takeDigits_le _ _ _ (Nat.zero_le _)) h
    · cases h

end Numbers

mutual

theorem legal_value : ∀ (fuel room : Nat) (c : Cursor) {v : Json} {c' : Cursor}, 0 < room →
    value fuel room c = .ok (v, c') → Legal room v
  | 0, _, _, _, _, _, h => by
    rw [value] at h
    cases h
  | fuel + 1, room, c, v, c', pos, h => by
    have literal_legal : ∀ {c rest} {u : Json}, literal c rest u = .ok (v, c') → Legal room u →
        Legal room v := by
      intro c rest u read legal
      unfold literal at read
      split at read
      · cases read
      · cases read
        exact legal
    rw [value] at h
    split at h
    · cases h
    · split at h
      · exact literal_legal h ⟨rfl, pos, nofun⟩
      · exact literal_legal h ⟨rfl, pos, nofun⟩
      · exact literal_legal h ⟨rfl, pos, nofun⟩
      · exact .of_numeric (numeric_number h) pos
      · split at h
        · cases h
        · cases h
          exact ⟨rfl, pos, nofun⟩
      · split at h
        · cases h
        · have legal := legal_items fuel (room - 1) _ true [] (by omega)
            (fun _ hx => absurd hx List.not_mem_nil) h
          rwa [show room - 1 + 1 = room by omega] at legal
      · split at h
        · cases h
        · have legal := legal_fields fuel (room - 1) _ true [] (by omega)
            (fun _ hx => absurd hx List.not_mem_nil) h
          rwa [show room - 1 + 1 = room by omega] at legal
      · split at h
        · exact .of_numeric (numeric_number h) pos
        · cases h

theorem legal_items : ∀ (fuel room : Nat) (c : Cursor) (first : Bool) (acc : List Json) {v : Json}
    {c' : Cursor}, 0 < room → (∀ x ∈ acc, Legal room x) →
    items fuel room c first acc = .ok (v, c') → Legal (room + 1) v
  | 0, _, _, _, _, _, _, _, _, h => by
    rw [items] at h
    cases h
  | fuel + 1, room, c, first, acc, v, c', pos, all, h => by
    have next : ∀ {c : Cursor}, (match value fuel room c with
        | .error e => Except.error e
        | .ok (x, c) => items fuel room c false (x :: acc)) = .ok (v, c') → Legal (room + 1) v := by
      intro c read
      split at read
      · cases read
      · next x c'' one =>
        refine legal_items fuel room c'' false (x :: acc) pos (fun y hy => ?_) read
        rcases List.mem_cons.mp hy with rfl | hy
        · exact legal_value fuel room c pos one
        · exact all y hy
    rw [items] at h
    simp only at h
    split at h
    · cases h
    · split at h
      · cases h
        have back : ∀ x ∈ acc.reverse, Legal room x := fun x hx => all x (List.mem_reverse.mp hx)
        refine ⟨exactItems_iff.mpr fun x hx => (back x hx).exact, ?_, nofun⟩
        have := (heightItems_lt_iff pos).mpr fun x hx => (back x hx).height
        rw [Json.height]
        omega
      · split at h
        · exact next h
        · split at h
          · split at h
            · cases h
            · cases h
            · exact next h
          · cases h

theorem legal_fields : ∀ (fuel room : Nat) (c : Cursor) (first : Bool) (acc : List (String × Json))
    {v : Json} {c' : Cursor}, 0 < room → (∀ f ∈ acc, Legal room f.2) →
    fields fuel room c first acc = .ok (v, c') → Legal (room + 1) v
  | 0, _, _, _, _, _, _, _, _, h => by
    rw [fields] at h
    cases h
  | fuel + 1, room, c, first, acc, v, c', pos, all, h => by
    rw [fields] at h
    split at h
    · cases h
    · split at h
      · cases h
        obtain ⟨sorted, legal⟩ := sortFields_spec (P := Legal room)
          fun f hf => all f (List.mem_reverse.mp hf)
        refine ⟨exactFields_iff.mpr fun f hf => (legal f hf).exact, ?_, ?_⟩
        swap
        · intro _ eq
          cases eq
          exact sorted
        have := (heightFields_lt_iff pos).mpr fun f hf => (legal f hf).height
        rw [object, Json.height]
        omega
      · split at h
        · exact legal_member fuel room _ acc pos all h
        · split at h
          · exact legal_member fuel room _ acc pos all h
          · cases h

theorem legal_member : ∀ (fuel room : Nat) (c : Cursor) (acc : List (String × Json)) {v : Json}
    {c' : Cursor}, 0 < room → (∀ f ∈ acc, Legal room f.2) →
    member fuel room c acc = .ok (v, c') → Legal (room + 1) v
  | 0, _, _, _, _, _, _, _, h => by
    rw [member] at h
    cases h
  | fuel + 1, room, c, acc, v, c', pos, all, h => by
    rw [member] at h
    simp only at h
    split at h
    · cases h
    · cases h
    · split at h
      · cases h
      · split at h
        · cases h
        · split at h
          · cases h
          · next k _ _ _ _ _ _ x c'' one =>
            refine legal_fields fuel room c'' false ((k, x) :: acc) pos (fun f hf => ?_) h
            rcases List.mem_cons.mp hf with rfl | hf
            · exact legal_value fuel room _ pos one
            · exact all f hf
        · cases h
    · cases h

end

theorem legal_of_parse {text : String} {v : Json} (h : parse text = .ok v) : Legal depthLimit v := by
  unfold parse at h
  simp only at h
  split at h
  · cases h
  · next _ _ read =>
    split at h
    · cases h
      exact legal_value _ depthLimit _ (by decide) read
    · cases h

end Json

end Switchboard
