/-!
# Association lists

Small tables as lists of pairs with one pair per key. `List.lookup` reads them.
-/

namespace Switchboard

namespace Assoc

variable {κ ν : Type} [BEq κ]

def set (key : κ) (value : ν) : List (κ × ν) → List (κ × ν)
  | [] => [(key, value)]
  | (k, v) :: rest => if k == key then (key, value) :: rest else (k, v) :: set key value rest

def erase (key : κ) (table : List (κ × ν)) : List (κ × ν) := table.filter fun p => !(p.1 == key)

def has (key : κ) (table : List (κ × ν)) : Bool := table.any fun p => p.1 == key

@[grind →] theorem eq_or_mem_of_mem_set {key : κ} {value : ν} {table : List (κ × ν)} {e : κ × ν}
    (h : e ∈ set key value table) : e = (key, value) ∨ e ∈ table := by
  induction table with
  | nil => exact .inl (List.mem_singleton.mp h)
  | cons p rest ih =>
    unfold set at h
    split at h
    · exact (List.mem_cons.mp h).imp_right (List.mem_cons_of_mem p)
    · rcases List.mem_cons.mp h with rfl | h
      · exact .inr List.mem_cons_self
      · exact (ih h).imp_right (List.mem_cons_of_mem p)

@[grind →] theorem mem_of_mem_erase {key : κ} {table : List (κ × ν)} {e : κ × ν} (h : e ∈ erase key table) :
    e ∈ table :=
  (List.mem_filter.mp h).1

@[grind →] theorem mem_of_lookup [LawfulBEq κ] {key : κ} {value : ν} {table : List (κ × ν)}
    (h : table.lookup key = some value) : (key, value) ∈ table := by
  obtain ⟨before, after, rfl, _⟩ := List.lookup_eq_some_iff.mp h
  simp

theorem has_eq_isSome_lookup [LawfulBEq κ] (key : κ) (table : List (κ × ν)) :
    has key table = (table.lookup key).isSome := by
  induction table with
  | nil => rfl
  | cons p rest ih =>
    obtain ⟨k, v⟩ := p
    rw [has, List.any_cons, List.lookup_cons, ← has, ih, BEq.comm (a := k)]
    cases key == k <;> rfl

@[grind =] theorem lookup_set [LawfulBEq κ] (key : κ) (value : ν) (table : List (κ × ν)) (k : κ) :
    (set key value table).lookup k = if k == key then some value else table.lookup k := by
  induction table with
  | nil =>
    rw [set, List.lookup_cons, List.lookup_nil]
    cases k == key <;> rfl
  | cons p rest ih =>
    obtain ⟨k', v⟩ := p
    unfold set
    split
    · next h =>
      obtain rfl := eq_of_beq h
      simp only [List.lookup_cons]
      cases k == k' <;> rfl
    · next h =>
      simp only [List.lookup_cons, ih]
      cases hk : k == k' with
      | false => rfl
      | true =>
        obtain rfl := eq_of_beq hk
        simp [h]

@[grind =] theorem lookup_erase [LawfulBEq κ] (key : κ) (table : List (κ × ν)) (k : κ) :
    (erase key table).lookup k = if k == key then none else table.lookup k := by
  unfold erase
  induction table with
  | nil => simp
  | cons p rest ih =>
    obtain ⟨k', v⟩ := p
    rw [List.filter_cons]
    split
    · next h =>
      simp only [List.lookup_cons, ih]
      cases hk : k == k' with
      | false => rfl
      | true =>
        obtain rfl := eq_of_beq hk
        simpa using h
    · next h =>
      obtain rfl : k' = key := by simpa using h
      rw [ih, List.lookup_cons]
      cases hk : k == k' <;> rfl

end Assoc

end Switchboard
