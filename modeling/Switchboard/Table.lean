/-!
# Tables

A table hands out numbers: the cell put in last has the table's former size as its number, and keeps
it. Looking up and changing a cell go by number; numbers that were never handed out have no cell.
-/

namespace Switchboard

/-- Cells by number. -/
structure Table (α : Type) where
  cells : Array α := #[]
deriving Inhabited

theorem of_eq_some {α : Type} {o : Option α} {a : α} {P : α → Prop} (h : ∃ b, o = some b ∧ P b)
    (ha : o = some a) : P a := by
  obtain ⟨b, hb, hP⟩ := h
  cases ha.symm.trans hb
  exact hP

namespace Table

variable {α : Type}

def get? (t : Table α) (i : Nat) : Option α := t.cells[i]?

def size (t : Table α) : Nat := t.cells.size

def push (t : Table α) (a : α) : Table α := ⟨t.cells.push a⟩

def modify (t : Table α) (i : Nat) (f : α → α) : Table α := ⟨t.cells.modify i f⟩

def toList (t : Table α) : List α := t.cells.toList

def entries (t : Table α) : List (Nat × α) := t.cells.toList.zipIdx.map fun p => (p.2, p.1)

@[simp, grind =] theorem size_push (t : Table α) (a : α) : (t.push a).size = t.size + 1 := by
  simp [push, size]

@[simp, grind =] theorem size_modify (t : Table α) (i : Nat) (f : α → α) :
    (t.modify i f).size = t.size := by
  simp [modify, size]

@[simp] theorem get?_push_size (t : Table α) (a : α) : (t.push a).get? t.size = some a := by
  simp [push, size, get?]

theorem get?_push_of_lt {t : Table α} {i : Nat} (h : i < t.size) (a : α) :
    (t.push a).get? i = t.get? i := by
  simp only [push, get?, size] at *
  simp [Array.getElem?_push, Nat.ne_of_lt h]

@[simp] theorem get?_modify_self (t : Table α) (i : Nat) (f : α → α) :
    (t.modify i f).get? i = (t.get? i).map f := by
  simp [modify, get?, Array.getElem?_modify]

theorem get?_modify_of_ne {i j : Nat} (h : i ≠ j) (t : Table α) (f : α → α) :
    (t.modify i f).get? j = t.get? j := by
  simp [modify, get?, Array.getElem?_modify, h]

@[grind =] theorem get?_modify (t : Table α) (i j : Nat) (f : α → α) :
    (t.modify i f).get? j = if i = j then (t.get? j).map f else t.get? j := by
  simp only [modify, get?, Array.getElem?_modify]

theorem get?_modify_of_some {t : Table α} {i : Nat} {a : α} (h : t.get? i = some a) (f : α → α) (j : Nat) :
    (t.modify i f).get? j = if i = j then some (f a) else t.get? j := by
  rw [get?_modify]
  split
  · next hij => rw [← hij, h, Option.map_some]
  · rfl

theorem map_get?_modify {β : Type} {p : α → β} {f : α → α} (h : ∀ a, p (f a) = p a) (t : Table α) (i j : Nat) :
    ((t.modify i f).get? j).map p = (t.get? j).map p := by
  rw [get?_modify]
  split
  · rw [Option.map_map]
    exact congrArg (Option.map · _) (funext h)
  · rfl

@[grind =] theorem get?_push (t : Table α) (a : α) (i : Nat) :
    (t.push a).get? i = if i = t.size then some a else t.get? i := by
  simp only [push, get?, size, Array.getElem?_push]
  congr

@[grind →] theorem lt_size_of_get? {t : Table α} {i : Nat} {a : α} (h : t.get? i = some a) : i < t.size :=
  (Array.getElem?_eq_some_iff.mp h).1

theorem get?_isSome_of_lt {t : Table α} {i : Nat} (h : i < t.size) : ∃ a, t.get? i = some a :=
  ⟨t.cells[i], Array.getElem?_eq_getElem h⟩

theorem get?_of_size_le {t : Table α} {i : Nat} (h : t.size ≤ i) : t.get? i = none :=
  Array.getElem?_eq_none h

theorem ext_get? {t u : Table α} (h : ∀ i, t.get? i = u.get? i) : t = u := by
  obtain ⟨a⟩ := t
  obtain ⟨b⟩ := u
  exact congrArg Table.mk (Array.ext_getElem? h)

theorem any_cells {t : Table α} {P : α → Bool} :
    t.cells.any P = true ↔ ∃ i a, t.get? i = some a ∧ P a = true := by
  simp only [Array.any_eq_true, get?, Array.getElem?_eq_some_iff]
  constructor
  · rintro ⟨i, hi, ha⟩
    exact ⟨i, t.cells[i], ⟨hi, rfl⟩, ha⟩
  · rintro ⟨i, a, ⟨hi, rfl⟩, ha⟩
    exact ⟨i, hi, ha⟩

/-- Changing a cell to itself changes nothing. -/
theorem modify_eq_self {t : Table α} {i : Nat} {f : α → α} (h : ∀ a, t.get? i = some a → f a = a) :
    t.modify i f = t := by
  refine ext_get? fun j => ?_
  rw [get?_modify]
  split
  · next hij =>
    subst hij
    cases hj : t.get? i with
    | none => rfl
    | some a => rw [Option.map_some, h a hj]
  · rfl

/-- Only what happens to the cell itself matters. -/
theorem modify_congr {t : Table α} {i : Nat} {f g : α → α}
    (h : ∀ a, t.get? i = some a → f a = g a) : t.modify i f = t.modify i g := by
  refine ext_get? fun j => ?_
  simp only [get?_modify]
  split
  · next hij =>
    subst hij
    exact Option.map_congr fun a ha => h a ha
  · rfl

theorem modify_of_some {t : Table α} {i : Nat} {a : α} {f g : α → α} (h : t.get? i = some a) (same : f a = g a) :
    t.modify i f = t.modify i g :=
  modify_congr fun _ hb => Option.some.inj (h.symm.trans hb) ▸ same

theorem modify_of_none {t : Table α} {i : Nat} (h : t.get? i = none) (f : α → α) : t.modify i f = t :=
  modify_eq_self fun _ ha => absurd (h.symm.trans ha) nofun

/-- Changing a cell twice is changing it once by both. -/
theorem modify_modify (t : Table α) (i : Nat) (f g : α → α) :
    (t.modify i f).modify i g = t.modify i (g ∘ f) := by
  refine ext_get? fun j => ?_
  simp only [get?_modify]
  split <;> simp

/-- Changing the cell that was added last. -/
theorem modify_push_size (t : Table α) (a : α) (f : α → α) :
    (t.push a).modify t.size f = t.push (f a) := by
  refine ext_get? fun j => ?_
  simp only [get?_modify, get?_push]
  by_cases h : j = t.size
  · simp [h]
  · simp [h, Ne.symm h]

attribute [grind =] Option.map_eq_some_iff

/-! ## All cells -/

@[grind] def All (P : Nat → α → Prop) (t : Table α) : Prop := ∀ i a, t.get? i = some a → P i a

theorem All.empty {P : Nat → α → Prop} : ({} : Table α).All P := fun i a h => by
  simp [get?] at h

theorem All.of_lt {β : Type} {f : Nat → Option β} {P : Nat → β → α → Prop} {t : Table α}
    (h : t.All fun i a => ∃ b, f i = some b ∧ P i b a) {i : Nat} {b : β} (hi : i < t.size) (hb : f i = some b) :
    ∃ a, t.get? i = some a ∧ P i b a := by
  obtain ⟨a, ha⟩ := get?_isSome_of_lt hi
  exact ⟨a, ha, of_eq_some (P := (P i · a)) (h i a ha) hb⟩

theorem All.imp {P Q : Nat → α → Prop} {t : Table α} (h : t.All P) (hPQ : ∀ i a, P i a → Q i a) :
    t.All Q := fun i a hi => hPQ i a (h i a hi)

theorem All.push {P : Nat → α → Prop} {t : Table α} (h : t.All P) {a : α} (ha : P t.size a) :
    (t.push a).All P := by
  intro i b hi
  rw [get?_push] at hi
  split at hi
  · next hsize =>
    obtain rfl := Option.some.inj hi
    exact hsize ▸ ha
  · exact h i b hi

theorem All.modify {P : Nat → α → Prop} {t : Table α} (h : t.All P) {i : Nat} {f : α → α}
    (hf : ∀ a, t.get? i = some a → P i a → P i (f a)) : (t.modify i f).All P := by
  intro j b hj
  rw [get?_modify] at hj
  split at hj
  · next hij =>
    subst hij
    obtain ⟨a, ha, rfl⟩ := Option.map_eq_some_iff.mp hj
    exact hf a ha (h i a ha)
  · exact h j b hj

def modifyAll (is : List Nat) (f : α → α) (t : Table α) : Table α :=
  is.foldl (fun acc i => acc.modify i f) t

@[simp] theorem modifyAll_nil (f : α → α) (t : Table α) : t.modifyAll [] f = t := rfl

@[simp] theorem modifyAll_cons (i : Nat) (is : List Nat) (f : α → α) (t : Table α) :
    t.modifyAll (i :: is) f = (t.modify i f).modifyAll is f := rfl

@[simp] theorem size_modifyAll (is : List Nat) (f : α → α) (t : Table α) :
    (t.modifyAll is f).size = t.size := by
  induction is generalizing t with
  | nil => rfl
  | cons i is ih => rw [modifyAll_cons, ih, size_modify]

theorem All.modifyAll {P : Nat → α → Prop} {t : Table α} (h : t.All P) {is : List Nat} {f : α → α}
    (hf : ∀ i ∈ is, ∀ a, P i a → P i (f a)) : (t.modifyAll is f).All P := by
  induction is generalizing t with
  | nil => exact h
  | cons i is ih =>
    refine ih (h.modify fun a _ => hf i List.mem_cons_self a) fun j hj => ?_
    exact hf j (List.mem_cons_of_mem i hj)

/-- A change that happens once however often it is made. -/
theorem get?_modifyAll {f : α → α} (hf : ∀ a, f (f a) = f a) (is : List Nat) (t : Table α) (j : Nat) :
    (t.modifyAll is f).get? j = if j ∈ is then (t.get? j).map f else t.get? j := by
  induction is generalizing t with
  | nil => simp
  | cons i is ih =>
    rw [modifyAll_cons, ih, get?_modify]
    by_cases hij : i = j
    · subst hij
      cases hi : t.get? i <;> simp [hf]
    · simp [hij, Ne.symm hij]

end Table

end Switchboard
