import Mathlib.Data.List.Induction

/-!
# Runs of a system

A system takes one event after the other: `step` gives the state after an event. What a run shows is read
off its turns, each an event with the states before and after it.
-/

namespace Switchboard

namespace Runs

/-- An event with what was before and after it. -/
structure Turn (σ ε : Type) where
  before : σ
  event : ε
  after : σ

variable {σ ε : Type} (step : σ → ε → σ)

def run (s : σ) : List ε → σ
  | [] => s
  | e :: es => run (step s e) es

def turns (s : σ) : List ε → List (Turn σ ε)
  | [] => []
  | e :: es => ⟨s, e, step s e⟩ :: turns (step s e) es

theorem run_append (s : σ) (es es' : List ε) : run step s (es ++ es') = run step (run step s es) es' := by
  induction es generalizing s with
  | nil => rfl
  | cons e _ ih => exact ih (step s e)

theorem turns_append (s : σ) (es es' : List ε) :
    turns step s (es ++ es') = turns step s es ++ turns step (run step s es) es' := by
  induction es generalizing s with
  | nil => rfl
  | cons e _ ih => exact congrArg (_ :: ·) (ih (step s e))

/-- A list that is split at one of its members is split at the last or before it. -/
theorem split_last {α : Type} {l before after : List α} {a b : α} (h : l ++ [b] = before ++ a :: after) :
    (l = before ∧ b = a ∧ after = []) ∨ ∃ after', after = after' ++ [b] ∧ l = before ++ a :: after' := by
  rcases List.eq_nil_or_concat after with rfl | ⟨after', c, rfl⟩
  · obtain ⟨rfl, last⟩ := List.append_inj' h rfl
    exact .inl ⟨rfl, List.singleton_inj.mp last, rfl⟩
  · rw [List.concat_eq_append, ← List.cons_append, ← List.append_assoc] at h
    obtain ⟨rfl, last⟩ := List.append_inj' h rfl
    exact .inr ⟨after', by rw [List.concat_eq_append, List.singleton_inj.mp last], rfl⟩

/-- What holds at first and is kept by every allowed event holds of every run of allowed events. -/
theorem induction_of {step : σ → ε → σ} {P : List (Turn σ ε) → σ → Prop} {allowed : ε → Prop} {s : σ}
    (start : P [] s) (next : ∀ ts x e, P ts x → allowed e → P (ts ++ [⟨x, e, step x e⟩]) (step x e))
    (es : List ε) (hes : ∀ e ∈ es, allowed e) : P (turns step s es) (run step s es) := by
  induction es using List.reverseRecOn with
  | nil => exact start
  | append_singleton es e ih =>
    rw [run_append, turns_append]
    obtain ⟨before, last⟩ := List.forall_mem_append.mp hes
    exact next _ _ e (ih before) (last e (.head _))

/-- What holds at first and stays true from one event to the next holds of every run. -/
theorem induction {step : σ → ε → σ} {P : List (Turn σ ε) → σ → Prop} {s : σ} (start : P [] s)
    (next : ∀ ts x e, P ts x → P (ts ++ [⟨x, e, step x e⟩]) (step x e)) (es : List ε) :
    P (turns step s es) (run step s es) :=
  induction_of start (fun ts x e h _ => next ts x e h) es fun _ _ => trivial

/-- A turn of a run comes after a shorter run. -/
theorem turns_split {step : σ → ε → σ} {s : σ} {es : List ε} {before after : List (Turn σ ε)} {t : Turn σ ε}
    (h : turns step s es = before ++ t :: after) :
    ∃ es₁ es₂, before = turns step s es₁ ∧ t = ⟨run step s es₁, t.event, step (run step s es₁) t.event⟩ ∧
      after = turns step (run step s (es₁ ++ [t.event])) es₂ ∧ es = es₁ ++ t.event :: es₂ := by
  induction before generalizing s es with
  | nil =>
    cases es with
    | nil => exact absurd h nofun
    | cons e es =>
      obtain ⟨rfl, rfl⟩ := List.cons.inj h
      exact ⟨[], es, rfl, rfl, rfl, rfl⟩
  | cons _ _ ih =>
    cases es with
    | nil => exact absurd h nofun
    | cons e =>
      obtain ⟨rfl, rest⟩ := List.cons.inj h
      obtain ⟨es₁, es₂, rfl, ht, ha, rfl⟩ := ih rest
      exact ⟨e :: es₁, es₂, rfl, ht, ha, rfl⟩

end Runs

end Switchboard
