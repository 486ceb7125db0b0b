import Switchboard.Proofs.Effects
import Switchboard.World.Run

/-!
# Who is awake

Waking only adds tasks to the queue. After a promise was kept, everybody who waits for it is in the queue,
and after time has passed everybody whose time has come.
-/

namespace Switchboard

theorem Table.mem_entries {α : Type} {t : Table α} {i : Nat} {a : α} :
    (i, a) ∈ t.entries ↔ t.get? i = some a := by
  simp only [Table.entries, Table.get?, List.mem_map, Prod.exists, List.mem_zipIdx_iff_getElem?,
    Array.getElem?_toList]
  grind

namespace World

theorem schedule_spec (t : Nat) (w : World) :
    ∃ q, w.schedule t = { w with queue := q } ∧ w.queue ⊆ q ∧ t ∈ q := by
  unfold schedule
  split
  · next there => exact ⟨w.queue, rfl, List.Subset.refl _, List.contains_iff_mem.mp there⟩
  · exact ⟨_, rfl, List.subset_append_left _ _, List.mem_append_right _ (.head _)⟩

/-- Waking adds tasks to the queue, and all that wait for the source are in it then. -/
theorem wake_spec (s : Source) (w : World) :
    ∃ q, w.wake s = { w with queue := q } ∧ w.queue ⊆ q ∧
      ∀ t task, (t, task) ∈ w.tasks.entries → w.taskSource task = some s → t ∈ q := by
  unfold wake
  suffices ∀ (l : List (Nat × Task)) (old : List Nat), ∃ q,
      l.foldl (fun acc t => if w.taskSource t.2 = some s then acc.schedule t.1 else acc)
        { w with queue := old } = { w with queue := q } ∧ old ⊆ q ∧
      ∀ t task, (t, task) ∈ l → w.taskSource task = some s → t ∈ q from this _ w.queue
  intro l
  induction l with
  | nil => exact fun old => ⟨old, rfl, List.Subset.refl _, nofun⟩
  | cons e l ih =>
    intro old
    rw [List.foldl_cons]
    by_cases waits : w.taskSource e.2 = some s
    · obtain ⟨new, _, _, _⟩ := schedule_spec e.1 { w with queue := old }
      obtain ⟨q, hq, more, woken⟩ := ih new
      grind
    · obtain ⟨q, hq, more, woken⟩ := ih old
      rw [if_neg waits]
      grind

theorem foldl_schedule_spec (due : List (Nat × Nat)) (w : World) :
    ∃ q, due.foldl (fun acc t => acc.schedule t.2) w = { w with queue := q } ∧ w.queue ⊆ q ∧
      ∀ t ∈ due, t.2 ∈ q := by
  induction due generalizing w with
  | nil => exact ⟨w.queue, rfl, List.Subset.refl _, nofun⟩
  | cons t _ ih =>
    obtain ⟨q, _, _, _⟩ := schedule_spec t.2 w
    obtain ⟨_, _, _, _⟩ := ih { w with queue := q }
    grind

/-- After time has passed, those whose time has come are awake. -/
theorem wakeDue_spec (time : Nat) (w : World) :
    ∃ q, w.wakeDue time = { w with clock := time, queue := q } ∧ w.queue ⊆ q ∧
      ∀ t task wake, w.tasks.get? t = some task → w.dueTime task = some wake → wake ≤ time → t ∈ q := by
  obtain ⟨q, heq, more, all⟩ := foldl_schedule_spec
    ((w.timers.filter fun t => t.1 ≤ time).mergeSort fun a b => a.1 ≤ b.1) { w with clock := time }
  refine ⟨q, heq, more, fun t task wake ht hw early => all (wake, t) ?_⟩
  refine List.mem_mergeSort.mpr (List.mem_filter.mpr ⟨?_, by simpa using early⟩)
  exact List.mem_filterMap.mpr ⟨(t, task), Table.mem_entries.mpr ht, by rw [hw]; rfl⟩

end World

end Switchboard
