import Switchboard.Proofs.Effects

/-!
# The futures of jobs

A job is a script. Its future is begun when it is first looked at: it is there at once, or waits for a time or
for a token. `Yields` says what a script can come to, `Pursues` which futures its future is or becomes. Looking
at such a future gives what the script comes to, or another such future.
-/

namespace Switchboard

open World

/-- What a promise was settled with. -/
def outcomeIn (ps : Table Promise) (p : Nat) : Option Outcome := (ps.get? p).bind Promise.outcome

section

variable {ps ps' : Table Promise} {p : Nat}

theorem outcomeIn_congr (h : ps'.get? p = ps.get? p) : outcomeIn ps' p = outcomeIn ps p := by
  rw [outcomeIn, h, outcomeIn]

theorem outcomeIn_of_get? {c : Promise} (h : ps.get? p = some c) : outcomeIn ps p = c.outcome := by
  rw [outcomeIn, h, Option.bind_some]

end

namespace Script

variable {finished finished' : List (String × Outcome)}

/-- What the future of a script can come to. A script that waits for a token comes to what the token was
finished with. -/
def Yields (finished : List (String × Outcome)) : Script → Outcome → Prop
  | .fail e, o => o = .error e
  | .reply v, o => o = .ok v
  | .echo v, o => o = .ok (.object [("echo", v)])
  | .sleep ms, o => o = .ok (.obj [("slept", .ofNat ms)])
  | .wait token, o => (token, o) ∈ finished

theorem Yields.mono {s : Script} {o : Outcome} (h : s.Yields finished o) (more : finished ⊆ finished') :
    s.Yields finished' o := by
  cases s with
  | wait => exact more h
  | _ => exact h

/-- What the future of a script is, or becomes: a time to wait for, or a promise that is nobody else's and is
kept when the token is finished. -/
inductive Pursues (taken : List Nat) (finished : List (String × Outcome)) (ps : Table Promise)
    (wt : List (String × Nat)) : Script → Future → Prop
  | fresh {s} : Pursues taken finished ps wt s (.job s)
  | asleep {wake ms} : Pursues taken finished ps wt (.sleep ms) (.sleep wake ms)
  | pending {token q} (small : q < ps.size) (other : q ∉ taken)
      (own : ∀ token', (token', q) ∈ wt → token' = token)
      (waits : outcomeIn ps q = none → (token, q) ∈ wt)
      (kept : ∀ o, outcomeIn ps q = some o → (token, o) ∈ finished) :
      Pursues taken finished ps wt (.wait token) (.promise q)

variable {taken taken' : List Nat} {ps ps' : Table Promise} {wt wt' : List (String × Nat)} {s : Script} {f : Future}

theorem Pursues.mono (h : s.Pursues taken finished ps wt f) (others : ∀ q < ps.size, q ∈ taken' → q ∈ taken)
    (larger : ps.size ≤ ps'.size) (waiting : ∀ q < ps.size, ∀ token, (token, q) ∈ wt' ↔ (token, q) ∈ wt)
    (same : ∀ q < ps.size, q ∉ taken → outcomeIn ps' q = outcomeIn ps q) : s.Pursues taken' finished ps' wt' f := by
  cases h with
  | fresh => exact .fresh
  | asleep => exact .asleep
  | pending small other own waits kept =>
    have same := same _ small other
    exact .pending (Nat.lt_of_lt_of_le small larger) (fun mem => other (others _ small mem))
      (fun token' mem => own token' ((waiting _ small _).mp mem))
      (fun none => (waiting _ small _).mpr (waits (same ▸ none))) fun o ho => kept o (same ▸ ho)

/-- A token is finished: the promises that wait for it are kept. -/
theorem Pursues.finish (h : s.Pursues taken finished ps wt f) {token : String} {o : Outcome}
    (size : ps'.size = ps.size)
    (mine : ∀ q, (token, q) ∈ wt → q < ps.size → outcomeIn ps' q = (outcomeIn ps q).or (some o))
    (others : ∀ q, (token, q) ∉ wt → ps'.get? q = ps.get? q) :
    s.Pursues taken (finished ++ [(token, o)]) ps' (wt.filter fun f => f.1 != token) f := by
  cases h with
  | fresh => exact .fresh
  | asleep => exact .asleep
  | @pending token' q small other own waits kept =>
    have own' : ∀ t, (t, q) ∈ wt.filter (fun f => f.1 != token) → t = token' := fun t mem =>
      own t (List.mem_filter.mp mem).1
    by_cases waited : (token, q) ∈ wt
    · obtain rfl := own token waited
      refine .pending (size ▸ small) other own' (fun none => ?_) fun o' ho => ?_
      · rw [mine q waited small] at none
        simp at none
      · rw [mine q waited small] at ho
        cases was : outcomeIn ps q with
        | none =>
          rw [was] at ho
          exact List.mem_append_right _ (Option.some.inj ho ▸ .head _)
        | some =>
          rw [was] at ho
          exact List.mem_append_left _ (kept o' (was.trans ho))
    · have same : outcomeIn ps' q = outcomeIn ps q := outcomeIn_congr (others q waited)
      refine .pending (size ▸ small) other own' (fun none => List.mem_filter.mpr ⟨waits (same ▸ none), ?_⟩)
        fun o' ho => List.mem_append_left _ (kept o' (same ▸ ho))
      exact bne_iff_ne.mpr fun is => waited (is ▸ waits (same ▸ none))

end Script

namespace World

/-- What finishing a token does. -/
theorem finishToken_spec (token : String) (o : Outcome) (w : World) :
    ∃ ps q, (w.finishToken token o).1 =
        { w with promises := ps, waiting := w.waiting.filter fun f => f.1 != token, queue := q } ∧
      ps.size = w.promises.size ∧
      (∀ q, (token, q) ∈ w.waiting → q < w.promises.size →
        outcomeIn ps q = (outcomeIn w.promises q).or (some o)) ∧
      ∀ q, (token, q) ∉ w.waiting → ps.get? q = w.promises.get? q := by
  have pruned : (Bool.not ∘ fun f : String × Nat => f.1 == token) = fun f => f.1 != token := rfl
  rw [World.finishToken, List.partition_eq_filter_filter, pruned]
  dsimp only
  split
  · next none =>
    have absent : ∀ q, (token, q) ∉ w.waiting := fun q mem => by
      rw [List.isEmpty_iff, List.filter_eq_nil_iff] at none
      exact none _ mem (beq_self_eq_true token)
    have same : w.waiting.filter (fun f => f.1 != token) = w.waiting :=
      List.filter_eq_self.mpr fun f mem => bne_iff_ne.mpr fun is => absent f.2 (is ▸ mem)
    rw [same]
    exact ⟨w.promises, w.queue, rfl, rfl, fun q mem => absurd mem (absent q), fun _ _ => rfl⟩
  · obtain ⟨queue, heq⟩ := resolveAll_eq ((w.waiting.filter fun f => f.1 == token).map Prod.snd) o
      { w with waiting := w.waiting.filter fun f => f.1 != token }
    have kept : ∀ q, (w.promises.modifyAll ((w.waiting.filter fun f => f.1 == token).map Prod.snd)
        (Promise.keep o)).get? q = if (token, q) ∈ w.waiting then (w.promises.get? q).map (Promise.keep o)
          else w.promises.get? q := fun q => by
      rw [Table.get?_modifyAll fun _ => Promise.keep_of_outcome rfl]
      simp
    rw [World.done, heq]
    refine ⟨_, queue, rfl, Table.size_modifyAll .., fun q mem small => ?_, fun q other => (kept q).trans (if_neg other)⟩
    obtain ⟨c, hc⟩ := Table.get?_isSome_of_lt small
    rw [outcomeIn, kept, if_pos mem, outcomeIn, hc, Option.map_some, Option.bind_some, Option.bind_some, Promise.keep]
    cases c.outcome <;> rfl

/-- Looking at the future of a script. -/
theorem look_pursues {taken : List Nat} {finished : List (String × Outcome)} {s : Script} {f : Future} {w : World}
    (h : s.Pursues taken finished w.promises w.waiting f) (small : ∀ p ∈ taken, p < w.promises.size)
    (asked : ∀ e ∈ w.waiting, e.2 < w.promises.size) :
    (∃ f' r, w.look f = (w, f', some r) ∧ s.Yields finished (outcomeOf r)) ∨
      ∃ f' ps wt, w.look f = ({ w with promises := ps, waiting := wt }, f', none) ∧
        s.Pursues taken finished ps wt f' ∧
        (ps = w.promises ∧ wt = w.waiting ∨
          ∃ c token, ps = w.promises.push c ∧ wt = w.waiting ++ [(token, w.promises.size)]) := by
  have asleep : ∀ wake ms, (∃ f' r, w.look (.sleep wake ms) = (w, f', some r) ∧
      (Script.sleep ms).Yields finished (outcomeOf r)) ∨
      w.look (.sleep wake ms) = (w, .sleep wake ms, none) := by
    intro wake ms
    have looked : w.look (.sleep wake ms) = (w, .sleep wake ms,
        if wake ≤ w.clock then some (.outcome (.ok (.obj [("slept", .ofNat ms)]))) else none) := rfl
    rw [looked]
    split
    · exact .inl ⟨_, _, rfl, rfl⟩
    · exact .inr rfl
  cases h with
  | asleep => exact (asleep _ _).imp_right fun none => ⟨_, _, _, none, .asleep, .inl ⟨rfl, rfl⟩⟩
  | @pending _ q small' other own waits kept =>
    have looked : w.look (.promise q) = (w, .promise q, (outcomeIn w.promises q).map Settled.outcome) := rfl
    rw [looked]
    cases there : outcomeIn w.promises q with
    | none => exact .inr ⟨_, _, _, rfl, .pending small' other own waits kept, .inl ⟨rfl, rfl⟩⟩
    | some o => exact .inl ⟨_, _, rfl, kept o there⟩
  | fresh =>
    cases s with
    | sleep ms => exact (asleep (w.clock + ms) ms).imp_right fun none => ⟨_, _, _, none, .asleep, .inl ⟨rfl, rfl⟩⟩
    | wait token =>
      have last : (w.promises.push { fallback := .error (.other "abandoned") }).get? w.promises.size = some _ :=
        Table.get?_push_size ..
      refine .inr ⟨.promise w.promises.size, w.promises.push { fallback := .error (.other "abandoned") },
        w.waiting ++ [(token, w.promises.size)], ?_, .pending ?_ (fun mem => Nat.lt_irrefl _ (small _ mem)) ?_ ?_ ?_,
        .inr ⟨_, _, rfl, rfl⟩⟩
      · simp [look, beginJob, World.begin, lookAt, World.promise]
      · rw [Table.size_push]
        exact Nat.lt_succ_self _
      · intro token' mem
        rcases List.mem_append.mp mem with mem | mem
        · exact absurd (asked _ mem) (Nat.lt_irrefl _)
        · exact congrArg Prod.fst (List.mem_singleton.mp mem)
      · exact fun _ => List.mem_append_right _ (.head _)
      · intro o ho
        rw [outcomeIn, last] at ho
        cases ho
    | _ => exact .inl ⟨_, _, rfl, rfl⟩

end World

end Switchboard
