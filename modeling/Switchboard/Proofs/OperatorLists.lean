import Mathlib.Data.List.Induction
import Mathlib.Data.List.Nodup
import Switchboard.Permission.AllowList
import Switchboard.Permission.KnownClients
import Switchboard.Proofs.Origins

/-!
# What the operator configures

Two lists name clients by their origins or, if they are extensions, by bare identifiers: the description
of known clients and the administrator's allow-list. The first is read in no particular order, which
shows only in an extension that is described both ways. Of the second the last one that could be read
stays in force.
-/

namespace Switchboard

/-! ## Known clients -/

namespace KnownClients

open List

variable {es es' : List (String × KnownClient)} {origin : String}

section

variable (es : List (String × KnownClient))

theorem ofEntries_concat (e : String × KnownClient) :
    ofEntries (es ++ [e]) = (ofEntries es).insert e.1 e.2 := by
  rw [ofEntries, List.foldl_append]
  rfl

theorem find?_concat (e : String × KnownClient) (origin : String) : (ofEntries (es ++ [e])).find? origin =
      if origin = Origin.normalize e.1 then some e.2 else (ofEntries es).find? origin := by
  rw [ofEntries_concat, insert, find?, Assoc.lookup_set]
  simp only [beq_iff_eq]
  rfl

/-- Whatever the order, an answer is that of an entry which means the origin, and there is one if there
is such an entry. -/
theorem find?_spec (origin : String) : (∀ client, (ofEntries es).find? origin = some client →
      ∃ e ∈ es, Origin.normalize e.1 = origin ∧ e.2 = client) ∧
    ((ofEntries es).find? origin = none ↔ ∀ e ∈ es, Origin.normalize e.1 ≠ origin) := by
  induction es using List.reverseRecOn with
  | nil => exact ⟨nofun, fun _ => nofun, fun _ => rfl⟩
  | append_singleton es e ih =>
    rw [find?_concat]
    split
    · grind
    · next other =>
      refine ⟨fun client found => ?_, ?_⟩
      · obtain ⟨e', he', means⟩ := ih.1 client found
        exact ⟨e', List.mem_append_left _ he', means⟩
      · rw [ih.2, List.forall_mem_append, List.forall_mem_singleton, and_iff_left (Ne.symm other)]

end

/-- The entries that mean one origin say the same about it. -/
def Agree (es : List (String × KnownClient)) : Prop :=
  ∀ e ∈ es, ∀ e' ∈ es, Origin.normalize e.1 = Origin.normalize e'.1 → e.2 = e'.2

theorem Agree.find?_eq (agree : Agree es) (perm : es'.Perm es) (origin : String) :
    (ofEntries es').find? origin = (ofEntries es).find? origin := by
  obtain ⟨found, missing⟩ := find?_spec es origin
  obtain ⟨found', missing'⟩ := find?_spec es' origin
  cases h : (ofEntries es).find? origin with
  | none => exact missing'.mpr fun e he => missing.mp h e (perm.mem_iff.mp he)
  | some client =>
    obtain ⟨e, he, means, rfl⟩ := found client h
    cases h' : (ofEntries es').find? origin with
    | none => exact absurd means (missing'.mp h' e (perm.mem_iff.mpr he))
    | some client' =>
      obtain ⟨e', he', means', rfl⟩ := found' client' h'
      rw [agree e' (perm.mem_iff.mp he') e he (means'.trans means.symm)]

/-- Any entry can be the last one, and then it counts. -/
theorem exists_perm_find? {e : String × KnownClient} (he : e ∈ es) :
    ∃ es', es'.Perm es ∧ (ofEntries es').find? (Origin.normalize e.1) = some e.2 := by
  refine ⟨es.erase e ++ [e], ?_, ?_⟩
  · exact (List.perm_append_singleton e _).trans (List.perm_cons_erase he).symm
  · rw [find?_concat, if_pos rfl]

theorem agree_iff : Agree es ↔ ∀ es₁ es₂, es₁.Perm es → es₂.Perm es → ∀ origin,
    (ofEntries es₁).find? origin = (ofEntries es₂).find? origin := by
  constructor
  · intro agree es₁ es₂ h₁ h₂ origin
    rw [agree.find?_eq h₁, agree.find?_eq h₂]
  · intro same e he _ he' means
    obtain ⟨es₁, h₁, last⟩ := exists_perm_find? he
    obtain ⟨es₂, h₂, last'⟩ := exists_perm_find? he'
    have := same es₁ es₂ h₁ h₂ (Origin.normalize e.1)
    rw [last, means, last'] at this
    exact Option.some.inj this

/-- An extension is described under its bare identifier and otherwise under its origin. -/
def Contested (es : List (String × KnownClient)) : Prop :=
  ∃ id client client', Origin.isExtensionId id = true ∧ (id, client) ∈ es ∧
    (Origin.ofExtensionId id, client') ∈ es ∧ client ≠ client'

theorem agree_iff_not_contested (distinct : (es.map Prod.fst).Nodup) : Agree es ↔ ¬ Contested es := by
  constructor
  · rintro agree ⟨_, client, client', ext, he, he', other⟩
    refine other (agree _ he _ he' (Origin.normalize_eq_iff.mpr (.inr (.inl ⟨ext, rfl⟩))))
  · rintro fair ⟨a, client⟩ he ⟨b, client'⟩ he' means
    by_contra other
    rcases Origin.normalize_eq_iff.mp means with rfl | ⟨ext, rfl⟩ | ⟨ext, rfl⟩
    · exact other (Prod.mk.inj (List.inj_on_of_nodup_map distinct he he' rfl)).2
    · exact fair ⟨a, client, client', ext, he, he', other⟩
    · exact fair ⟨b, client', client, ext, he', he, Ne.symm other⟩

theorem keys_of_readEntries {fields : List (String × Json)} (h : readEntries fields = .ok es) :
    es.map Prod.fst = fields.map Prod.fst := by
  induction fields generalizing es with
  | nil =>
    cases h
    rfl
  | cons field fields ih =>
    unfold readEntries at h
    cases hc : KnownClient.ofJson field.2 with
    | error => simp [hc, bind, Except.bind] at h
    | ok _ =>
      cases hr : readEntries fields with
      | error => simp [hc, hr, bind, Except.bind] at h
      | ok _ =>
        simp only [hc, hr, bind, Except.bind, pure, Except.pure, Except.ok.injEq] at h
        subst h
        exact congrArg (field.1 :: ·) (ih hr)

/-- Of an object that is accepted, every order of the entries gives the same answers if and only if no
extension is described under its bare identifier and otherwise under its origin. In any order, a client
is known if an entry means it, and described as one of these entries says. -/
theorem answers_determined_iff {fields : List (String × Json)} {r : KnownClients}
    (distinct : (fields.map Prod.fst).Nodup) (accepted : ofJson (.obj fields) = .ok r) :
    ∃ es, readEntries fields = .ok es ∧ r = ofEntries es ∧
      ((∀ es₁ es₂, es₁.Perm es → es₂.Perm es → ∀ origin,
        (ofEntries es₁).find? origin = (ofEntries es₂).find? origin) ↔ ¬ Contested es) ∧
      ∀ es', es'.Perm es → ∀ origin,
        (∀ client, (ofEntries es').find? origin = some client →
          ∃ e ∈ es, Origin.normalize e.1 = origin ∧ e.2 = client) ∧
        ((ofEntries es').find? origin = none ↔ ∀ e ∈ es, Origin.normalize e.1 ≠ origin) := by
  cases hr : readEntries fields with
  | error => simp [ofJson, hr] at accepted
  | ok es =>
    refine ⟨es, rfl, ?_, ?_, fun es' perm origin => ?_⟩
    · simpa [ofJson, hr, eq_comm] using accepted
    · rw [← agree_iff, agree_iff_not_contested (keys_of_readEntries hr ▸ distinct)]
    · simpa only [perm.mem_iff] using find?_spec es' origin

/-- Two clients, each described once. -/
def unlike : List (String × Json) :=
  [("aaaaaaaaaaaaaaaaaaaaaaaaaaaaaaaa", .arr [.str "A", .bool true]), ("https://b.example", .arr [.str "B"])]

theorem answers_determined_iff_unlike : ∃ es, readEntries unlike = .ok es ∧ es.reverse ≠ es ∧
    ∀ es', es'.Perm es →
      (ofEntries es').find? (Origin.ofExtensionId "aaaaaaaaaaaaaaaaaaaaaaaaaaaaaaaa") = some ⟨"A", true⟩ ∧
      (ofEntries es').find? "https://b.example" = some ⟨"B", false⟩ ∧
      (ofEntries es').find? "https://c.example" = none := by
  obtain ⟨es, read, -, same, known⟩ := @answers_determined_iff unlike _ (by decide) rfl
  cases read
  have fair : ¬ Contested [("aaaaaaaaaaaaaaaaaaaaaaaaaaaaaaaa", ⟨"A", true⟩), ("https://b.example", ⟨"B", false⟩)] := by
    rintro ⟨_, _, _, ext, he, he', -⟩
    simp only [List.mem_cons, Prod.mk.injEq, List.not_mem_nil, or_false] at he he'
    obtain ⟨rfl, -⟩ | ⟨rfl, -⟩ := he
    · exact absurd (he'.imp And.left And.left) (by decide +kernel)
    · exact absurd ext (by decide +kernel)
  refine ⟨_, rfl, by decide, fun es' perm => ⟨?_, ?_, (known es' perm _).2.mpr (by decide +kernel)⟩⟩
  · rw [same.mpr fair es' _ perm (.refl _)]
    decide +kernel
  · rw [same.mpr fair es' _ perm (.refl _)]
    decide +kernel

/-- An extension under its bare identifier and, differently, under its origin. -/
def twofold : List (String × Json) :=
  [("aaaaaaaaaaaaaaaaaaaaaaaaaaaaaaaa", .arr [.str "A", .bool true]),
    ("chrome-extension://aaaaaaaaaaaaaaaaaaaaaaaaaaaaaaaa", .arr [.str "B"])]

theorem twofold_answers_differ : ∃ es, readEntries twofold = .ok es ∧ es.reverse.Perm es ∧
    (ofEntries es).find? (Origin.ofExtensionId "aaaaaaaaaaaaaaaaaaaaaaaaaaaaaaaa") = some ⟨"B", false⟩ ∧
    (ofEntries es.reverse).find? (Origin.ofExtensionId "aaaaaaaaaaaaaaaaaaaaaaaaaaaaaaaa") =
      some ⟨"A", true⟩ :=
  ⟨_, rfl, List.reverse_perm _, by decide +kernel, by decide +kernel⟩

end KnownClients

/-! ## The allow-list -/

namespace AllowList

theorem mem_insertOrigin {origin o : String} {origins : List String} :
    o ∈ insertOrigin origin origins ↔ o = origin ∨ o ∈ origins := by
  induction origins with
  | nil => simp [insertOrigin]
  | cons =>
    unfold insertOrigin
    grind

theorem sorted_insertOrigin (origin : String) {origins : List String} (h : origins.Pairwise (· < ·)) :
    (insertOrigin origin origins).Pairwise (· < ·) := by
  induction origins with
  | nil => exact List.pairwise_singleton ..
  | cons o _ ih =>
    obtain ⟨first, later⟩ := List.pairwise_cons.mp h
    unfold insertOrigin
    split
    · next before =>
      refine List.pairwise_cons.mpr ⟨fun o' ho' => ?_, h⟩
      rcases List.mem_cons.mp ho' with rfl | ho'
      · exact before
      · exact before.trans (first o' ho')
    · next notBefore =>
      split
      · exact h
      · next other =>
        refine List.pairwise_cons.mpr ⟨fun o' ho' => ?_, ih later⟩
        rcases mem_insertOrigin.mp ho' with rfl | ho'
        · exact (lt_trichotomy o' o).resolve_left notBefore |>.resolve_left other
        · exact first o' ho'

/-- The list holds just the origins that the identifiers mean. -/
structure Holds (l : AllowList) (identifiers : List String) : Prop where
  loaded : ∃ origins, l = .loaded origins ∧ origins.Pairwise (· < ·)
  mem : ∀ origin, l.contains origin = true ↔ ∃ i ∈ identifiers, Origin.normalize i = origin

theorem holds_ofIdentifiers (identifiers : List String) : (ofIdentifiers identifiers).Holds identifiers := by
  suffices ∀ origins : List String, origins = identifiers.foldl
      (fun acc i => insertOrigin (Origin.normalize i) acc) [] → origins.Pairwise (· < ·) ∧
      ∀ o, o ∈ origins ↔ ∃ i ∈ identifiers, Origin.normalize i = o by
    obtain ⟨sorted, mem⟩ := this _ rfl
    exact ⟨⟨_, rfl, sorted⟩, fun o => List.contains_iff_mem.trans (mem o)⟩
  rintro _ rfl
  induction identifiers using List.reverseRecOn with
  | nil => simp
  | append_singleton _ i ih =>
    rw [List.foldl_append]
    refine ⟨sorted_insertOrigin _ ih.1, fun o => ?_⟩
    rw [List.foldl_cons, List.foldl_nil, mem_insertOrigin, ih.2]
    grind

/-- What can be done to the list. -/
inductive Change where
  | assign (identifiers : List String)
  | loadJson (value : Json)
  | loadFile (content : Except Fault String)
  | giveUp

namespace Change

def apply (l : AllowList) : Change → AllowList × Except Fault Unit
  | .assign identifiers => (ofIdentifiers identifiers, .ok ())
  | .loadJson value => l.loadJson value
  | .loadFile content => l.loadFile content
  | .giveUp => (l.markUnavailable, .ok ())

/-- The change brings a list: it is given, or what is to be read is a JSON array of strings. -/
def Supplies (ids : List String) : Change → Prop
  | .assign given => given = ids
  | .loadJson v => v = .arr (ids.map .str)
  | .loadFile content => ∃ text, content = .ok text ∧ Json.parse text = .ok (.arr (ids.map .str))
  | .giveUp => False

/-- A change that, if it brings no list, tells that there may be none. -/
def warns : Change → Bool
  | .loadFile _ | .giveUp => true
  | _ => false

end Change

theorem strings?_eq_some_iff {items : List Json} {ids : List String} :
    strings? items = some ids ↔ items = ids.map .str := by
  induction items generalizing ids with
  | nil => cases ids <;> simp [strings?]
  | cons item items ih =>
    cases item with
    | str _ => cases ids <;> simp [strings?, ih, and_comm]
    | _ => cases ids <;> simp [strings?]

theorem ofJson_eq_ok {v : Json} {l : AllowList} :
    ofJson v = .ok l ↔ ∃ ids : List String, v = .arr (ids.map .str) ∧ l = ofIdentifiers ids := by
  cases v with
  | arr items =>
    have strings := @strings?_eq_some_iff items
    unfold ofJson
    cases h : strings? items <;> grind
  | _ => simp [ofJson]

theorem ofFile_eq_ok {content : Except Fault String} {l : AllowList} : ofFile content = .ok l ↔
    ∃ ids : List String, (Change.loadFile content).Supplies ids ∧ l = ofIdentifiers ids := by
  unfold ofFile Change.Supplies
  split
  · simp
  · split
    · next h => simp [h]
    · next h => simp [h, ofJson_eq_ok]

/-- What a change does: it puts a list in force, or fails to. -/
theorem Change.apply_cases (c : Change) (l : AllowList) :
    (∃ ids, c.Supplies ids ∧ c.apply l = (ofIdentifiers ids, .ok ())) ∨
    (∀ ids, ¬ c.Supplies ids) ∧ (c.apply l).1 = (if c.warns then l.markUnavailable else l) ∧
      ((∃ e, (c.apply l).2 = .error e) ↔ c ≠ .giveUp) := by
  cases c with
  | assign ids => exact .inl ⟨ids, rfl, rfl⟩
  | giveUp => exact .inr ⟨fun _ => id, rfl, nofun, fun h => absurd rfl h⟩
  | loadJson v =>
    cases h : ofJson v with
    | ok new =>
      obtain ⟨ids, hv, rfl⟩ := ofJson_eq_ok.mp h
      exact .inl ⟨ids, hv, by simp [apply, AllowList.loadJson, h]⟩
    | error e =>
      refine .inr ⟨fun ids hv => ?_, ?_⟩
      · cases h.symm.trans (ofJson_eq_ok.mpr ⟨ids, hv, rfl⟩)
      · simp [apply, AllowList.loadJson, h, warns]
  | loadFile content =>
    cases h : ofFile content with
    | ok new =>
      obtain ⟨ids, hc, rfl⟩ := ofFile_eq_ok.mp h
      exact .inl ⟨ids, hc, by simp [apply, AllowList.loadFile, h]⟩
    | error e =>
      refine .inr ⟨fun ids hc => ?_, ?_⟩
      · cases h.symm.trans (ofFile_eq_ok.mpr ⟨ids, hc, rfl⟩)
      · simp [apply, AllowList.loadFile, h, warns]

theorem Change.Supplies.unique {c : Change} {ids ids' : List String} (h : c.Supplies ids)
    (h' : c.Supplies ids') : ids' = ids := by
  have strings : ids'.map Json.str = ids.map Json.str → ids' = ids :=
    fun same => List.map_injective_iff.mpr (fun _ _ => Json.str.inj) same
  cases c <;> grind [Supplies]

def after (changes : List Change) : AllowList := changes.foldl (fun l c => (c.apply l).1) .loading

theorem after_concat (changes : List Change) (c : Change) : after (changes ++ [c]) = (c.apply (after changes)).1 := by
  rw [after, List.foldl_append]
  rfl

theorem after_of_none {changes : List Change} (none : ∀ c ∈ changes, ∀ ids, ¬ c.Supplies ids) :
    after changes = if changes.any Change.warns then .unavailable else .loading := by
  induction changes using List.reverseRecOn with
  | nil => rfl
  | append_singleton changes c ih =>
    have before := ih fun c' hc' => none c' (List.mem_append_left _ hc')
    rcases c.apply_cases (after changes) with ⟨ids, supplies, -⟩ | ⟨-, kept, -⟩
    · exact absurd supplies (none c (List.mem_append_right _ (.head _)) ids)
    · rw [after_concat, kept, before]
      cases h : changes.any Change.warns <;> cases hc : c.warns <;> simp [h, hc, markUnavailable]

theorem after_of_last {earlier later : List Change} {c : Change} {ids : List String} (supplies : c.Supplies ids)
    (none : ∀ c' ∈ later, ∀ ids, ¬ c'.Supplies ids) : (after (earlier ++ c :: later)).Holds ids := by
  induction later using List.reverseRecOn with
  | nil =>
    rw [after_concat]
    rcases c.apply_cases (after earlier) with ⟨_, supplies', h⟩ | ⟨never, -⟩
    · rw [h, supplies.unique supplies']
      exact holds_ofIdentifiers ids
    · exact absurd supplies (never ids)
  | append_singleton later c' ih =>
    have before := ih fun c' hc' => none c' (List.mem_append_left _ hc')
    rw [← List.cons_append, ← List.append_assoc, after_concat]
    rcases c'.apply_cases (after (earlier ++ c :: later)) with ⟨ids, supplies, -⟩ | ⟨-, kept, -⟩
    · exact absurd supplies (none c' (List.mem_append_right _ (.head _)) ids)
    · obtain ⟨_, loaded, -⟩ := before.loaded
      rw [kept, loaded, markUnavailable, ite_self, ← loaded]
      · exact before
      · nofun

/-- After any changes, the origins in force are those of the last list that could be read. If there was
none, the list is unavailable if a file could not be read or there was word that there is none. A load
fails if and only if what is to be read is no JSON array of strings, and then leaves a list in force as
it is. -/
theorem last_good_list_stays (changes : List Change) :
    (∀ earlier c ids later, changes = earlier ++ c :: later → c.Supplies ids →
      (∀ c' ∈ later, ∀ ids', ¬ c'.Supplies ids') → (after changes).Holds ids) ∧
    ((∀ c ∈ changes, ∀ ids, ¬ c.Supplies ids) →
      after changes = if changes.any Change.warns then .unavailable else .loading) ∧
    ∀ c : Change, ((∃ e, (c.apply (after changes)).2 = .error e) ↔ c ≠ .giveUp ∧ ∀ ids, ¬ c.Supplies ids) ∧
      ((∀ ids, ¬ c.Supplies ids) → ∀ origins, after changes = .loaded origins →
        after (changes ++ [c]) = .loaded origins) := by
  refine ⟨?_, after_of_none, fun c => ?_⟩
  · rintro earlier c ids later rfl supplies none
    exact after_of_last supplies none
  · rw [after_concat]
    rcases c.apply_cases (after changes) with ⟨ids, supplies, h⟩ | ⟨none, kept, fails⟩
    · rw [h]
      exact ⟨⟨nofun, fun failed => absurd supplies (failed.2 ids)⟩, fun never => absurd supplies (never ids)⟩
    · refine ⟨fails.trans ⟨fun load => ⟨load, none⟩, And.left⟩, fun _ origins loaded => ?_⟩
      rw [kept, loaded, markUnavailable, ite_self]
      nofun

end AllowList

end Switchboard
