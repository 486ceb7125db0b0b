import Mathlib.Data.List.Basic
import Mathlib.Data.List.Induction
import Switchboard.Proofs.Framing
import Switchboard.Proofs.Origins
import Switchboard.Proofs.Parsed

/-!
# Stored grants

A grant that was added to a file of decisions is there when the file is read again, and what the file
said of other origins stays. Reading gives an extension's bare identifier its origin, and the later
of two fields counts; so a file that denies an extension under its bare identifier still does after a
grant to its origin.
-/

namespace Switchboard

/-! ## Putting a file in place -/

namespace FileTree

def Keeps (t u : FileTree) : Prop := u.here = t.here ∧
  ∀ place, t.node? place = some .directory → u.node? place = some .directory

variable {t u : FileTree}

theorem Keeps.trans {v : FileTree} (h : t.Keeps u) (h' : u.Keeps v) : t.Keeps v :=
  ⟨h'.1.trans h.1, fun place dir => h'.2 place (h.2 place dir)⟩

/-- A way that leads somewhere still leads there when no directory is lost. -/
theorem Keeps.locateFrom (h : t.Keeps u) {parts : List String} :
    ∀ {here place : Place}, t.locateFrom here parts = .ok place → u.locateFrom here parts = .ok place := by
  induction parts with
  | nil => exact fun found => found
  | cons _ _ ih =>
    intro here place found
    unfold FileTree.locateFrom at found ⊢
    split at found
    · cases found
    · cases found
    · next dir =>
      rw [h.2 here dir]
      split_ifs at found ⊢
      · exact ih found
      · exact ih found
      · exact ih found

theorem Keeps.start (h : t.Keeps u) (path : String) : u.start path = t.start path := by
  unfold FileTree.start
  rw [h.1]

variable {path : String}

theorem Keeps.spot (h : t.Keeps u) {spot : Spot} (found : t.spot path = .ok spot) : u.spot path = .ok spot := by
  unfold FileTree.spot at found ⊢
  rw [h.start]
  split at found
  · cases found
  · grind [h.locateFrom]

variable {place : Place}

theorem node?_setNode (t : FileTree) (h : place ≠ []) (node : FileNode) (other : Place) :
    (t.setNode place node).node? other = if other == place then some node else t.node? other := by
  unfold node? setNode
  split
  · rw [if_neg (by simpa using Ne.symm h)]
  · rw [Assoc.lookup_set]

theorem keeps_setNode (inside : place ≠ [])
    (h : t.node? place ≠ some .directory) (node : FileNode) : t.Keeps (t.setNode place node) := by
  refine ⟨rfl, fun _ dir => ?_⟩
  rw [node?_setNode t inside, if_neg]
  · exact dir
  · intro eq
    rw [eq_of_beq eq] at dir
    exact h dir

theorem node?_erase (t : FileTree) (h : place ≠ []) (other : Place) :
    FileTree.node? { t with nodes := Assoc.erase place t.nodes } other =
      if other == place then none else t.node? other := by
  unfold node?
  split
  · rw [if_neg (by simpa using Ne.symm h)]
  · rw [Assoc.lookup_erase]

theorem keeps_erase (inside : place ≠ [])
    (h : t.node? place ≠ some .directory) : t.Keeps { t with nodes := Assoc.erase place t.nodes } := by
  refine ⟨rfl, fun _ dir => ?_⟩
  rw [node?_erase t inside, if_neg]
  · exact dir
  · intro eq
    rw [eq_of_beq eq] at dir
    exact h dir

theorem spot_ne_nil {slash : Bool} (h : t.spot path = .ok (.at place slash)) : place ≠ [] := by
  unfold spot at h
  split at h
  · cases h
  · split at h
    · cases h
    · split at h
      · cases h
      · split at h
        · cases h
        · cases h
          simp

theorem locateFrom_append {way : List String} :
    ∀ {here above : Place}, t.locateFrom here (way ++ ["."]) = .ok above →
      t.node? above = some .directory ∧
        ∀ rest, t.locateFrom here (way ++ rest) = t.locateFrom above rest := by
  induction way with
  | nil =>
    intro here above found
    rw [List.nil_append, locateFrom] at found
    split at found
    · cases found
    · cases found
    · next dir =>
      cases found
      exact ⟨dir, fun _ => rfl⟩
  | cons part way ih =>
    intro here above found
    rw [List.cons_append, locateFrom] at found
    split at found
    · cases found
    · cases found
    · next dir =>
      have step : ∀ rest, t.locateFrom here (part :: way ++ rest) =
          if part == "." then t.locateFrom here (way ++ rest)
          else if part == ".." then t.locateFrom here.dropLast (way ++ rest)
          else if maxName < part.utf8ByteSize then .error .tooLong
          else t.locateFrom (here ++ [part]) (way ++ rest) := by
        intro rest
        rw [List.cons_append, locateFrom, dir]
      simp only [step]
      split_ifs at found ⊢
      · exact ih found
      · exact ih found
      · exact ih found

theorem locate_of_spot (h : t.spot path = .ok (.at place false)) (short : isTooLong place = false) :
    t.locate path = .ok place := by
  unfold spot at h
  cases sound : flaw? path with
  | some => simp [sound] at h
  | none =>
    simp only [sound] at h
    split at h
    · cases h
    · next last final =>
      split at h
      · cases h
      · next _ way =>
        split at h
        · cases h
        · next named =>
          obtain ⟨dir, onward⟩ := locateFrom_append way
          injection h with h
          injection h with eq slash
          subst eq
          have fits : ¬ maxName < last.utf8ByteSize := by simpa [isTooLong] using short
          have parts : Path.parts path = (Path.parts path).dropLast ++ [last] :=
            (List.dropLast_append_getLast? last final).symm
          simp only [locate, sound, slash, Bool.false_eq_true, if_false]
          rw [parts, onward, locateFrom, dir]
          simp only [Bool.or_eq_true, not_or, Bool.not_eq_true] at named
          simp only [named.1, named.2, Bool.false_eq_true, if_false, if_neg fits, locateFrom]

theorem find_of_moved {t₁ t₂ : FileTree} {temporary : String} {content : ByteArray}
    (wrote : t.write temporary content = .ok t₁) (moved : t₁.rename temporary path = .ok t₂) :
    t₂.find path = .ok (.file content) := by
  -- The place of the temporary file, which stays where it is when the file is written.
  obtain ⟨source, spot, free, rfl⟩ : ∃ source, t.spot temporary = .ok (.at source false) ∧
      t.node? source ≠ some .directory ∧ t₁ = t.setNode source (.file content) := by
    unfold write at wrote
    split at wrote
    · cases wrote
    · cases wrote
    · cases wrote
    · grind
  have inside := spot_ne_nil spot
  have there := (keeps_setNode inside free (.file content)).spot spot
  have written := node?_setNode t inside (.file content) source
  rw [if_pos (beq_self_eq_true source)] at written
  generalize t.setNode source (.file content) = t₁ at *
  cases aim : t₁.spot path with
  | error => simp [rename, there, aim] at moved
  | ok spot' =>
    rcases spot' with _ | ⟨target, _⟩
    · simp [rename, there, aim] at moved
    · simp only [rename, there, aim, written, Bool.false_or] at moved
      split_ifs at moved with _ short plain
      split at moved
      · cases moved
      · next free' =>
        obtain rfl := Except.ok.inj moved
        have inside' := spot_ne_nil aim
        have erased := keeps_erase inside (t := t₁) (by rw [written]; simp)
        have aside : FileTree.node? { t₁ with nodes := Assoc.erase source t₁.nodes } target ≠
            some .directory := by
          rw [node?_erase t₁ inside]
          split
          · simp
          · exact free'
        -- Only files were touched, so the way to the target is still there.
        have way := (erased.trans (keeps_setNode inside' aside (.file content))).spot aim
        rw [Bool.not_eq_true] at short plain
        rw [plain] at way
        rw [find, locate_of_spot way short]
        simp only
        rw [node?_setNode _ inside', if_pos (beq_self_eq_true target)]

end FileTree

/-! ## Fields -/

namespace Json

theorem asBool?_reread (v : Json) : asBool? v.reread = asBool? v := by
  cases v with
  | float =>
    rw [reread]
    split <;> rfl
  | _ => rfl

variable {fs : List (String × Json)}

theorem setField_split (h : inOrder fs) (key : String) (v : Json) :
    ∃ before after, setField key v fs = before ++ (key, v) :: after ∧ (∀ f ∈ after, key < f.1) ∧
      ∀ f, f.1 ≠ key → (f ∈ fs ↔ f ∈ before ∨ f ∈ after) := by
  induction fs with
  | nil => exact ⟨[], [], rfl, by simp, by simp⟩
  | cons g fs ih =>
    obtain ⟨first, rest⟩ := List.pairwise_cons.mp h
    unfold setField
    split
    · next less =>
      refine ⟨[], g :: fs, rfl, fun f hf => ?_, by simp⟩
      rcases List.mem_cons.mp hf with rfl | hf
      · exact less
      · exact String.lt_trans less (first f hf)
    · split
      · next eq =>
        subst eq
        refine ⟨[], fs, rfl, first, fun f hf => ?_⟩
        have other : f ≠ g := fun eq => hf (congrArg Prod.fst eq)
        simp [other]
      · obtain ⟨before, after, eq, greater, mem⟩ := ih rest
        refine ⟨g :: before, after, by rw [eq]; rfl, greater, fun f hf => ?_⟩
        simp [mem f hf, or_assoc]

theorem Legal.setField {room : Nat} (h : Legal room (.obj fs)) {v : Json}
    (range : v.exact = true) (flat : v.height + 1 < room) (key : String) :
    Legal room (.obj (setField key v fs)) := by
  have exact := exactFields_iff.mp (show exactFields fs = true from h.exact)
  have height : heightFields fs < room - 1 := Nat.lt_sub_of_add_lt h.height
  have pos : 0 < room - 1 := by omega
  refine ⟨exactFields_iff.mpr fun f mem => ?_, ?_, ?_⟩
  · rcases mem_of_mem_setField mem with rfl | mem
    · exact range
    · exact exact f mem
  · suffices heightFields (Json.setField key v fs) < room - 1 from Nat.add_lt_of_lt_sub this
    rw [heightFields_lt_iff pos] at height ⊢
    intro f mem
    rcases mem_of_mem_setField mem with rfl | mem
    · exact Nat.lt_sub_of_add_lt flat
    · exact height f mem
  · rintro _ ⟨⟩
    exact inOrder_setField (h.ordered fs rfl) key v

theorem inOrder_rereadFields (h : inOrder fs) : inOrder (rereadFields fs) := by
  have mem : ∀ {gs : List (String × Json)} {f}, f ∈ rereadFields gs → ∃ g ∈ gs, f.1 = g.1 := by
    intro gs
    induction gs with
    | nil => exact fun hf => absurd hf List.not_mem_nil
    | cons g _ ih =>
      intro f hf
      rcases List.mem_cons.mp hf with rfl | hf
      · exact ⟨g, .head _, rfl⟩
      · obtain ⟨g', there, eq⟩ := ih hf
        exact ⟨g', List.mem_cons_of_mem g there, eq⟩
  induction fs with
  | nil => exact List.Pairwise.nil
  | cons _ _ ih =>
    obtain ⟨first, rest⟩ := List.pairwise_cons.mp h
    refine List.pairwise_cons.mpr ⟨fun f hf => ?_, ih rest⟩
    obtain ⟨g', there, eq⟩ := mem hf
    rw [eq]
    exact first g' there

theorem Legal.reread_obj {room : Nat} (h : Legal room (.obj fs)) :
    reread (.obj fs) = .obj (rereadFields fs) := by
  rw [reread, object, sortFields_of_inOrder (inOrder_rereadFields (h.ordered fs rfl))]

end Json

/-! ## Entries -/

namespace Decisions

def entries (fs : List (String × Json)) : List (String × Bool) :=
  fs.filterMap fun f => f.2.asBool?.map fun b => (f.1, b)

theorem ofFields_eq (fs : List (String × Json)) : ofFields fs = ofEntries (entries fs) := rfl

variable {fs : List (String × Json)}

theorem mem_entries {k : String} {b : Bool} :
    (k, b) ∈ entries fs ↔ (k, .bool b) ∈ fs := by
  simp only [entries, List.mem_filterMap, Option.map_eq_some_iff]
  constructor
  · rintro ⟨⟨_, v⟩, mem, _, read, eq⟩
    cases eq
    cases v <;> cases read
    exact mem
  · exact fun mem => ⟨_, mem, b, rfl, rfl⟩

theorem lookup_ofEntries (es : List (String × Bool)) (origin : String) :
    (ofEntries es).lookup origin =
      ((es.filter fun e => Origin.normalize e.1 == origin).getLast?).map Prod.snd := by
  induction es using List.reverseRecOn with
  | nil => rfl
  | append_singleton _ e ih =>
    rw [ofEntries, List.foldl_append, ← ofEntries, List.foldl_cons, List.foldl_nil, Assoc.lookup_set, ih,
      List.filter_append]
    cases same : Origin.normalize e.1 == origin with
    | true | false => simp [same, BEq.comm (a := origin)]

theorem entries_rereadFields (fs : List (String × Json)) : entries (Json.rereadFields fs) = entries fs := by
  induction fs with
  | nil => rfl
  | cons =>
    grind [entries, Json.rereadFields, Json.asBool?_reread]

theorem filter_entries_setField {origin other : String} (h : Origin.normalize origin ≠ other) (v : Json)
    (fs : List (String × Json)) :
    (entries (Json.setField origin v fs)).filter (fun e => Origin.normalize e.1 == other) =
      (entries fs).filter fun e => Origin.normalize e.1 == other := by
  have cons : ∀ (f : String × Json) rest,
      (entries (f :: rest)).filter (fun e => Origin.normalize e.1 == other) =
        (entries [f]).filter (fun e => Origin.normalize e.1 == other) ++
          (entries rest).filter fun e => Origin.normalize e.1 == other := by
    intro f rest
    rw [← List.filter_append, entries, entries, entries, ← List.filterMap_append]
    rfl
  have gone : ∀ v, (entries [(origin, v)]).filter (fun e => Origin.normalize e.1 == other) = [] := by
    intro v
    rw [List.filter_eq_nil_iff]
    rintro ⟨_, _⟩ mem
    obtain ⟨rfl, -⟩ := Prod.mk.inj (List.mem_singleton.mp (mem_entries.mp mem))
    simp [h]
  induction fs with
  | nil => exact gone v
  | cons _ =>
    unfold Json.setField
    split
    · rw [cons, gone, List.nil_append]
    · grind

theorem entries_append (a b : List (String × Json)) : entries (a ++ b) = entries a ++ entries b :=
  List.filterMap_append

theorem pairwise_entries (h : Json.inOrder fs) :
    (entries fs).Pairwise fun a b => a.1 < b.1 := by
  refine List.Pairwise.filterMap _ ?_ h
  grind

/-- Whether the entries deny an origin under another identifier, which comes after the one given. -/
def overrules (es : List (String × Bool)) (origin : String) : Bool :=
  es.any fun e => decide (origin < e.1) && Origin.normalize e.1 == Origin.normalize origin && !e.2

theorem lookup_ofFields_setField (h : Json.inOrder fs) (origin : String) :
    (ofFields (Json.setField origin (.bool true) fs)).lookup (Origin.normalize origin) =
      some (!overrules (entries fs) origin) := by
  obtain ⟨before, after, eq, greater, mem⟩ := Json.setField_split h origin (.bool true)
  have sorted := Json.inOrder_setField h origin (.bool true)
  rw [eq] at sorted
  obtain ⟨-, upper, cross⟩ := List.pairwise_append.mp sorted
  let means (e : String × Bool) : Bool := Origin.normalize e.1 == Origin.normalize origin
  have last : (ofFields (Json.setField origin (.bool true) fs)).lookup (Origin.normalize origin) =
      some (((entries after).filter means).getLast?.getD (origin, true)).2 := by
    have own : means (origin, true) = true := beq_self_eq_true _
    rw [ofFields_eq, lookup_ofEntries, eq, entries_append]
    change (((entries before ++ (origin, true) :: entries after).filter means).getLast?).map Prod.snd = _
    rw [List.filter_append, List.filter_cons_of_pos own, List.getLast?_append, List.getLast?_cons]
    rfl
  -- Of the fields before, those that come later are the ones behind the grant.
  have later : overrules (entries fs) origin = ((entries after).filter means).any fun e => !e.2 := by
    rw [overrules, Bool.eq_iff_iff, List.any_eq_true, List.any_eq_true]
    constructor
    · rintro ⟨⟨k, b⟩, there, holds⟩
      simp only [Bool.and_eq_true, decide_eq_true_eq] at holds
      obtain ⟨⟨less, same⟩, denied⟩ := holds
      rcases (mem _ (Std.ne_of_lt less).symm).mp (mem_entries.mp there) with hb | ha
      · exact absurd less (String.lt_asymm (cross _ hb _ (.head _)))
      · exact ⟨_, List.mem_filter.mpr ⟨mem_entries.mpr ha, same⟩, denied⟩
    · rintro ⟨⟨k, b⟩, there, denied⟩
      obtain ⟨there, same⟩ := List.mem_filter.mp there
      have less := greater _ (mem_entries.mp there)
      refine ⟨_, mem_entries.mpr ((mem _ (Std.ne_of_lt less).symm).mpr (.inr (mem_entries.mp there))), ?_⟩
      exact Bool.and_eq_true_iff.mpr ⟨Bool.and_eq_true_iff.mpr ⟨decide_eq_true less, same⟩, denied⟩
  -- There is at most one such field, as one other identifier means the origin.
  have one : ∀ e ∈ (entries after).filter means, ∀ e' ∈ (entries after).filter means, e.1 = e'.1 := by
    intro e he e' he'
    obtain ⟨there, same⟩ := List.mem_filter.mp he
    obtain ⟨there', same'⟩ := List.mem_filter.mp he'
    refine Origin.eq_of_normalize (eq_of_beq same) (eq_of_beq same') ?_ ?_
    · exact (Std.ne_of_lt (greater _ (mem_entries.mp there))).symm
    · exact (Std.ne_of_lt (greater _ (mem_entries.mp there'))).symm
  have apart := (pairwise_entries (List.pairwise_cons.mp upper).2).filter means
  rw [last, later]
  generalize (entries after).filter means = es at one apart
  match es with
  | [] => rfl
  | [e] => simp
  | e :: e' :: es =>
    grind

end Decisions

/-! ## The file -/

namespace DecisionFile

/-- The fields of the object in a file. -/
def fields (f : DecisionFile) (t : FileTree) : List (String × Json) :=
  match f.readValue t with
  | .ok (some (.obj fs)) => fs
  | _ => []

theorem load_lookup (f : DecisionFile) (t : FileTree) (origin : String) :
    (f.load t).toOption.bind (·.lookup origin) = (Decisions.ofFields (f.fields t)).lookup origin := by
  unfold load fields
  split <;> simp_all [Except.toOption, Decisions.ofFields, Decisions.ofEntries]

variable {f : DecisionFile} {t t' : FileTree} {fs : List (String × Json)}

theorem fields_of_readForUpdate (h : f.readForUpdate t = .ok (t', fs)) :
    fs = f.fields t ∧ Json.Legal Json.depthLimit (.obj fs) := by
  have empty : Json.Legal Json.depthLimit (.obj []) :=
    ⟨rfl, by decide, fun fs eq => by cases eq; exact List.Pairwise.nil⟩
  unfold readForUpdate at h
  unfold fields readValue
  split at h
  · next missing =>
    cases h
    rw [if_pos missing]
    exact ⟨rfl, empty⟩
  · next there =>
    rw [if_neg there]
    cases read : t.readText f.path with
    | error => simp [read] at h
    | ok text =>
      simp only [read] at h
      cases parsed : Json.parse text with
      | error =>
        simp only [parsed] at h ⊢
        split at h
        · cases h
          exact ⟨rfl, empty⟩
        · cases h
      | ok v =>
        simp only [parsed] at h ⊢
        split at h
        · next eq =>
          cases eq
          cases h
          exact ⟨rfl, Json.legal_of_parse parsed⟩
        · next other =>
          split at h
          · cases h
            refine ⟨?_, empty⟩
            cases v with
            | obj fs => exact absurd rfl (other fs)
            | _ => rfl
          · cases h

theorem readValue_of_find {text : String} {v : Json}
    (found : t.find f.path = .ok (.file text.toUTF8)) (parsed : Json.parse text = .ok v) :
    f.readValue t = .ok (some v) := by
  have read : t.readText f.path = .ok text := by
    simp only [FileTree.readText, FileTree.readBytes, found, fromUTF8?_toUTF8]
  simp only [readValue, FileTree.has, found, read, parsed, Bool.not_true, Bool.false_eq_true, if_false]

theorem readValue_of_replace {reopened : DecisionFile} (same : reopened.path = f.path)
    {v : Json} (range : v.exact = true) (flat : v.height < Json.depthLimit)
    (h : f.replace t v = (t', .ok ())) : reopened.readValue t' = .ok (some v.reread) := by
  refine readValue_of_find ?_ (Json.parse_renderPretty range flat)
  rw [same]
  unfold replace at h
  split at h
  · cases h
  · split at h
    · cases h
    · next written =>
      split at h
      · next moved =>
        cases h
        exact FileTree.find_of_moved written moved
      · cases h

theorem inOrder_fields (f : DecisionFile) (t : FileTree) : Json.inOrder (f.fields t) := by
  unfold fields readValue
  split
  · next _ read =>
    split at read
    · cases read
    · split at read
      · cases read
      · split at read
        · next parsed =>
          cases read
          exact (Json.legal_of_parse parsed).ordered _ rfl
        · cases read
  · exact List.Pairwise.nil

theorem load_of_grant {reopened : DecisionFile} (same : reopened.path = f.path)
    {origin : String} (h : f.grant t origin = (t', .ok ())) :
    reopened.load t' = .ok (Decisions.ofFields (Json.setField origin (.bool true) (f.fields t))) := by
  unfold grant at h
  split at h
  · cases h
  · next _ read =>
    obtain ⟨rfl, legal⟩ := fields_of_readForUpdate read
    have legal := legal.setField (v := .bool true) rfl (by decide) origin
    have written := readValue_of_replace same legal.exact legal.height h
    rw [legal.reread_obj] at written
    simp only [load, written, Decisions.ofFields_eq, Decisions.entries_rereadFields]

def sample : DecisionFile := { path := "decisions.json", process := "7" }

def holding (fs : List (String × Json)) : FileTree :=
  { nodes := [(["decisions.json"], .file (Json.render (.obj fs)).toUTF8)] }

theorem readValue_holding (range : Json.exact (.obj fs) = true)
    (flat : Json.height (.obj fs) < Json.depthLimit) (canonical : Json.isCanonical (.obj fs) = true) :
    sample.readValue (holding fs) = .ok (some (.obj fs)) := by
  have parsed := Json.parse_render range flat
  rw [Json.reread_of_isCanonical _ canonical] at parsed
  exact readValue_of_find rfl parsed

theorem fields_of_readValue (h : f.readValue t = .ok (some (.obj fs))) : f.fields t = fs := by
  rw [fields, h]

theorem readForUpdate_of_readValue
    (h : f.readValue t = .ok (some (.obj fs))) : f.readForUpdate t = .ok (t, fs) := by
  unfold readValue at h
  unfold readForUpdate
  split at h
  · cases h
  · grind

theorem grant_holding (h : sample.readValue (holding fs) = .ok (some (.obj fs))) (origin : String) :
    ∃ t', sample.grant (holding fs) origin = (t', .ok ()) := by
  have above : Path.parent? sample.path = some "" := by decide +kernel
  have beside : sample.temporary = "decisions.json.7.tmp" := by decide +kernel
  simp only [grant, readForUpdate_of_readValue h, replace, prepare, above, beside]
  exact ⟨_, rfl⟩

def bareId : String := String.ofList (List.replicate 32 'p')

/-- A grant that was stored is read again, by whoever opens the same file, and no other origin's
decision changes: it stays as it was, and there is none where no object was in the file. The grant is
overruled only where the file denies the origin under the other identifier that means it, and that
one comes later. -/
theorem load_after_grant {f reopened : DecisionFile} (same : reopened.path = f.path) {t t' : FileTree}
    {origin : String} (stored : f.grant t origin = (t', .ok ())) :
    ∃ m, reopened.load t' = .ok m ∧
      m.lookup (Origin.normalize origin) =
        some (!Decisions.overrules (Decisions.entries (f.fields t)) origin) ∧
      ∀ other, Origin.normalize other ≠ Origin.normalize origin →
        m.lookup other = (f.load t).toOption.bind (·.lookup other) := by
  refine ⟨_, load_of_grant same stored, ?_, fun other distinct => ?_⟩
  · exact Decisions.lookup_ofFields_setField (inOrder_fields f t) origin
  · have unlike : Origin.normalize origin ≠ other := by
      rintro rfl
      exact distinct (Origin.normalize_normalize origin)
    rw [load_lookup, Decisions.ofFields_eq, Decisions.ofFields_eq, Decisions.lookup_ofEntries,
      Decisions.lookup_ofEntries, Decisions.filter_entries_setField unlike]

theorem load_after_grant_other : ∃ (t' : FileTree) (m : Decisions),
    sample.grant (holding [("https://a.example", .bool false), ("https://b.example", .bool false)])
      "https://a.example" = (t', .ok ()) ∧
    { sample with process := "8" }.load t' = .ok m ∧ m.lookup "https://a.example" = some true ∧
      m.lookup "https://b.example" = some false := by
  let fs := [("https://a.example", Json.bool false), ("https://b.example", .bool false)]
  have held : sample.readValue (holding fs) = .ok (some (.obj fs)) :=
    readValue_holding (by decide +kernel) (by decide +kernel) (by decide +kernel)
  obtain ⟨t', stored⟩ := grant_holding held "https://a.example"
  have same : { sample with process := "8" }.path = sample.path := rfl
  obtain ⟨m, loaded, own, others⟩ := load_after_grant same stored
  refine ⟨t', m, stored, loaded, ?_, ?_⟩
  · have eq : Origin.normalize "https://a.example" = "https://a.example" := by decide +kernel
    rw [eq, fields_of_readValue held] at own
    rw [own]
    decide +kernel
  · rw [others _ (by decide +kernel), load, held]
    decide +kernel

/-- A grant to an extension that the file denies under its bare identifier is stored, and the
extension is denied when the file is read again. -/
theorem denied_after_grant : ∃ (t t' : FileTree) (m : Decisions),
    sample.grant t (Origin.ofExtensionId bareId) = (t', .ok ()) ∧ sample.load t' = .ok m ∧
      m.lookup (Origin.ofExtensionId bareId) = some false := by
  let fs := [(bareId, Json.bool false)]
  have held : sample.readValue (holding fs) = .ok (some (.obj fs)) :=
    readValue_holding (by decide +kernel) (by decide +kernel) (by decide +kernel)
  obtain ⟨t', stored⟩ := grant_holding held (Origin.ofExtensionId bareId)
  refine ⟨_, t', _, stored, load_of_grant rfl stored, ?_⟩
  rw [fields_of_readValue held]
  decide +kernel

end DecisionFile

end Switchboard
