import Switchboard.Assoc
import Switchboard.Message.Envelope
import Switchboard.Proofs.Denotation
import Switchboard.Proofs.WireFormat

/-!
# The grammar of messages

Which values are read as which messages. A plain record is read from an object that has exactly its names
as keys, and from the list of its parts; a response from an object that has the keys it needs, with any
others. `Codec.Exact` says that a reader accepts this grammar and nothing else, that it inverts the
writer, and that the text with the parts in declared order says the same as the value with sorted keys.
-/

namespace Switchboard

namespace Json

theorem asId?_eq_some_iff {v : Json} {n : Nat} : v.asId? = some n ↔ v = .ofNat n ∧ n < idLimit := by
  constructor
  · intro h
    unfold asId? at h
    split at h
    · split at h
      · next range =>
        obtain rfl := Option.some.inj h
        simp only [Bool.and_eq_true, decide_eq_true_eq] at range
        exact ⟨congrArg Json.int (Int.toNat_of_nonneg range.1).symm, by omega⟩
      · cases h
    · cases h
  · rintro ⟨rfl, small⟩
    simp [ofNat, asId?, small]

end Json

namespace Message

/-- A record with these parts: an object that has exactly their names as keys, or the list of the parts in
order. -/
def IsRecord (parts : List (String × Json)) (v : Json) : Prop :=
  (∃ fields, v = .obj fields ∧ fields.Perm parts) ∨ v = .arr (parts.map Prod.snd)

theorem isRecord_object {parts : List (String × Json)} (keys : (parts.map Prod.fst).Nodup) :
    IsRecord parts (Json.object parts) :=
  .inl ⟨_, rfl, Json.perm_sortFields keys⟩

variable {α : Type}

theorem eq_of_perm_pair {p q : α} {l : List α} (h : l.Perm [p, q]) : l = [p, q] ∨ l = [q, p] := by
  obtain ⟨f, _, rfl⟩ := List.length_eq_two.mp h.length_eq
  rcases List.mem_pair.mp (h.mem_iff.mp (.head _)) with rfl | rfl
  · exact .inl (by rw [List.perm_singleton.mp ((List.perm_cons f).mp h)])
  · exact .inr (by rw [List.perm_singleton.mp ((List.perm_cons f).mp (h.trans (.swap ..)))])

variable {a b : String} {x y : Json}

theorem perm_pair_iff (apart : a ≠ b) {fields : List (String × Json)} :
    fields.Perm [(a, x), (b, y)] ↔
      fields.length = 2 ∧ fields.lookup a = some x ∧ fields.lookup b = some y := by
  constructor
  · intro h
    rcases eq_of_perm_pair h with rfl | rfl
    · simp [List.lookup_cons, beq_eq_false_iff_ne.mpr apart.symm]
    · simp [List.lookup_cons, beq_eq_false_iff_ne.mpr apart]
  · rintro ⟨two, first, second⟩
    obtain ⟨_, _, rfl⟩ := List.length_eq_two.mp two
    rcases List.mem_pair.mp (Assoc.mem_of_lookup first) with rfl | rfl
    · rcases List.mem_pair.mp (Assoc.mem_of_lookup second) with same | rfl
      · exact absurd (congrArg Prod.fst same).symm apart
      · exact .refl _
    · rcases List.mem_pair.mp (Assoc.mem_of_lookup second) with rfl | same
      · exact .swap ..
      · exact absurd (congrArg Prod.fst same).symm apart

theorem pair?_eq_some_iff (apart : a ≠ b) {v : Json} :
    pair? a b v = some (x, y) ↔ IsRecord [(a, x), (b, y)] v := by
  unfold IsRecord
  cases v with
  | obj _ =>
    simp only [pair?, Json.obj.injEq, exists_eq_left', List.map_cons, List.map_nil, reduceCtorEq, or_false,
      perm_pair_iff apart]
    grind
  | arr =>
    unfold pair?
    grind
  | _ => simp [pair?]

theorem single?_eq_some_iff {v : Json} :
    single? a v = some x ↔ IsRecord [(a, x)] v := by
  unfold IsRecord single?
  split
  · split <;> simp_all
  · next _ => simp
  · next notObject notList =>
    refine ⟨nofun, ?_⟩
    rintro (⟨_, rfl, perm⟩ | rfl)
    · exact absurd (congrArg Json.obj (List.perm_singleton.mp perm)) (notObject a x)
    · exact absurd rfl (notList x)

/-! ## Codecs -/

/-- How the messages of one kind are written and read. -/
structure Codec (α : Type) where
  parts : α → List (String × Json)
  toJson : α → Json
  text : α → String
  ofJson? : Json → Option α

/-- A codec is exact for the messages that are `Valid`: it reads a message from the values that `Grammar`
says and from no others, among them the one as which the message is written. The text, which has the parts
in declared order, is read as that value is. -/
structure Codec.Exact {α : Type} (c : Codec α) (Valid : α → Prop) (Grammar : α → Json → Prop) : Prop where
  read_written : ∀ m, Valid m → c.ofJson? (c.toJson m) = some m
  read_iff : ∀ v m, c.ofJson? v = some m ↔ Valid m ∧ Grammar m v
  value_parts : ∀ m, c.toJson m = .object (c.parts m)
  text_parts : ∀ m, c.text m = (Json.obj (c.parts m)).render
  text_alike : ∀ m, (c.toJson m).exact = true →
    ∀ v, Json.parse (c.text m) = .ok v ↔ Json.parse (c.toJson m).render = .ok v
  text_value : ∀ m, (c.toJson m).exact = true → (c.toJson m).isCanonical = true →
    (c.toJson m).height < Json.depthLimit → Json.parse (c.text m) = .ok (c.toJson m)

section

variable {c : Codec α} {Valid : α → Prop} (value : ∀ m, c.toJson m = .object (c.parts m))
  (text : ∀ m, c.text m = (Json.obj (c.parts m)).render) (keys : ∀ m, ((c.parts m).map Prod.fst).Nodup)

include value text keys

theorem Codec.Exact.of_grammar {Grammar : α → Json → Prop}
    (read : ∀ v m, c.ofJson? v = some m ↔ Valid m ∧ Grammar m v) (written : ∀ m, Grammar m (c.toJson m)) :
    c.Exact Valid Grammar := by
  have alike : ∀ m, (c.toJson m).exact = true →
      ∀ v, Json.parse (c.text m) = .ok v ↔ Json.parse (c.toJson m).render = .ok v := by
    intro m range v
    rw [value] at range ⊢
    rw [text]
    refine Json.parse_object_iff (keys m) ?_ v
    rwa [Json.object, Json.exact, Json.exactFields_perm (Json.perm_sortFields (keys m))] at range
  refine ⟨fun m valid => (read _ m).mpr ⟨valid, written m⟩, read, value, text, alike, ?_⟩
  intro m range canonical flat
  rw [alike m range, Json.parse_render_iff range, Json.reread_of_isCanonical _ canonical]
  exact ⟨flat, rfl⟩

theorem Codec.Exact.of_record (read : ∀ v m, c.ofJson? v = some m ↔ Valid m ∧ IsRecord (c.parts m) v) :
    c.Exact Valid fun m => IsRecord (c.parts m) :=
  .of_grammar value text keys read fun m => value m ▸ isRecord_object (keys m)

end

end Message

/-! ## The messages -/

def Envelope.codec : Message.Codec Envelope :=
  ⟨fun m => [("type", .str m.service), ("data", m.data)], toJson, text, ofJson?⟩

def Call.codec : Message.Codec Call :=
  ⟨fun c => [("function_name", .str c.function), ("arguments", .arr c.arguments)], toJson, text, ofJson?⟩

def Request.codec : Message.Codec Request :=
  ⟨fun m => [("request_id", .ofNat m.id), ("payload", m.payload)], toJson, text, ofJson?⟩

def Response.codec : Message.Codec Response := ⟨parts, toJson, text, ofJson?⟩

def Arrival.codec : Message.Codec Arrival :=
  ⟨fun m => [(Key.handlerId, .ofNat m.handler), (Key.clientName, .str m.clientName)], toJson, text, ofJson?⟩

def Departure.codec : Message.Codec Departure :=
  ⟨fun m => [(Key.handlerId, .ofNat m.handler)], toJson, text, ofJson?⟩

theorem Envelope.ofJson?_eq_some_iff (v : Json) (m : Envelope) :
    ofJson? v = some m ↔ m.service ≠ "" ∧ Message.IsRecord (codec.parts m) v := by
  obtain ⟨_, _⟩ := m
  refine .trans ?_ (and_congr_right fun _ => Message.pair?_eq_some_iff (by decide))
  unfold ofJson?
  split
  · next s _ hpair =>
    rw [hpair]
    by_cases empty : s = ""
    · subst empty
      rw [if_pos (by decide)]
      grind
    · rw [if_neg (by simpa using empty)]
      simp only [Option.some.injEq, Envelope.mk.injEq, Prod.mk.injEq, Json.str.injEq]
      exact ⟨fun h => ⟨h.1 ▸ empty, h⟩, fun h => h.2⟩
  · next other => exact ⟨nofun, fun h => absurd h.2 (other _ _)⟩

theorem Call.ofJson?_eq_some_iff (v : Json) (c : Call) :
    ofJson? v = some c ↔ True ∧ Message.IsRecord (codec.parts c) v := by
  obtain ⟨_, _⟩ := c
  refine .trans ?_ (and_congr_right fun _ => Message.pair?_eq_some_iff (by decide))
  grind [ofJson?]

theorem Request.ofJson?_eq_some_iff (v : Json) (m : Request) :
    ofJson? v = some m ↔ m.id < Json.idLimit ∧ Message.IsRecord (codec.parts m) v := by
  obtain ⟨_, _⟩ := m
  refine .trans ?_ (and_congr_right fun _ => Message.pair?_eq_some_iff (by decide))
  unfold ofJson?
  split
  · simp only [Option.map_eq_some_iff, Json.asId?_eq_some_iff, Request.mk.injEq]
    grind
  · next none => simp [none]

theorem Arrival.ofJson?_eq_some_iff (v : Json) (m : Arrival) :
    ofJson? v = some m ↔ m.handler < Json.idLimit ∧ Message.IsRecord (codec.parts m) v := by
  obtain ⟨_, _⟩ := m
  refine .trans ?_ (and_congr_right fun _ => Message.pair?_eq_some_iff (by decide))
  unfold ofJson?
  split
  · simp only [Option.map_eq_some_iff, Json.asId?_eq_some_iff, Arrival.mk.injEq]
    grind
  · next other => exact ⟨nofun, fun h => absurd h.2 (other _ _)⟩

theorem Departure.ofJson?_eq_some_iff (v : Json) (m : Departure) :
    ofJson? v = some m ↔ m.handler < Json.idLimit ∧ Message.IsRecord (codec.parts m) v := by
  refine .trans ?_ (and_congr_right fun _ => Message.single?_eq_some_iff)
  unfold ofJson?
  split
  · simp only [Option.map_eq_some_iff, Json.asId?_eq_some_iff]
    grind
  · next none => simp [none]

namespace Response

/-- Whether a status says that the request succeeded, by name or by its place. -/
def SaysOk (status : Json) : Prop := status = .str "ok" ∨ status = .int 0

def SaysError (status : Json) : Prop := status = .str "error" ∨ status = .int 1

/-- An object with the number of the request, a status, and what the status calls for: any value, or the
text of the failure. Other keys have no meaning. -/
def Grammar (m : Response) (v : Json) : Prop :=
  v.field? "request_id" = some (.ofNat m.id) ∧ ∃ status, v.field? "status" = some status ∧
    match m.outcome with
    | .ok value => SaysOk status ∧ v.field? "value" = some value
    | .error e => SaysError status ∧ v.field? "error" = some (.str e)

theorem status?_eq_true_iff {status : Json} : status? status = some true ↔ SaysOk status := by
  unfold status? SaysOk
  split <;> simp_all

theorem status?_eq_false_iff {status : Json} : status? status = some false ↔ SaysError status := by
  unfold status? SaysError
  split <;> simp_all

section Fields

variable {v id status : Json} {n : Nat} (hid : v.field? "request_id" = some id)
  (hstatus : v.field? "status" = some status) (number : id.asId? = some n)

include hid hstatus number

theorem ofJson?_of_success {value : Json} (told : status? status = some true)
    (hvalue : v.field? "value" = some value) : ofJson? v = some ⟨n, .ok value⟩ := by
  simp only [ofJson?, hid, hstatus, number, told, hvalue, Option.map_some]

theorem ofJson?_of_failure {e : String} (told : status? status = some false)
    (herror : v.field? "error" = some (.str e)) : ofJson? v = some ⟨n, .error e⟩ := by
  simp only [ofJson?, hid, hstatus, number, told, herror]

end Fields

theorem ofJson?_eq_some_iff (v : Json) (m : Response) :
    ofJson? v = some m ↔ m.id < Json.idLimit ∧ Grammar m v := by
  constructor
  · intro h
    unfold ofJson? at h
    split at h
    · next _ status hid hstatus =>
      split at h
      · next n hn told =>
        obtain ⟨_, hvalue, rfl⟩ := Option.map_eq_some_iff.mp h
        obtain ⟨rfl, small⟩ := Json.asId?_eq_some_iff.mp hn
        exact ⟨small, hid, status, hstatus, status?_eq_true_iff.mp told, hvalue⟩
      · next n hn told =>
        split at h
        · next _ herror =>
          obtain rfl := Option.some.inj h
          obtain ⟨rfl, small⟩ := Json.asId?_eq_some_iff.mp hn
          exact ⟨small, hid, status, hstatus, status?_eq_false_iff.mp told, herror⟩
        · cases h
      · cases h
    · cases h
  · obtain ⟨n, outcome⟩ := m
    rintro ⟨small, hid, status, hstatus, rest⟩
    have number : (Json.ofNat n).asId? = some n := Json.asId?_eq_some_iff.mpr ⟨rfl, small⟩
    cases outcome with
    | ok => exact ofJson?_of_success hid hstatus number (status?_eq_true_iff.mpr rest.1) rest.2
    | error => exact ofJson?_of_failure hid hstatus number (status?_eq_false_iff.mpr rest.1) rest.2

theorem grammar_toJson (m : Response) : Grammar m m.toJson := by
  obtain ⟨_, outcome⟩ := m
  cases outcome with
  | ok =>
    rw [toJson_ok]
    exact ⟨rfl, .str "ok", rfl, .inl rfl, rfl⟩
  | error =>
    rw [toJson_error]
    exact ⟨rfl, .str "error", rfl, .inl rfl, rfl⟩

theorem nodup_parts (m : Response) : (m.parts.map Prod.fst).Nodup := by
  obtain ⟨_, outcome⟩ := m
  cases outcome <;> simp [parts]

end Response

/-- Every kind of message is read from its grammar and from nothing else, and is written in it. -/
theorem messages_exact :
    Envelope.codec.Exact (fun m => m.service ≠ "") (fun m => Message.IsRecord (Envelope.codec.parts m)) ∧
    Call.codec.Exact (fun _ => True) (fun c => Message.IsRecord (Call.codec.parts c)) ∧
    Request.codec.Exact (fun m => m.id < 2 ^ 64) (fun m => Message.IsRecord (Request.codec.parts m)) ∧
    Response.codec.Exact (fun m => m.id < 2 ^ 64) Response.Grammar ∧
    Arrival.codec.Exact (fun m => m.handler < 2 ^ 64) (fun m => Message.IsRecord (Arrival.codec.parts m)) ∧
    Departure.codec.Exact (fun m => m.handler < 2 ^ 64)
      (fun m => Message.IsRecord (Departure.codec.parts m)) := by
  have handler : [Key.handlerId, Key.clientName].Nodup := by decide
  exact ⟨.of_record (fun _ => rfl) (fun _ => rfl) (fun _ => by simp [Envelope.codec])
      Envelope.ofJson?_eq_some_iff,
    .of_record (fun _ => rfl) (fun _ => rfl) (fun _ => by simp [Call.codec]) Call.ofJson?_eq_some_iff,
    .of_record (fun _ => rfl) (fun _ => rfl) (fun _ => by simp [Request.codec])
      Request.ofJson?_eq_some_iff,
    .of_grammar (fun _ => rfl) (fun _ => rfl) Response.nodup_parts Response.ofJson?_eq_some_iff
      Response.grammar_toJson,
    .of_record (fun _ => rfl) (fun _ => rfl) (fun _ => handler) Arrival.ofJson?_eq_some_iff,
    .of_record (fun _ => rfl) (fun _ => rfl) (fun _ => by simp [Departure.codec])
      Departure.ofJson?_eq_some_iff⟩

end Switchboard
