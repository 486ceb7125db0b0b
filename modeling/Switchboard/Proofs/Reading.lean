import Mathlib.Data.List.Basic
import Mathlib.Tactic.Ring
import Switchboard.Proofs.Numerals
import Switchboard.Proofs.Spelling

/-!
# Reading back what was written

The characters of a value in any layout are read back, whatever follows, as long as it does not continue
a number and nothing nests too deep (`value_spell`). What is read is `reread`: the same value, except that fields come in order of
their keys and doubles have been rounded again.
-/

namespace Switchboard

/-- What is read from the decimal text of a finite double: its digits, rounded, times a rounded power
of ten. -/
def Double.reread (d : Double) : Double :=
  let parts := Json.partsOf d.shortest
  let f := (Json.scale 5 (Double.ofNat parts.1) parts.2).getD d
  if d.isNegative then f.neg else f

namespace Json

mutual

/-- The value as it is read back from its text: integers, texts and literals are the same, a double is
rounded again, fields come in order. -/
def reread : Json → Json
  | .float d => if d.isFinite then .float d.reread else .null
  | .arr xs => .arr (rereadItems xs)
  | .obj fs => .object (rereadFields fs)
  | v => v

def rereadItems : List Json → List Json
  | [] => []
  | x :: xs => reread x :: rereadItems xs

def rereadFields : List (String × Json) → List (String × Json)
  | [] => []
  | (k, v) :: rest => (k, reread v) :: rereadFields rest

end

mutual

def height : Json → Nat
  | .arr xs => heightItems xs + 1
  | .obj fs => heightFields fs + 1
  | _ => 0

def heightItems : List Json → Nat
  | [] => 0
  | x :: xs => max (height x) (heightItems xs)

def heightFields : List (String × Json) → Nat
  | [] => 0
  | (_, v) :: rest => max (height v) (heightFields rest)

end

mutual

def exact : Json → Bool
  | .int i => isRepresentable i
  | .arr xs => exactItems xs
  | .obj fs => exactFields fs
  | _ => true

def exactItems : List Json → Bool
  | [] => true
  | x :: xs => exact x && exactItems xs

def exactFields : List (String × Json) → Bool
  | [] => true
  | (_, v) :: rest => exact v && exactFields rest

end

/-! ## Blanks -/

theorem skipBlanks_append {bs : List Char} (blank : bs.all isBlank = true) (rest : List Char)
    (pos : Position) : skipBlanks (bs ++ rest) pos = skipBlanks rest (endPos bs pos) := by
  induction bs generalizing pos with
  | nil => rfl
  | cons _ _ ih =>
    simp only [List.all_cons, Bool.and_eq_true] at blank
    rw [List.cons_append, skipBlanks, if_pos blank.1, ih blank.2, endPos_cons]

theorem blanks_append {bs : List Char} (blank : bs.all isBlank = true) {c : Char}
    (solid : isBlank c = false) (cs : List Char) (pos : Position) :
    Cursor.blanks ⟨bs ++ c :: cs, pos⟩ = ⟨c :: cs, endPos bs pos⟩ := by
  unfold Cursor.blanks
  rw [skipBlanks_append blank, skipBlanks, if_neg (by simp [solid])]

theorem blanks_cons {c : Char} (solid : isBlank c = false) (cs : List Char) (pos : Position) :
    Cursor.blanks ⟨c :: cs, pos⟩ = ⟨c :: cs, pos⟩ := blanks_append List.all_nil solid cs pos

/-! ## Strings -/

section

variable {c : Char} (plain : ¬(c.toNat < 0x20 || c == '"' || c == '\\') = true)
include plain

theorem plainRun_of_plain (cs : List Char) (pos : Position) (acc : String) :
    plainRun (c :: cs) pos acc = plainRun cs (Cursor.after pos c) (acc.push c) := by
  simp only [Bool.or_eq_true, decide_eq_true_eq, not_or] at plain
  obtain ⟨⟨high, quote⟩, slash⟩ := plain
  have line : (c == '\n') = false := by
    rw [beq_eq_false_iff_ne]
    rintro rfl
    exact high (by decide)
  simp [plainRun, high, quote, slash, Cursor.after, line]

theorem stringRest_of_plain (fuel : Nat) (cs : List Char) (pos : Position) (acc : String) :
    stringRest (fuel + 1) ⟨c :: cs, pos⟩ acc =
      stringRest (fuel + 1) ⟨cs, Cursor.after pos c⟩ (acc.push c) := by
  simp only [stringRest, plainRun_of_plain plain]

end

theorem stringRest_of_escape {c : Char} {es : List Char}
    (h : ∀ cs pos, escape ⟨es ++ cs, pos⟩ = .ok (c, ⟨cs, endPos es pos⟩)) (fuel : Nat)
    (cs : List Char) (pos : Position) (acc : String) :
    stringRest (fuel + 1) ⟨'\\' :: es ++ cs, pos⟩ acc =
      stringRest fuel ⟨cs, endPos ('\\' :: es) pos⟩ (acc.push c) := by
  simp [stringRest, plainRun, h]

variable {n : Nat}

theorem hexValue?_hexDigit (h : n < 16) : hexValue? (hexDigit n) = some n := by
  revert n
  decide

theorem after_hexDigit (h : n < 16) (pos : Position) :
    Cursor.after pos (hexDigit n) = ⟨pos.line, pos.column + 1⟩ := by
  have : (hexDigit n == '\n') = false ∧ (hexDigit n).utf8Size = 1 := by
    revert n
    decide
  simp [Cursor.after, this]

theorem unicodeEscape_low (h : n < 256) (cs : List Char) (pos : Position) :
    unicodeEscape ⟨'0' :: '0' :: hexDigit (n / 16) :: hexDigit (n % 16) :: cs, pos⟩ =
      .ok (Char.ofNat n, ⟨cs, endPos ['0', '0', hexDigit (n / 16), hexDigit (n % 16)] pos⟩) := by
  have h₁ := hexValue?_hexDigit (show n / 16 < 16 by omega)
  have h₂ := hexValue?_hexDigit (show n % 16 < 16 by omega)
  have h₀ : hexValue? '0' = some 0 := by decide
  have value : n / 16 * 16 + n % 16 = n := by omega
  have place : endPos ['0', '0', hexDigit (n / 16), hexDigit (n % 16)] pos =
      ⟨pos.line, pos.column + 4⟩ := by
    have zero : ∀ p : Position, Cursor.after p '0' = ⟨p.line, p.column + 1⟩ := fun _ => rfl
    simp [after_hexDigit (show n / 16 < 16 by omega), after_hexDigit (show n % 16 < 16 by omega), zero]
  rw [place]
  simp only [unicodeEscape, hexEscape, h₀, h₁, h₂]
  simp [value, show ¬ 0xDC00 ≤ n by omega, show n < 0xD800 by omega, bind, Except.bind]

theorem escape_escapeChar {c : Char} (h : c.toNat < 0x20 ∨ c = '"' ∨ c = '\\') :
    ∃ es, (escapeChar c).toList = '\\' :: es ∧
      ∀ cs pos, escape ⟨es ++ cs, pos⟩ = .ok (c, ⟨cs, endPos es pos⟩) := by
  unfold escapeChar
  split
  · exact ⟨['"'], rfl, fun _ _ => rfl⟩
  · exact ⟨['\\'], rfl, fun _ _ => rfl⟩
  · exact ⟨['b'], rfl, fun _ _ => rfl⟩
  · exact ⟨['f'], rfl, fun _ _ => rfl⟩
  · exact ⟨['n'], rfl, fun _ _ => rfl⟩
  · exact ⟨['r'], rfl, fun _ _ => rfl⟩
  · exact ⟨['t'], rfl, fun _ _ => rfl⟩
  · next h₁ h₂ _ _ _ _ _ =>
    have low : c.toNat < 0x20 := h.resolve_right fun h => h.elim h₁ h₂
    rw [if_pos low]
    refine ⟨['u', '0', '0', hexDigit (c.toNat / 16), hexDigit (c.toNat % 16)], ?_, fun cs pos => ?_⟩
    · simp
    · have := unicodeEscape_low (show c.toNat < 256 by omega) cs (Cursor.after pos 'u')
      rw [Char.ofNat_toNat] at this
      exact this

theorem stringRest_spell (s : List Char) (fuel : Nat) (h : s.length < fuel) (rest : List Char)
    (pos : Position) (acc : String) :
    stringRest fuel ⟨s.flatMap spellChar ++ '"' :: rest, pos⟩ acc =
      .ok (acc ++ String.ofList s, ⟨rest, endPos (s.flatMap spellChar ++ ['"']) pos⟩) := by
  induction s generalizing fuel pos acc with
  | nil =>
    obtain ⟨fuel, rfl⟩ : ∃ n, fuel = n + 1 := ⟨fuel - 1, by omega⟩
    simp [stringRest, plainRun]
  | cons c s ih =>
    rw [List.length_cons] at h
    have joined : acc ++ String.ofList (c :: s) = acc.push c ++ String.ofList s := by
      apply String.toList_injective
      simp
    rw [List.flatMap_cons, List.append_assoc, List.append_assoc, endPos_append]
    by_cases special : (c.toNat < 0x20 || c == '"' || c == '\\') = true
    · have spelled : spellChar c = (escapeChar c).toList := if_pos special
      obtain ⟨_, text, read⟩ := escape_escapeChar (c := c) (by
        simpa only [Bool.or_eq_true, decide_eq_true_eq, beq_iff_eq, or_assoc] using special)
      obtain ⟨fuel, rfl⟩ : ∃ n, fuel = n + 1 := ⟨fuel - 1, by omega⟩
      rw [spelled, text, stringRest_of_escape read, ih fuel (by omega), joined]
    · have spelled : spellChar c = [c] := if_neg special
      obtain ⟨fuel, rfl⟩ : ∃ n, fuel = n + 1 := ⟨fuel - 1, by omega⟩
      rw [spelled, List.singleton_append, stringRest_of_plain special, ih (fuel + 1) (by omega), joined]
      rfl

theorem length_le_flatMap_spellChar (s : List Char) : s.length ≤ (s.flatMap spellChar).length := by
  induction s with
  | nil => rfl
  | cons c =>
    have some : 0 < (spellChar c).length := by
      grind [spellChar, escape_escapeChar]
    rw [List.flatMap_cons, List.length_append, List.length_cons]
    omega

theorem string_spell (s : String) (rest : List Char) (pos : Position) :
    string ⟨s.toList.flatMap spellChar ++ '"' :: rest, pos⟩ =
      .ok (s, ⟨rest, endPos (s.toList.flatMap spellChar ++ ['"']) pos⟩) := by
  have long := length_le_flatMap_spellChar s.toList
  unfold string
  rw [stringRest_spell]
  · simp
  · simp only [List.length_append, List.length_cons]
    omega

/-! ## Numbers -/

theorem isBlank_of_isDigit {c : Char} (h : c.isDigit = true) : isBlank c = false := by
  unfold isBlank
  simp only [Bool.or_eq_false_iff, beq_eq_false_iff_ne, ne_eq]
  refine ⟨⟨⟨?_, ?_⟩, ?_⟩, ?_⟩ <;> rintro rfl <;> simp at h

theorem value_of_digit {c : Char} (h : c.isDigit = true) (fuel room : Nat) (cs : List Char)
    (pos : Position) : value (fuel + 1) room ⟨c :: cs, pos⟩ = number ⟨c :: cs, pos⟩ true := by
  unfold value
  rw [blanks_cons (isBlank_of_isDigit h)]
  simp only
  split <;> first | rw [if_pos h] | simp at h

theorem value_of_minus (fuel room : Nat) (cs : List Char) (pos : Position) :
    value (fuel + 1) room ⟨'-' :: cs, pos⟩ = number ⟨cs, Cursor.after pos '-'⟩ false := by
  unfold value
  rfl

theorem value_of_head {cs : List Char} (h : ∃ c ds, cs = c :: ds ∧ c.isDigit = true) (fuel room : Nat)
    (rest : List Char) (pos : Position) :
    value (fuel + 1) room ⟨cs ++ rest, pos⟩ = number ⟨cs ++ rest, pos⟩ true := by
  obtain ⟨c, ds, rfl, digit⟩ := h
  exact value_of_digit digit fuel room (ds ++ rest) pos

theorem Numeral.head {ds : List Char} (h : Numeral ds) : ∃ c cs, ds = c :: cs ∧ c.isDigit = true := by
  obtain ⟨c, cs, rfl⟩ := List.exists_cons_of_ne_nil h.lead.1
  exact ⟨c, cs, rfl, h.digits c (.head _)⟩

theorem value_int {i : Int} (h : isRepresentable i = true) (fuel room : Nat) {rest : List Char}
    (stops : stopsNumber rest = true) (pos : Position) :
    value (fuel + 1) room ⟨(toString i).toList ++ rest, pos⟩ =
      .ok (.int i, ⟨rest, endPos (toString i).toList pos⟩) := by
  unfold isRepresentable at h
  simp only [Bool.and_eq_true, decide_eq_true_eq] at h
  cases i with
  | ofNat n =>
    have text : (toString (Int.ofNat n)).toList = Nat.toDigits 10 n := by
      rw [← toList_toString]
      rfl
    rw [text, value_of_head (numeral_toDigits n).head, number_nat (by simp at h; omega) stops]
    rfl
  | negSucc n =>
    have text : (toString (Int.negSucc n)).toList = '-' :: Nat.toDigits 10 (n + 1) := by
      change ("-" ++ toString (n + 1)).toList = _
      simp
    rw [text, List.cons_append, value_of_minus, number_neg (by omega) (by omega) stops]
    rfl

theorem render_head {d : Decimal} :
    ∃ c cs, (d.render doubleFormat).toList = c :: cs ∧ c.isDigit = true := by
  obtain ⟨c, cs, eq, digit⟩ := (numeral_toDigits d.digits).head
  unfold Decimal.render
  simp only [eq]
  split
  · split
    · exact ⟨c, _, by simp; rfl, digit⟩
    · split
      · next inside =>
        obtain ⟨_, hk⟩ := Int.eq_ofNat_of_zero_le inside
        rw [hk]
        exact ⟨c, _, by simp; rfl, digit⟩
      · exact ⟨'0', _, by simp; rfl, rfl⟩
  · exact ⟨c, _, by simp; rfl, digit⟩

theorem value_double {d : Double} (h : d.isFinite = true) (fuel room : Nat) {rest : List Char}
    (stops : stopsNumber rest = true) (pos : Position) :
    value (fuel + 1) room ⟨(doubleText d).toList ++ rest, pos⟩ =
      .ok (.float d.reread, ⟨rest, endPos (doubleText d).toList pos⟩) := by
  obtain ⟨f, read⟩ := Option.isSome_iff_exists.mp (scale_shortest h)
  have parts : ∀ c positive, doubleOfParts c positive (partsOf d.shortest).1 (partsOf d.shortest).2 =
      .ok (.float (if positive then f else f.neg), c) := by
    intro c positive
    unfold doubleOfParts
    rw [read]
  unfold doubleText Double.reread
  simp only [read]
  cases negative : d.isNegative with
  | true =>
    have text : ((if true = true then "-" else "") ++ d.shortest.render doubleFormat).toList =
        '-' :: (d.shortest.render doubleFormat).toList := by
      simp
    rw [text, List.cons_append, value_of_minus, number_render (Double.legible_shortest h) stops, parts]
    rfl
  | false =>
    have text : ((if false = true then "-" else "") ++ d.shortest.render doubleFormat).toList =
        (d.shortest.render doubleFormat).toList := by
      simp
    rw [text, value_of_head render_head, number_render (Double.legible_shortest h) stops, parts]
    rfl

/-! ## One step of a container -/

def opens (c : Char) : Bool := !isBlank c && c != ']'

/-- What a reader gives: a value where nothing nests too deep, and a failure where something does. -/
def Reads (flat : Prop) (r : Except ParseError (Json × Cursor)) (v : Json × Cursor) : Prop :=
  (flat → r = .ok v) ∧ (¬ flat → ∃ e, r = .error e)

namespace Reads

variable {p q flat : Prop} {r : Except ParseError (Json × Cursor)} {u v : Json × Cursor}

theorem of_flat (h : flat) (read : r = .ok v) : Reads flat r v := ⟨fun _ => read, (absurd h ·)⟩

theorem bind {f : Json × Cursor → Except ParseError (Json × Cursor)} (first : Reads p r v)
    (rest : p → Reads q (f v) u) (both : flat ↔ p ∧ q) : Reads flat (r.bind f) u := by
  by_cases hp : p
  · rw [first.1 hp]
    exact ⟨fun h => (rest hp).1 (both.mp h).2, fun h => (rest hp).2 fun hq => h (both.mpr ⟨hp, hq⟩)⟩
  · obtain ⟨e, failed⟩ := first.2 hp
    rw [failed]
    exact ⟨fun h => absurd (both.mp h).1 hp, fun _ => ⟨e, rfl⟩⟩

end Reads

section Steps

variable {bs : List Char} (blank : bs.all isBlank = true) {c : Char} {fuel room : Nat}
  {cs rest : List Char} {pos : Position}

include blank

theorem value_blanks (opening : opens c = true) :
    value (fuel + 1) room ⟨bs ++ c :: cs, pos⟩ = value (fuel + 1) room ⟨c :: cs, endPos bs pos⟩ := by
  simp only [opens, Bool.and_eq_true, Bool.not_eq_true'] at opening
  rw [value, value, blanks_append blank opening.1, blanks_cons opening.1]

theorem items_end (first : Bool) (acc : List Json) :
    items (fuel + 1) room ⟨bs ++ ']' :: rest, pos⟩ first acc =
      .ok (.arr acc.reverse, ⟨rest, endPos (bs ++ [']']) pos⟩) := by
  rw [items, blanks_append blank rfl]
  simp

theorem items_first (opening : opens c = true) (acc : List Json) :
    items (fuel + 1) room ⟨bs ++ c :: cs, pos⟩ true acc =
      (value fuel room ⟨c :: cs, endPos bs pos⟩).bind fun r => items fuel room r.2 false (r.1 :: acc) := by
  simp only [opens, Bool.and_eq_true, Bool.not_eq_true', bne_iff_ne] at opening
  rw [items, blanks_append blank opening.1]
  simp only [beq_iff_eq, opening.2, if_false, if_true]
  cases value fuel room ⟨c :: cs, endPos bs pos⟩ <;> rfl

theorem items_next (opening : opens c = true) (acc : List Json) :
    items (fuel + 1) room ⟨',' :: (bs ++ c :: cs), pos⟩ false acc =
      (value fuel room ⟨c :: cs, endPos (',' :: bs) pos⟩).bind fun r =>
        items fuel room r.2 false (r.1 :: acc) := by
  simp only [opens, Bool.and_eq_true, Bool.not_eq_true', bne_iff_ne] at opening
  rw [items, blanks_cons rfl]
  simp only [skip_cons, blanks_append blank opening.1, endPos_cons]
  simp only [Char.reduceBEq, Bool.false_eq_true, ↓reduceIte, BEq.rfl, opening.2, imp_self]
  cases value fuel room ⟨c :: cs, endPos bs (Cursor.after pos ',')⟩ <;> rfl

theorem fields_end (first : Bool) (acc : List (String × Json)) :
    fields (fuel + 1) room ⟨bs ++ '\x7d' :: rest, pos⟩ first acc =
      .ok (.object acc.reverse, ⟨rest, endPos (bs ++ ['\x7d']) pos⟩) := by
  rw [fields, blanks_append blank rfl]
  simp

theorem fields_first (k : String) (acc : List (String × Json)) :
    fields (fuel + 1) room ⟨bs ++ (spellString k ++ cs), pos⟩ true acc =
      member fuel room ⟨spellString k ++ cs, endPos bs pos⟩ acc := by
  rw [spellString, List.cons_append, fields, blanks_append blank rfl]
  simp

theorem fields_next (k : String) (acc : List (String × Json)) :
    fields (fuel + 1) room ⟨',' :: (bs ++ (spellString k ++ cs)), pos⟩ false acc =
      member fuel room ⟨spellString k ++ cs, endPos (',' :: bs) pos⟩ acc := by
  rw [spellString, List.cons_append, fields, blanks_cons rfl]
  simp only [skip_cons, blanks_append blank (c := '"') rfl]
  simp

theorem member_spell (k : String) (opening : opens c = true) (acc : List (String × Json)) :
    member (fuel + 2) room ⟨spellString k ++ ':' :: (bs ++ c :: cs), pos⟩ acc =
      (value (fuel + 1) room ⟨c :: cs, endPos (spellString k ++ ':' :: bs) pos⟩).bind fun r =>
        fields (fuel + 1) room r.2 false ((k, r.1) :: acc) := by
  have text : spellString k ++ ':' :: (bs ++ c :: cs) =
      '"' :: (k.toList.flatMap spellChar ++ '"' :: ':' :: (bs ++ c :: cs)) := by
    simp [spellString]
  rw [text, member]
  simp only [skip_cons, string_spell, blanks_cons (c := ':') rfl]
  rw [value_blanks blank opening]
  simp only [spellString, endPos_append, endPos_cons, List.cons_append]
  split <;> next read => rw [read]; rfl

end Steps

section Containers

variable {fuel room : Nat} {cs : List Char} {pos : Position} {p flat : Prop} {v : Json × Cursor}
  (both : flat ↔ 1 < room ∧ p)

include both

theorem Reads.unless {e : ParseError} {r : Except ParseError (Json × Cursor)} (read : 1 < room → Reads p r v) :
    Reads flat (if room ≤ 1 then .error e else r) v := by
  split
  · exact ⟨fun h => absurd (both.mp h).1 (by omega), fun _ => ⟨e, rfl⟩⟩
  · next wide =>
    have wide := Nat.lt_of_not_le wide
    exact ⟨fun h => (read wide).1 (both.mp h).2, fun h => (read wide).2 fun hp => h (both.mpr ⟨wide, hp⟩)⟩

theorem Reads.list (read : 1 < room → Reads p (items fuel (room - 1) ⟨cs, Cursor.after pos '['⟩ true []) v) :
    Reads flat (value (fuel + 1) room ⟨'[' :: cs, pos⟩) v := by
  rw [value, blanks_cons rfl]
  exact .unless both read

theorem Reads.object
    (read : 1 < room → Reads p (fields fuel (room - 1) ⟨cs, Cursor.after pos '\x7b'⟩ true []) v) :
    Reads flat (value (fuel + 1) room ⟨'\x7b' :: cs, pos⟩) v := by
  rw [value, blanks_cons rfl]
  exact .unless both read

end Containers

/-! ## Reading what was written -/

theorem opens_of_isDigit {c : Char} (h : c.isDigit = true) : opens c = true := by
  unfold opens
  rw [isBlank_of_isDigit h]
  simp only [Bool.not_false, Bool.true_and, bne_iff_ne]
  rintro rfl
  simp at h

theorem spell_head (l : Layout) (depth : Nat) (v : Json) :
    ∃ c cs, spell l depth v = c :: cs ∧ opens c = true := by
  unfold spell
  split
  all_goals first | exact ⟨_, _, rfl, rfl⟩ | skip
  · next i =>
    cases i with
    | ofNat n =>
      obtain ⟨c, cs, eq, digit⟩ := (numeral_toDigits n).head
      refine ⟨c, cs, ?_, opens_of_isDigit digit⟩
      rw [← eq, ← toList_toString]
      rfl
    | negSucc n =>
      refine ⟨'-', (toString (n + 1)).toList, ?_, rfl⟩
      change ("-" ++ toString (n + 1)).toList = _
      simp
  · next d =>
    split
    · obtain ⟨c, cs, eq, digit⟩ := render_head (d := d.shortest)
      unfold doubleText
      cases d.isNegative with
      | true => exact ⟨'-', _, by simp; rfl, rfl⟩
      | false => exact ⟨c, cs, by simpa using eq, opens_of_isDigit digit⟩
    · exact ⟨_, _, rfl, rfl⟩

theorem stopsNumber_blank {bs rest : List Char} (blank : bs.all isBlank = true)
    (stops : stopsNumber rest = true) : stopsNumber (bs ++ rest) = true := by
  cases bs with
  | nil => exact stops
  | cons =>
    simp only [List.all_cons, Bool.and_eq_true] at blank
    have := blank.1
    simp only [isBlank, Bool.or_eq_true, beq_iff_eq] at this
    rcases this with ((rfl | rfl) | rfl) | rfl <;> rfl

theorem stopsNumber_items (l : Layout) (depth : Nat) (xs : List Json) (rest : List Char) :
    stopsNumber (spellItems l depth xs ++ (l.line depth ++ ']' :: rest)) = true := by
  cases xs with
  | nil =>
    rw [spellItems, List.nil_append]
    exact stopsNumber_blank (l.line_blank depth) rfl
  | cons =>
    rfl

theorem stopsNumber_fields (l : Layout) (depth : Nat) (fs : List (String × Json)) (rest : List Char) :
    stopsNumber (spellFields l depth fs ++ (l.line depth ++ '\x7d' :: rest)) = true := by
  cases fs with
  | nil =>
    rw [spellFields, List.nil_append]
    exact stopsNumber_blank (l.line_blank depth) rfl
  | cons =>
    rfl

theorem length_spell_pos (l : Layout) (depth : Nat) (v : Json) : 0 < (spell l depth v).length := by
  obtain ⟨_, _, eq, -⟩ := spell_head l depth v
  rw [eq, List.length_cons]
  omega

mutual

/-- The text of a value, followed by something that does not continue a number, is read as that value, unless
it nests too deep. -/
theorem value_spell (l : Layout) : (v : Json) → ∀ (depth fuel room : Nat) (rest : List Char)
    (pos : Position), exact v = true → 0 < room → (spell l depth v).length ≤ fuel → stopsNumber rest = true →
    Reads (height v < room) (value fuel room ⟨spell l depth v ++ rest, pos⟩)
      (v.reread, ⟨rest, endPos (spell l depth v) pos⟩) := by
  intro v depth fuel room rest pos range wide long stops
  have some := length_spell_pos l depth v
  obtain ⟨fuel, rfl⟩ : ∃ n, fuel = n + 1 := ⟨fuel - 1, by omega⟩
  match v with
  | .null | .bool true | .bool false =>
    refine .of_flat wide ?_
    simp [spell, value, Cursor.blanks, skipBlanks, isBlank, literal, word, reread]
  | .int i =>
    rw [exact] at range
    simp only [spell, reread]
    exact .of_flat wide (value_int range fuel room stops pos)
  | .float d =>
    refine .of_flat wide ?_
    simp only [spell, reread]
    split
    · next finite => exact value_double finite fuel room stops pos
    · simp [value, Cursor.blanks, skipBlanks, isBlank, literal, word]
  | .str s =>
    refine .of_flat wide ?_
    simp only [spell, reread, spellString, List.cons_append, List.append_assoc, List.nil_append]
    rw [value, blanks_cons rfl]
    simp only [skip_cons, string_spell, endPos_cons]
  | .arr [] =>
    simp only [spell, List.length_cons, List.length_nil] at long
    obtain ⟨fuel, rfl⟩ : ∃ n, fuel = n + 1 := ⟨fuel - 1, by omega⟩
    simp only [spell, reread, rereadItems, List.cons_append, List.nil_append, height, heightItems]
    exact .list (p := True) (by simp) fun _ => .of_flat trivial (items_end List.all_nil true [])
  | .arr (x :: xs) =>
    rw [height, heightItems]
    rw [exact, exactItems, Bool.and_eq_true] at range
    rw [spell] at long ⊢
    simp only [List.length_cons, List.length_append] at long
    have first := length_spell_pos l (depth + 1) x
    obtain ⟨fuel, rfl⟩ : ∃ n, fuel = n + 1 := ⟨fuel - 1, by omega⟩
    obtain ⟨c, cs, eq, opening⟩ := spell_head l (depth + 1) x
    simp only [List.cons_append, List.append_assoc, List.nil_append]
    refine .list (p := height x < room - 1 ∧ heightItems xs < room - 1) (by omega) fun open_ => ?_
    have head := value_spell l x (depth + 1) fuel (room - 1)
      (spellItems l depth xs ++ (l.line depth ++ ']' :: rest))
      (endPos (l.line (depth + 1)) (Cursor.after pos '[')) range.1 (by omega) (by omega)
      (stopsNumber_items l depth xs rest)
    have tail := items_spell l xs depth fuel (room - 1) rest
      (endPos (spell l (depth + 1) x) (endPos (l.line (depth + 1)) (Cursor.after pos '[')))
      [x.reread] range.2 (by omega) (by omega)
    rw [eq, List.cons_append] at head ⊢
    rw [items_first (l.line_blank (depth + 1)) opening []]
    refine head.bind (fun _ => ?_) Iff.rfl
    rw [← eq, reread, rereadItems]
    simpa using tail
  | .obj [] =>
    simp only [spell, List.length_cons, List.length_nil] at long
    obtain ⟨fuel, rfl⟩ : ∃ n, fuel = n + 1 := ⟨fuel - 1, by omega⟩
    simp only [spell, reread, rereadFields, List.cons_append, List.nil_append, height, heightFields]
    exact .object (p := True) (by simp) fun _ => .of_flat trivial (fields_end List.all_nil true [])
  | .obj ((k, v) :: fs) =>
    rw [height, heightFields]
    rw [exact, exactFields, Bool.and_eq_true] at range
    rw [spell] at long ⊢
    simp only [List.length_cons, List.length_append, spellString, List.length_nil] at long
    have first := length_spell_pos l (depth + 1) v
    obtain ⟨fuel, rfl⟩ : ∃ n, fuel = n + 3 := ⟨fuel - 3, by omega⟩
    obtain ⟨c, cs, eq, opening⟩ := spell_head l (depth + 1) v
    simp only [List.cons_append, List.append_assoc, List.nil_append]
    refine .object (p := height v < room - 1 ∧ heightFields fs < room - 1) (by omega) fun open_ => ?_
    have head := value_spell l v (depth + 1) (fuel + 1) (room - 1)
      (spellFields l depth fs ++ (l.line depth ++ '\x7d' :: rest))
      (endPos (spellString k ++ ':' :: l.gap) (endPos (l.line (depth + 1)) (Cursor.after pos '\x7b')))
      range.1 (by omega) (by omega) (stopsNumber_fields l depth fs rest)
    have tail := fields_spell l fs depth (fuel + 1) (room - 1) rest
      (endPos (spell l (depth + 1) v) (endPos (spellString k ++ ':' :: l.gap)
        (endPos (l.line (depth + 1)) (Cursor.after pos '\x7b'))))
      [(k, v.reread)] range.2 (by omega) (by omega)
    rw [fields_first (l.line_blank (depth + 1))]
    rw [eq, List.cons_append] at head ⊢
    rw [member_spell l.gap_blank k opening []]
    refine head.bind (fun _ => ?_) Iff.rfl
    rw [← eq, reread, rereadFields]
    simpa using tail

theorem items_spell (l : Layout) : (xs : List Json) → ∀ (depth fuel room : Nat) (rest : List Char)
    (pos : Position) (acc : List Json), exactItems xs = true → 0 < room →
    (spellItems l depth xs).length < fuel →
    Reads (heightItems xs < room)
      (items fuel room ⟨spellItems l depth xs ++ (l.line depth ++ ']' :: rest), pos⟩ false acc)
      (.arr (acc.reverse ++ rereadItems xs),
        ⟨rest, endPos (spellItems l depth xs ++ (l.line depth ++ [']'])) pos⟩)
  | [], depth, fuel, room, rest, pos, acc, _, wide, long => by
    obtain ⟨fuel, rfl⟩ : ∃ n, fuel = n + 1 := ⟨fuel - 1, by omega⟩
    rw [spellItems, rereadItems, List.nil_append, List.append_nil, List.nil_append]
    exact .of_flat wide (items_end (l.line_blank depth) false acc)
  | x :: xs, depth, fuel, room, rest, pos, acc, range, wide, long => by
    rw [heightItems]
    rw [exactItems, Bool.and_eq_true] at range
    rw [spellItems] at long ⊢
    simp only [List.length_cons, List.length_append] at long
    obtain ⟨fuel, rfl⟩ : ∃ n, fuel = n + 1 := ⟨fuel - 1, by omega⟩
    obtain ⟨_, _, eq, opening⟩ := spell_head l (depth + 1) x
    have head := value_spell l x (depth + 1) fuel room
      (spellItems l depth xs ++ (l.line depth ++ ']' :: rest))
      (endPos (',' :: l.line (depth + 1)) pos) range.1 wide (by omega) (stopsNumber_items l depth xs rest)
    have tail := items_spell l xs depth fuel room rest
      (endPos (spell l (depth + 1) x) (endPos (',' :: l.line (depth + 1)) pos))
      (x.reread :: acc) range.2 wide (by omega)
    simp only [List.cons_append, List.append_assoc]
    rw [eq, List.cons_append] at head ⊢
    rw [items_next (l.line_blank (depth + 1)) opening acc]
    refine head.bind (fun _ => ?_) Nat.max_lt
    rw [← eq, rereadItems]
    simpa using tail

theorem fields_spell (l : Layout) : (fs : List (String × Json)) → ∀ (depth fuel room : Nat)
    (rest : List Char) (pos : Position) (acc : List (String × Json)), exactFields fs = true →
    0 < room → (spellFields l depth fs).length < fuel →
    Reads (heightFields fs < room)
      (fields fuel room ⟨spellFields l depth fs ++ (l.line depth ++ '\x7d' :: rest), pos⟩ false acc)
      (.object (acc.reverse ++ rereadFields fs),
        ⟨rest, endPos (spellFields l depth fs ++ (l.line depth ++ ['\x7d'])) pos⟩)
  | [], depth, fuel, room, rest, pos, acc, _, wide, long => by
    obtain ⟨fuel, rfl⟩ : ∃ n, fuel = n + 1 := ⟨fuel - 1, by omega⟩
    rw [spellFields, rereadFields, List.nil_append, List.append_nil, List.nil_append]
    exact .of_flat wide (fields_end (l.line_blank depth) false acc)
  | (k, v) :: fs, depth, fuel, room, rest, pos, acc, range, wide, long => by
    rw [heightFields]
    rw [exactFields, Bool.and_eq_true] at range
    rw [spellFields] at long ⊢
    simp only [List.length_cons, List.length_append, spellString, List.length_nil] at long
    obtain ⟨fuel, rfl⟩ : ∃ n, fuel = n + 3 := ⟨fuel - 3, by omega⟩
    obtain ⟨_, _, eq, opening⟩ := spell_head l (depth + 1) v
    have head := value_spell l v (depth + 1) (fuel + 1) room
      (spellFields l depth fs ++ (l.line depth ++ '\x7d' :: rest))
      (endPos (spellString k ++ ':' :: l.gap) (endPos (',' :: l.line (depth + 1)) pos))
      range.1 wide (by omega) (stopsNumber_fields l depth fs rest)
    have tail := fields_spell l fs depth (fuel + 1) room rest
      (endPos (spell l (depth + 1) v) (endPos (spellString k ++ ':' :: l.gap)
        (endPos (',' :: l.line (depth + 1)) pos)))
      ((k, v.reread) :: acc) range.2 wide (by omega)
    simp only [List.cons_append, List.append_assoc]
    rw [fields_next (l.line_blank (depth + 1))]
    rw [eq, List.cons_append] at head ⊢
    rw [member_spell l.gap_blank k opening acc]
    refine head.bind (fun _ => ?_) Nat.max_lt
    rw [← eq, rereadFields]
    simpa using tail

end

variable {v : Json}

theorem parse_of_toList {u : Json} {text : String} {l : Layout} {depth : Nat}
    (spelled : text.toList = spell l depth v) (range : exact v = true) :
    parse text = .ok u ↔ height v < depthLimit ∧ u = v.reread := by
  have read := value_spell l v depth (3 * (spell l depth v).length + 3)
    depthLimit [] ⟨1, 0⟩ range (by decide) (by omega) rfl
  rw [List.append_nil] at read
  simp only [parse, Cursor.ofText, spelled]
  by_cases flat : height v < depthLimit
  · rw [read.1 flat]
    simp [flat, Cursor.blanks, skipBlanks, eq_comm]
  · obtain ⟨_, failed⟩ := read.2 flat
    simp [failed, flat]

/-- The compact text of a value is read as that value. -/
theorem parse_render (range : exact v = true) (flat : height v < depthLimit) :
    parse v.render = .ok v.reread :=
  (parse_of_toList (toList_render v) range).mpr ⟨flat, rfl⟩

/-- So is the indented text. -/
theorem parse_renderPretty (range : exact v = true) (flat : height v < depthLimit) :
    parse v.renderPretty = .ok v.reread :=
  (parse_of_toList (toList_prettyAt 0 v) range).mpr ⟨flat, rfl⟩

/-! ## Values that are read back as they are -/

def inOrder (fs : List (String × Json)) : Prop := fs.Pairwise fun a b => a.1 < b.1

instance (fs : List (String × Json)) : Decidable (inOrder fs) := by
  unfold inOrder
  infer_instance

theorem setField_last {fs : List (String × Json)} {key : String} (v : Json)
    (h : ∀ f ∈ fs, f.1 < key) : setField key v fs = fs ++ [(key, v)] := by
  induction fs with
  | nil => rfl
  | cons f _ ih =>
    have first := h f (.head _)
    have other : key ≠ f.1 := fun eq => String.lt_irrefl key (by rw [eq] at first ⊢; exact first)
    rw [setField, if_neg (String.lt_asymm first), if_neg other,
      ih fun f hf => h f (.tail _ hf)]
    rfl

theorem sortFields_of_inOrder {fs : List (String × Json)} (h : inOrder fs) : sortFields fs = fs := by
  have grow : ∀ (rest acc : List (String × Json)), inOrder (acc ++ rest) →
      rest.foldl (fun acc f => setField f.1 f.2 acc) acc = acc ++ rest := by
    intro rest
    induction rest with
    | nil => exact fun acc _ => (List.append_nil acc).symm
    | cons f _ ih =>
      intro acc sorted
      have below : ∀ g ∈ acc, g.1 < f.1 := fun g hg =>
        (List.pairwise_append.mp sorted).2.2 g hg f (.head _)
      rw [List.foldl_cons, setField_last f.2 below, ih _ (by simpa using sorted)]
      simp
  exact grow fs [] h

mutual

def isCanonical : Json → Bool
  | .float _ => false
  | .arr xs => isCanonicalItems xs
  | .obj fs => decide (inOrder fs) && isCanonicalFields fs
  | _ => true

def isCanonicalItems : List Json → Bool
  | [] => true
  | x :: xs => isCanonical x && isCanonicalItems xs

def isCanonicalFields : List (String × Json) → Bool
  | [] => true
  | (_, v) :: rest => isCanonical v && isCanonicalFields rest

end

mutual

/-- A canonical value is read back as it is. -/
theorem reread_of_isCanonical : (v : Json) → isCanonical v = true → v.reread = v
  | .null, _ => rfl
  | .bool _, _ => rfl
  | .int _, _ => rfl
  | .float _, h => by simp [isCanonical] at h
  | .str _, _ => rfl
  | .arr xs, h => by
    rw [isCanonical] at h
    rw [reread, rereadItems_of_isCanonical xs h]
  | .obj fs, h => by
    rw [isCanonical, Bool.and_eq_true, decide_eq_true_eq] at h
    rw [reread, rereadFields_of_isCanonical fs h.2, object, sortFields_of_inOrder h.1]

theorem rereadItems_of_isCanonical : (xs : List Json) → isCanonicalItems xs = true → rereadItems xs = xs
  | [], _ => rfl
  | x :: xs, h => by
    rw [isCanonicalItems, Bool.and_eq_true] at h
    rw [rereadItems, reread_of_isCanonical x h.1, rereadItems_of_isCanonical xs h.2]

theorem rereadFields_of_isCanonical : (fs : List (String × Json)) → isCanonicalFields fs = true →
    rereadFields fs = fs
  | [], _ => rfl
  | (k, v) :: rest, h => by
    rw [isCanonicalFields, Bool.and_eq_true] at h
    rw [rereadFields, reread_of_isCanonical v h.1, rereadFields_of_isCanonical rest h.2]

end

end Json

end Switchboard
