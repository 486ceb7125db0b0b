import Mathlib.Data.List.Basic
import Switchboard.Json.Parser
import Switchboard.Json.Printer

/-!
# What is written

`spell` gives the characters of a value in a layout. The compact and the indented text are its two
layouts, so whatever holds of `spell` holds of both.
-/

namespace Switchboard

namespace Json

/-! ## Strings -/

def spellChar (c : Char) : List Char :=
  if c.toNat < 0x20 || c == '"' || c == '\\' then (escapeChar c).toList else [c]

def spellString (s : String) : List Char := '"' :: (s.toList.flatMap spellChar ++ ['"'])

theorem toList_pushEscaped (acc : String) (c : Char) :
    (pushEscaped acc c).toList = acc.toList ++ spellChar c := by
  unfold pushEscaped spellChar
  split <;> simp

theorem toList_foldl_pushEscaped (s acc : String) :
    (s.foldl pushEscaped acc).toList = acc.toList ++ s.toList.flatMap spellChar := by
  rw [String.foldl_eq_foldl_toList]
  generalize s.toList = cs
  induction cs generalizing acc with
  | nil => simp
  | cons _ _ ih => rw [List.foldl_cons, ih, toList_pushEscaped, List.flatMap_cons, List.append_assoc]

theorem toList_quote (s : String) : (quote s).toList = spellString s := by
  unfold quote
  rw [String.toList_push, toList_foldl_pushEscaped]
  rfl

/-! ## Layouts -/

/-- Where blanks stand in a text: before each element of a container and before its end, by depth, and
behind the colon of a field. -/
structure Layout where
  line : Nat → List Char
  gap : List Char
  line_blank : ∀ depth, (line depth).all isBlank = true
  gap_blank : gap.all isBlank = true

def Layout.compact : Layout := ⟨fun _ => [], [], fun _ => rfl, rfl⟩

@[simp]
theorem Layout.compact_line (depth : Nat) : Layout.compact.line depth = [] := rfl

@[simp]
theorem Layout.compact_gap : Layout.compact.gap = [] := rfl

def Layout.indented : Layout where
  line depth := (newline depth).toList
  gap := [' ']
  line_blank depth := by simp [newline, isBlank]
  gap_blank := rfl

@[simp]
theorem Layout.indented_line (depth : Nat) : Layout.indented.line depth = (newline depth).toList := rfl

@[simp]
theorem Layout.indented_gap : Layout.indented.gap = [' '] := rfl

mutual

def spell (l : Layout) (depth : Nat) : Json → List Char
  | .null => ['n', 'u', 'l', 'l']
  | .bool true => ['t', 'r', 'u', 'e']
  | .bool false => ['f', 'a', 'l', 's', 'e']
  | .int i => (toString i).toList
  | .float d => if d.isFinite then (doubleText d).toList else ['n', 'u', 'l', 'l']
  | .str s => spellString s
  | .arr [] => ['[', ']']
  | .arr (x :: xs) =>
    '[' :: (l.line (depth + 1) ++ (spell l (depth + 1) x ++ (spellItems l depth xs ++ (l.line depth ++ [']']))))
  | .obj [] => ['\x7b', '\x7d']
  | .obj ((k, v) :: rest) =>
    '\x7b' :: (l.line (depth + 1) ++ (spellString k ++ ':' :: (l.gap ++ (spell l (depth + 1) v ++
      (spellFields l depth rest ++ (l.line depth ++ ['\x7d']))))))

def spellItems (l : Layout) (depth : Nat) : List Json → List Char
  | [] => []
  | x :: xs => ',' :: (l.line (depth + 1) ++ (spell l (depth + 1) x ++ spellItems l depth xs))

def spellFields (l : Layout) (depth : Nat) : List (String × Json) → List Char
  | [] => []
  | (k, v) :: rest =>
    ',' :: (l.line (depth + 1) ++ (spellString k ++ ':' :: (l.gap ++ (spell l (depth + 1) v ++
      spellFields l depth rest))))

end

mutual

theorem toList_write (acc : String) (depth : Nat) :
    (v : Json) → (write acc v).toList = acc.toList ++ spell .compact depth v
  | .null => by simp [write, spell]
  | .bool true => by simp [write, spell]
  | .bool false => by simp [write, spell]
  | .int i => by simp [write, spell]
  | .float d => by
    simp only [write, spell, String.toList_append]
    split <;> simp
  | .str s => by
    simp only [write, spell, String.toList_push, toList_foldl_pushEscaped, spellString]
    simp
  | .arr [] => by simp [write, spell]
  | .arr (x :: xs) => by
    rw [write, String.toList_push, toList_writeItems _ depth xs, toList_write _ (depth + 1) x, spell]
    simp
  | .obj [] => by simp [write, spell]
  | .obj ((k, v) :: rest) => by
    rw [write, String.toList_append, toList_writeFields _ depth rest, toList_write _ (depth + 1) v,
      String.toList_append, toList_foldl_pushEscaped, spell]
    simp [spellString]

theorem toList_writeItems (acc : String) (depth : Nat) :
    (xs : List Json) → (writeItems acc xs).toList = acc.toList ++ spellItems .compact depth xs
  | [] => by simp [writeItems, spellItems]
  | x :: xs => by
    rw [writeItems, toList_writeItems _ depth xs, toList_write _ (depth + 1) x, spellItems]
    simp

theorem toList_writeFields (acc : String) (depth : Nat) :
    (fs : List (String × Json)) → (writeFields acc fs).toList = acc.toList ++ spellFields .compact depth fs
  | [] => by simp [writeFields, spellFields]
  | (k, v) :: rest => by
    rw [writeFields, toList_writeFields _ depth rest, toList_write _ (depth + 1) v,
      String.toList_append, toList_foldl_pushEscaped, spellFields]
    simp [spellString]

end

theorem toList_render (v : Json) : v.render.toList = spell .compact 0 v := by
  rw [render, toList_write _ 0]
  rfl

mutual

theorem toList_prettyAt (depth : Nat) :
    (v : Json) → (prettyAt depth v).toList = spell .indented depth v
  | .null => by simp [prettyAt, render, write, spell]
  | .bool true => by simp [prettyAt, render, write, spell]
  | .bool false => by simp [prettyAt, render, write, spell]
  | .int i => by simp [prettyAt, render, write, spell]
  | .float d => by
    simp only [prettyAt, render, write, spell]
    split <;> simp
  | .str s => by
    rw [prettyAt, toList_render, spell, spell] <;> simp
  | .arr [] => by simp [prettyAt, spell]
  | .arr (x :: xs) => by
    simp [prettyAt, spell, toList_prettyAt (depth + 1) x, toList_prettyItems depth xs]
  | .obj [] => by simp [prettyAt, spell]
  | .obj ((k, v) :: rest) => by
    simp [prettyAt, spell, toList_prettyAt (depth + 1) v, toList_prettyFields depth rest,
      toList_quote]

theorem toList_prettyItems (depth : Nat) :
    (xs : List Json) → (prettyItems depth xs).toList = spellItems .indented depth xs
  | [] => by simp [prettyItems, spellItems]
  | x :: xs => by
    simp [prettyItems, spellItems, toList_prettyAt (depth + 1) x, toList_prettyItems depth xs]

theorem toList_prettyFields (depth : Nat) :
    (fs : List (String × Json)) → (prettyFields depth fs).toList = spellFields .indented depth fs
  | [] => by simp [prettyFields, spellFields]
  | (k, v) :: rest => by
    simp [prettyFields, spellFields, toList_prettyAt (depth + 1) v, toList_prettyFields depth rest,
      toList_quote]

end

end Json

end Switchboard
