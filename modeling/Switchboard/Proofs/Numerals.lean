import Mathlib.Data.List.Basic
import Switchboard.Json.Parser
import Switchboard.Json.Printer
import Switchboard.Proofs.Rounding

/-!
# Numbers as text

The text of an integer is read as that integer, and the text of a double as its digits and a power of
ten (`number_render`); whatever the double, these are in range (`scale_shortest`).
-/

namespace Switchboard

namespace Json

/-! ## Places -/

@[simp] theorem endPos_nil (pos : Position) : endPos [] pos = pos := rfl

@[simp] theorem endPos_cons (c : Char) (cs : List Char) (pos : Position) :
    endPos (c :: cs) pos = endPos cs (Cursor.after pos c) := rfl

@[simp] theorem endPos_append (cs ds : List Char) (pos : Position) :
    endPos (cs ++ ds) pos = endPos ds (endPos cs pos) := List.foldl_append

@[simp] theorem skip_cons (c : Char) (cs : List Char) (pos : Position) :
    Cursor.skip ⟨c :: cs, pos⟩ = ⟨cs, Cursor.after pos c⟩ := rfl

@[simp] theorem peek?_cons (c : Char) (cs : List Char) (pos : Position) :
    Cursor.peek? ⟨c :: cs, pos⟩ = some c := rfl

@[simp] theorem peek?_nil (pos : Position) : Cursor.peek? ⟨[], pos⟩ = none := rfl

/-! ## Digits -/

def stopsDigits : List Char → Bool
  | [] => true
  | c :: _ => !c.isDigit

def stopsNumber : List Char → Bool
  | [] => true
  | c :: _ => !c.isDigit && c != '.' && c != 'e' && c != 'E'

variable {rest : List Char}

theorem stopsDigits_of_stopsNumber (h : stopsNumber rest = true) :
    stopsDigits rest = true := by
  cases rest with
  | nil => rfl
  | cons =>
    simp only [stopsNumber, Bool.and_eq_true] at h
    exact h.1.1.1

variable {ds : List Char}

theorem takeDigits_append {limit : Nat} (digits : ∀ c ∈ ds, c.isDigit = true)
    (stops : stopsDigits rest = true) (pos : Position) (sig n : Nat)
    (fits : Nat.ofDigitChars 10 ds sig ≤ limit) :
    takeDigits limit (ds ++ rest) pos sig n =
      (Nat.ofDigitChars 10 ds sig, n + ds.length, ⟨rest, endPos ds pos⟩) := by
  induction ds generalizing pos sig n with
  | nil =>
    cases rest with
    | nil => rfl
    | cons c =>
      have none : digit? c = none := by
        simp only [stopsDigits, Bool.not_eq_true'] at stops
        simp [digit?, stops]
      simp [takeDigits, none]
  | cons c ds ih =>
    have hd : digit? c = some (c.toNat - '0'.toNat) := by
      simp [digit?, digits c List.mem_cons_self]
    rw [Nat.ofDigitChars_cons] at fits
    have grows : 10 * sig + (c.toNat - '0'.toNat) ≤ limit := by
      rw [Nat.ofDigitChars_eq_ofDigitChars_zero] at fits
      have := Nat.le_mul_of_pos_left (10 * sig + (c.toNat - '0'.toNat))
        (Nat.pow_pos (n := ds.length) (show 0 < 10 by decide))
      omega
    rw [List.cons_append, takeDigits, hd]
    simp only [Nat.mul_comm sig 10, gt_iff_lt, Nat.not_lt.mpr grows, if_false]
    rw [ih (fun c hc => digits c (.tail _ hc)) _ _ _ fits, Nat.ofDigitChars_cons,
      List.length_cons, endPos_cons, Nat.add_assoc, Nat.add_comm 1]

theorem skipDigits_of_stops (stops : stopsDigits rest = true) (pos : Position)
    (n : Nat) : skipDigits rest pos n = (n, ⟨rest, pos⟩) := by
  cases rest with
  | nil => rfl
  | cons =>
    simp only [stopsDigits, Bool.not_eq_true'] at stops
    simp [skipDigits, stops]

/-- Digits that stand for a number as it is written: a zero stands alone or not in front. -/
structure Numeral (ds : List Char) : Prop where
  digits : ∀ c ∈ ds, c.isDigit = true
  lead : ds ≠ [] ∧ (ds.head? = some '0' → ds = ['0'])

theorem number_append (numeral : Numeral ds)
    (fits : Nat.ofDigitChars 10 ds 0 ≤ significandMax) (stops : stopsDigits rest = true)
    (pos : Position) (positive : Bool) :
    number ⟨ds ++ rest, pos⟩ positive =
      numberRest ⟨rest, endPos ds pos⟩ positive (Nat.ofDigitChars 10 ds 0) 0 := by
  obtain ⟨digits, nonempty, lead⟩ := numeral
  cases ds with
  | nil => exact absurd rfl nonempty
  | cons d ds =>
    by_cases zero : d = '0'
    · subst zero
      obtain rfl : ds = [] := by simpa using lead rfl
      cases rest with
      | nil => rfl
      | cons =>
        simp only [stopsDigits, Bool.not_eq_true'] at stops
        simp [number, stops, Nat.ofDigitChars_cons]
    · have hd := digits d (.head _)
      have taken := takeDigits_append digits stops pos 0 0 fits
      rw [List.cons_append] at taken ⊢
      unfold number
      simp only [peek?_cons, hd, if_true, taken, skipDigits_of_stops stops]

theorem numeral_toDigits (n : Nat) : Numeral (Nat.toDigits 10 n) where
  digits _ hc := Nat.isDigit_of_mem_toDigits (by decide) (by decide) hc
  lead := by
    refine ⟨Nat.toDigits_ne_nil, ?_⟩
    induction n using Nat.strongRecOn with
    | _ n ih =>
      by_cases small : n < 10
      · rw [Nat.toDigits_of_lt_base small]
        simp
      · rw [Nat.toDigits_of_base_le (by decide) (Nat.not_lt.mp small)]
        intro h
        rw [List.head?_append_of_ne_nil _ Nat.toDigits_ne_nil] at h
        have zero := ih (n / 10) (by omega) h
        have value := Nat.ofDigitChars_ten_toDigits (n := n / 10)
        rw [zero] at value
        have : n / 10 = 0 := by rw [← value]; decide
        omega

/-! ## Integers -/

def isRepresentable (i : Int) : Bool := -(2 ^ 63) ≤ i && i < 2 ^ 64

theorem numberRest_of_stops (stops : stopsNumber rest = true) (pos : Position)
    (positive : Bool) (sig : Nat) : numberRest ⟨rest, pos⟩ positive sig 0 =
      if positive then .ok (.int sig, ⟨rest, pos⟩)
      else if sig != 0 && sig ≤ 2 ^ 63 then .ok (.int (-(sig : Int)), ⟨rest, pos⟩)
      else .ok (.float (Double.ofNat sig).neg, ⟨rest, pos⟩) := by
  unfold numberRest
  cases rest with
  | nil => simp
  | cons =>
    simp only [stopsNumber, Bool.and_eq_true, bne_iff_ne] at stops
    grind [peek?_cons]

variable {n : Nat}

theorem number_nat (h : n < 2 ^ 64) (stops : stopsNumber rest = true)
    (pos : Position) : number ⟨Nat.toDigits 10 n ++ rest, pos⟩ true =
      .ok (.int n, ⟨rest, endPos (Nat.toDigits 10 n) pos⟩) := by
  rw [number_append (numeral_toDigits n) (by rw [Nat.ofDigitChars_ten_toDigits, significandMax]; omega)
    (stopsDigits_of_stopsNumber stops), numberRest_of_stops stops, Nat.ofDigitChars_ten_toDigits]
  rfl

theorem number_neg (pos' : n ≠ 0) (h : n ≤ 2 ^ 63) (stops : stopsNumber rest = true) (pos : Position) :
    number ⟨Nat.toDigits 10 n ++ rest, pos⟩ false =
      .ok (.int (-(n : Int)), ⟨rest, endPos (Nat.toDigits 10 n) pos⟩) := by
  rw [number_append (numeral_toDigits n) (by rw [Nat.ofDigitChars_ten_toDigits, significandMax]; omega)
    (stopsDigits_of_stopsNumber stops), numberRest_of_stops stops, Nat.ofDigitChars_ten_toDigits,
    if_neg Bool.false_ne_true, if_pos]
  rw [Bool.and_eq_true]
  exact ⟨bne_iff_ne.mpr pos', decide_eq_true h⟩

/-! ## Decimals -/

/-- The significand and the power of ten as which the text of a decimal is read. -/
def partsOf (d : Decimal) : Nat × Int :=
  if 0 ≤ d.exponent ∧ d.exponent + (Nat.toDigits 10 d.digits).length - 1 < 16 then
    (d.digits * 10 ^ (d.exponent.toNat + 1), -1)
  else (d.digits, d.exponent)

theorem afterDigits_of_stops (stops : stopsNumber rest = true) (pos : Position)
    (positive : Bool) (sig : Nat) (exponent : Int) :
    afterDigits ⟨rest, pos⟩ positive sig exponent =
      doubleOfParts ⟨rest, pos⟩ positive sig exponent := by
  unfold afterDigits
  cases rest with
  | nil => rfl
  | cons =>
    simp only [stopsNumber, Bool.and_eq_true, bne_iff_ne] at stops
    grind [peek?_cons]

variable {fs : List Char}

theorem numberRest_point (digits : ∀ c ∈ fs, c.isDigit = true) (some : fs ≠ [])
    {sig : Nat} (fits : Nat.ofDigitChars 10 fs sig ≤ significandMax)
    (stops : stopsDigits rest = true) (pos : Position) (positive : Bool) :
    numberRest ⟨'.' :: fs ++ rest, pos⟩ positive sig 0 =
      afterDigits ⟨rest, endPos ('.' :: fs) pos⟩ positive (Nat.ofDigitChars 10 fs sig) (-fs.length) := by
  have taken := takeDigits_append digits stops (Cursor.after pos '.') sig 0 fits
  have length : fs.length ≠ 0 := by simpa using some
  simp only [List.cons_append, numberRest, peek?_cons, fractionPart, skip_cons, taken,
    skipDigits_of_stops stops, Nat.zero_add, endPos_cons]
  simp [length]

def spellExponent (lead : Int) : List Char :=
  'e' :: (if lead < 0 then '-' else '+') :: Nat.toDigits 10 lead.natAbs

variable {lead : Int}

theorem exponentPart_spell (small : lead.natAbs ≤ exponentMax)
    (stops : stopsNumber rest = true) (pos : Position) (positive : Bool) (sig : Nat) (start : Int) :
    exponentPart ⟨spellExponent lead ++ rest, pos⟩ positive sig start =
      doubleOfParts ⟨rest, endPos (spellExponent lead) pos⟩ positive sig (start + lead) := by
  obtain ⟨d, ds, text⟩ := List.exists_cons_of_ne_nil (Nat.toDigits_ne_nil (n := lead.natAbs) (b := 10))
  have digits := (numeral_toDigits lead.natAbs).digits
  have value := Nat.ofDigitChars_ten_toDigits (n := lead.natAbs)
  rw [text] at digits value
  rw [Nat.ofDigitChars_cons, Nat.mul_zero, Nat.zero_add] at value
  have hd : digit? d = some (d.toNat - '0'.toNat) := by
    simp [digit?, digits d List.mem_cons_self]
  have fits : Nat.ofDigitChars 10 ds (d.toNat - '0'.toNat) ≤ exponentMax := by
    rw [value]
    exact small
  have taken (p : Position) := takeDigits_append
    (fun c hc => digits c (List.mem_cons_of_mem d hc)) (stopsDigits_of_stopsNumber stops) p
    (d.toNat - '0'.toNat) 0 fits
  have last (p : Position) (sign : Bool) : exponentDigits ⟨ds ++ rest, p⟩ positive sign sig start
      (d.toNat - '0'.toNat) = doubleOfParts ⟨rest, endPos ds p⟩ positive sig
        (if sign then start + lead.natAbs else start - lead.natAbs) := by
    unfold exponentDigits
    simp only [taken, value]
    cases rest with
    | nil => rfl
    | cons =>
      simp only [stopsNumber, Bool.and_eq_true, Bool.not_eq_true'] at stops
      simp only [peek?_cons, stops.1.1.1, Bool.false_eq_true, if_false]
  unfold exponentPart spellExponent
  rw [text]
  by_cases negative : lead < 0
  · simp only [negative, if_true, List.cons_append, skip_cons, peek?_cons, hd, last, endPos_cons]
    simp only [Bool.false_eq_true, if_false]
    congr 1
    omega
  · simp only [negative, if_false, List.cons_append, skip_cons, peek?_cons, hd, last, endPos_cons,
      if_true]
    congr 1
    omega

theorem numberRest_exponent (pos : Position) (positive : Bool)
    (sig : Nat) : numberRest ⟨spellExponent lead ++ rest, pos⟩ positive sig 0 =
      exponentPart ⟨spellExponent lead ++ rest, pos⟩ positive sig 0 := rfl

theorem afterDigits_exponent (pos : Position) (positive : Bool) (sig : Nat) (exponent : Int) :
    afterDigits ⟨spellExponent lead ++ rest, pos⟩ positive sig exponent =
      exponentPart ⟨spellExponent lead ++ rest, pos⟩ positive sig exponent := rfl

theorem number_point (numeral : Numeral ds) (digits : ∀ c ∈ fs, c.isDigit = true) (some : fs ≠ [])
    (fits : Nat.ofDigitChars 10 (ds ++ fs) 0 ≤ significandMax) (stops : stopsDigits rest = true)
    (pos : Position) (positive : Bool) :
    number ⟨ds ++ '.' :: fs ++ rest, pos⟩ positive =
      afterDigits ⟨rest, endPos (ds ++ '.' :: fs) pos⟩ positive (Nat.ofDigitChars 10 (ds ++ fs) 0)
        (-fs.length) := by
  rw [Nat.ofDigitChars_append] at fits ⊢
  have whole : Nat.ofDigitChars 10 ds 0 ≤ significandMax := by
    refine Nat.le_trans ?_ fits
    rw [Nat.ofDigitChars_eq_ofDigitChars_zero (l := fs)]
    have := Nat.le_mul_of_pos_left (Nat.ofDigitChars 10 ds 0)
      (Nat.pow_pos (n := fs.length) (show 0 < 10 by decide))
    omega
  rw [List.append_assoc, number_append numeral whole (by rfl), numberRest_point digits some fits stops,
    endPos_append]

theorem number_scientific {d : Char} (digits : ∀ c ∈ d :: fs, c.isDigit = true)
    (fits : Nat.ofDigitChars 10 (d :: fs) 0 ≤ significandMax) (small : lead.natAbs ≤ exponentMax)
    (stops : stopsNumber rest = true) (pos : Position) (positive : Bool) :
    let text := d :: ((if fs.isEmpty then [] else '.' :: fs) ++ spellExponent lead)
    number ⟨text ++ rest, pos⟩ positive =
      doubleOfParts ⟨rest, endPos text pos⟩ positive (Nat.ofDigitChars 10 (d :: fs) 0)
        (-fs.length + lead) := by
  intro text
  have one : Numeral [d] :=
    ⟨fun c hc => by rw [List.mem_singleton.mp hc]; exact digits d (.head _), by simp, by simp⟩
  by_cases none : fs = []
  · subst none
    have shape : text ++ rest = [d] ++ (spellExponent lead ++ rest) := rfl
    rw [shape, number_append one fits rfl, numberRest_exponent, exponentPart_spell small stops]
    simp [text]
  · have shape : text ++ rest = [d] ++ '.' :: fs ++ (spellExponent lead ++ rest) := by
      simp [text, none]
    rw [shape, number_point one (fun c hc => digits c (List.mem_cons_of_mem d hc)) none fits rfl,
      afterDigits_exponent, exponentPart_spell small stops]
    simp [text, none]

/-- Decimals whose text is read digit by digit: few digits, a moderate exponent, and no zeros behind a
zero. -/
structure Legible (d : Decimal) : Prop where
  digits : d.digits < 10 ^ 18
  exponent : d.exponent.natAbs < 10 ^ 6
  zero : d.digits = 0 → d.exponent = 0

theorem Numeral.append_zeros (h : Numeral ds) {k : Nat} (lead : ds = ['0'] → k = 0) :
    Numeral (ds ++ List.replicate k '0') where
  digits c hc := by
    rcases List.mem_append.mp hc with hc | hc
    · exact h.digits c hc
    · rw [List.eq_of_mem_replicate hc]
      decide
  lead := by
    refine ⟨by simp [h.lead.1], fun first => ?_⟩
    rw [List.head?_append_of_ne_nil _ h.lead.1] at first
    have zero := h.lead.2 first
    rw [zero, lead zero]
    rfl

theorem Numeral.take (h : Numeral ds) {k : Nat} (some : 0 < k) :
    Numeral (ds.take k) where
  digits c hc := h.digits c (List.mem_of_mem_take hc)
  lead := by
    obtain ⟨k, rfl⟩ := Nat.exists_eq_succ_of_ne_zero (Nat.ne_of_gt some)
    obtain ⟨c, _, rfl⟩ := List.exists_cons_of_ne_nil h.lead.1
    refine ⟨by simp, fun first => ?_⟩
    have all := h.lead.2 (by simpa using first)
    simp_all

theorem toDigits_eq_zero (h : Nat.toDigits 10 n = ['0']) : n = 0 := by
  have value := Nat.ofDigitChars_ten_toDigits (n := n)
  rw [h] at value
  exact value.symm.trans (by decide)

theorem toList_toString (n : Nat) : (toString n).toList = Nat.toDigits 10 n := by
  rw [Nat.toString_eq_ofList_toDigits, String.toList_ofList]

/-- The text of a decimal is read as its significand and power of ten. -/
theorem number_render {d : Decimal} (h : Legible d) (stops : stopsNumber rest = true)
    (pos : Position) (positive : Bool) :
    number ⟨(d.render doubleFormat).toList ++ rest, pos⟩ positive =
      doubleOfParts ⟨rest, endPos (d.render doubleFormat).toList pos⟩ positive (partsOf d).1 (partsOf d).2 := by
  have value := Nat.ofDigitChars_ten_toDigits (n := d.digits)
  have numeral := numeral_toDigits d.digits
  have few : (Nat.toDigits 10 d.digits).length ≤ 18 :=
    (Nat.length_toDigits_le_iff (by decide) (by decide)).mpr h.digits
  have some : 0 < (Nat.toDigits 10 d.digits).length := Nat.length_toDigits_pos
  have zero : Nat.toDigits 10 d.digits = ['0'] → d.exponent = 0 := fun h' => h.zero (toDigits_eq_zero h')
  have below : d.digits < 10 ^ (Nat.toDigits 10 d.digits).length :=
    (Nat.length_toDigits_le_iff (by decide) some).mp (Nat.le_refl _)
  have size := h.digits
  have exponent := h.exponent
  have after := stopsDigits_of_stopsNumber stops
  unfold Decimal.render partsOf
  simp only [Bool.and_eq_true, decide_eq_true_eq]
  simp only [doubleFormat, ge_iff_le]
  generalize Nat.toDigits 10 d.digits = ds at *
  by_cases positional : -5 ≤ d.exponent + ds.length - 1 ∧ d.exponent + ds.length - 1 < 16
  · by_cases whole : 0 ≤ d.exponent
    · -- Digits, zeros and a fraction that is zero.
      obtain ⟨e, he⟩ := Int.eq_ofNat_of_zero_le whole
      have text : (String.ofList ds ++ zeros d.exponent.toNat ++ ".0").toList =
          (ds ++ List.replicate e '0') ++ '.' :: ['0'] := by
        simp [zeros, he]
      have read : Nat.ofDigitChars 10 (ds ++ List.replicate e '0' ++ ['0']) 0 =
          d.digits * 10 ^ (e + 1) := by
        rw [Nat.ofDigitChars_append, Nat.ofDigitChars_append, value,
          Nat.ofDigitChars_replicate_zero]
        simp only [Nat.ofDigitChars_cons, Nat.ofDigitChars_nil, Nat.pow_succ]
        grind
      have fits : d.digits * 10 ^ (e + 1) ≤ significandMax :=
        calc d.digits * 10 ^ (e + 1)
            ≤ 10 ^ ds.length * 10 ^ (e + 1) := Nat.mul_le_mul_right _ (Nat.le_of_lt below)
          _ = 10 ^ (ds.length + (e + 1)) := (Nat.pow_add ..).symm
          _ ≤ 10 ^ 17 := Nat.pow_le_pow_right (by decide) (by omega)
          _ ≤ significandMax := by decide
      rw [if_pos positional, if_pos whole, if_pos ⟨whole, positional.2⟩, text,
        number_point (numeral.append_zeros fun hz => by have := zero hz; omega) (by simp) (by simp)
          (by rw [read]; exact fits) after, afterDigits_of_stops stops, read, he]
      rfl
    · have fits : d.digits ≤ significandMax := by
        unfold significandMax
        omega
      rw [if_pos positional, if_neg whole]
      conv_rhs => rw [if_neg fun both : _ ∧ _ => whole both.1]
      by_cases inside : 0 ≤ d.exponent + ds.length - 1
      · -- The point stands between two digits.
        obtain ⟨k, hk⟩ := Int.eq_ofNat_of_zero_le (show 0 ≤ d.exponent + ds.length - 1 + 1 by omega)
        have split : ds.take k ++ ds.drop k = ds := List.take_append_drop k ds
        have text : (String.ofList (ds.take k) ++ "." ++ String.ofList (ds.drop k)).toList =
            ds.take k ++ '.' :: ds.drop k := by
          simp
        have after_point : ds.drop k ≠ [] := by
          rw [ne_eq, List.drop_eq_nil_iff]
          omega
        rw [if_pos inside, hk, Int.toNat_natCast, text,
          number_point (numeral.take (by omega)) (fun c hc => numeral.digits c (List.mem_of_mem_drop hc))
            after_point (by rw [split, value]; exact fits) after,
          afterDigits_of_stops stops, split, value, List.length_drop]
        congr 1
        omega
      · -- Zeros stand between the point and the digits.
        obtain ⟨k, hk⟩ := Int.eq_ofNat_of_zero_le (show 0 ≤ -(d.exponent + ds.length - 1) - 1 by omega)
        have text : ("0." ++ zeros k ++ String.ofList ds).toList =
            ['0'] ++ '.' :: (List.replicate k '0' ++ ds) := by
          simp [zeros]
        have read : Nat.ofDigitChars 10 (['0'] ++ (List.replicate k '0' ++ ds)) 0 = d.digits := by
          rw [Nat.ofDigitChars_append, Nat.ofDigitChars_append, ← value]
          congr 1
          rw [Nat.ofDigitChars_replicate_zero]
          simp [Nat.ofDigitChars_cons]
        have digits : ∀ c ∈ List.replicate k '0' ++ ds, c.isDigit = true := by
          intro c hc
          rcases List.mem_append.mp hc with hc | hc
          · rw [List.eq_of_mem_replicate hc]
            decide
          · exact numeral.digits c hc
        rw [if_neg inside, hk, Int.toNat_natCast, text,
          number_point ⟨by simp, by simp⟩ digits (by simp [numeral.lead.1])
            (by rw [read]; exact fits) after, afterDigits_of_stops stops, read]
        congr 1
        simp
        omega
  · rw [if_neg positional]
    conv_rhs => rw [if_neg fun both : _ ∧ _ => positional ⟨by omega, both.2⟩]
    -- One digit, the others behind a point, and the power of ten.
    obtain ⟨c, cs, rfl⟩ := List.exists_cons_of_ne_nil numeral.lead.1
    generalize lead_eq : d.exponent + (c :: cs).length - 1 = lead
    have text : (String.ofList ((c :: cs).take 1) ++
          (if ((c :: cs).drop 1).isEmpty then "" else "." ++ String.ofList ((c :: cs).drop 1)) ++
          "e" ++ (if lead < 0 then "-" else "+") ++ toString lead.natAbs).toList =
        c :: ((if cs.isEmpty then [] else '.' :: cs) ++ spellExponent lead) := by
      simp only [spellExponent, List.take_succ_cons, List.take_zero, List.drop_succ_cons, List.drop_zero]
      split <;> split <;> simp
    have fits : Nat.ofDigitChars 10 (c :: cs) 0 ≤ significandMax := by
      unfold significandMax
      omega
    have small : lead.natAbs ≤ exponentMax := by
      unfold exponentMax
      omega
    have exponent : -(cs.length : Int) + lead = d.exponent := by
      rw [← lead_eq, List.length_cons]
      omega
    rw [text, number_scientific numeral.digits fits small stops, value, exponent]

end Json

theorem Double.legible_shortest {d : Double} (finite : d.isFinite = true) : Json.Legible d.shortest := by
  cases zero : d.isZero with
  | true =>
    have shape : d.shortest = ⟨0, 0⟩ := by rw [shortest, zero]; rfl
    rw [shape]
    exact ⟨by decide, by decide, fun _ => rfl⟩
  | false =>
    have some := shortest_digits_pos finite zero
    obtain ⟨_, _, k, -, _, _, _, _, _⟩ := shortest_spec finite zero
    refine ⟨?_, by omega, by omega⟩
    calc d.shortest.digits ≤ d.shortest.digits * 10 ^ k :=
          Nat.le_mul_of_pos_right _ (Nat.pow_pos (by decide))
      _ < 10 ^ 18 := by omega

namespace Json

theorem scale_neg : ∀ (fuel : Nat) (f : Double) {e : Int}, e < 0 → (scale fuel f e).isSome = true
  | 0, _, _, _ => rfl
  | fuel + 1, f, e, _ => by
    unfold scale
    simp only
    split_ifs
    all_goals first | rfl | omega | exact scale_neg fuel _ (by omega)

theorem scale_top (negative : Bool) :
    let d₁ := Double.ofMagnitude negative (Double.infinityBits - 1)
    let d₂ := Double.ofMagnitude negative (Double.infinityBits - 2)
    (scale 5 (Double.ofNat d₁.shortest.digits) d₁.shortest.exponent).isSome = true ∧
    (scale 5 (Double.ofNat d₂.shortest.digits) d₂.shortest.exponent).isSome = true := by
  cases negative <;> decide +kernel

theorem scale_whole {d : Double} (finite : d.isFinite = true) (some : d.isZero = false)
    (whole : 0 ≤ d.shortest.exponent) :
    (scale 5 (Double.ofNat d.shortest.digits) d.shortest.exponent).isSome = true := by
  by_cases low : d.magnitude < Double.infinityBits - 2
  · obtain ⟨q, hq⟩ := Int.eq_ofNat_of_zero_le whole
    have room := Double.shortest_room some low hq
    have pos := Double.shortest_digits_pos finite some
    have bounded := Double.exponent_le_of_room pos room
    have below : d.shortest.digits * 10 ^ q * Double.denominator < Double.overflow :=
      Nat.lt_of_le_of_lt room (Nat.mul_lt_mul_of_pos_right (by decide) Double.halfUlp_pos)
    have product := Double.isFinite_mul_ofNat (a := d.shortest.digits) (b := 10 ^ q)
      (Nat.lt_of_le_of_lt (Nat.mul_le_mul_right _ (Nat.le_mul_of_pos_right _ (Nat.pow_pos (by decide))))
        below)
      (Nat.lt_of_le_of_lt (Nat.mul_le_mul_right _ (Nat.le_mul_of_pos_left _ pos)) below) room
    rw [hq]
    unfold scale
    simp only [Int.natAbs_natCast, bounded, if_true, ge_iff_le, Int.natCast_nonneg, product]
    rfl
  · have small : d.magnitude < Double.infinityBits := of_decide_eq_true finite
    have top := scale_top d.isNegative
    have last : d.magnitude = Double.infinityBits - 1 ∨ d.magnitude = Double.infinityBits - 2 := by
      omega
    rcases last with last | last <;> rw [← last, d.ofMagnitude_magnitude] at top
    · exact top.1
    · exact top.2

theorem scale_shortest {d : Double} (finite : d.isFinite = true) :
    (scale 5 (Double.ofNat (partsOf d.shortest).1) (partsOf d.shortest).2).isSome = true := by
  cases zero : d.isZero with
  | true =>
    have shape : d.shortest = ⟨0, 0⟩ := by rw [Double.shortest, zero]; rfl
    rw [shape]
    decide +kernel
  | false =>
    unfold partsOf
    split_ifs with positional
    · exact scale_neg 5 _ (Int.negSucc_lt_zero 0)
    · by_cases whole : 0 ≤ d.shortest.exponent
      · exact scale_whole finite zero whole
      · exact scale_neg 5 _ (Int.lt_of_not_ge whole)

end Json

end Switchboard
