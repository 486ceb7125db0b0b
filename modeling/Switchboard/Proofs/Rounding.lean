import Mathlib.Data.List.Basic
import Mathlib.Tactic.NormNum
import Mathlib.Tactic.Ring
import Switchboard.Number.Shortest

/-!
# Rounding, and the shortest decimal of a double

`Rounds` says what `Double.ofRatio` does: the ratio in units of a power of two, rounded, with at most 53
bits. From it come the two facts that matter for reading a number back: a ratio below the overflow bound
rounds to a finite double, and rounding an integer enlarges it by at most one part in `2 ^ 53`.

The shortest decimal of a double lies in its rounding interval and has at most 17 digits, because a grid
of 17 digits is finer than the interval. So, except for the two largest doubles, its digits and its power
of ten can be rounded and multiplied without overflow.
-/

namespace Switchboard

namespace Double

/-! ## Rounding a ratio -/

theorem two_mul_roundDiv_le (num den : Nat) :
    2 * (den * roundDiv num den) ≤ 2 * num + den := by
  have split := Nat.div_add_mod num den
  unfold roundDiv
  simp only [Bool.or_eq_true, decide_eq_true_eq, Bool.and_eq_true, beq_iff_eq]
  split_ifs with up
  · rw [Nat.mul_add]
    omega
  · omega

variable {den num : Nat}

theorem roundDiv_le {bound : Nat} (le : 2 * num < den * (2 * bound + 1)) :
    roundDiv num den ≤ bound := by
  have upper := two_mul_roundDiv_le num den
  by_contra more
  have := Nat.mul_le_mul_left den (show bound + 1 ≤ roundDiv num den by omega)
  have e1 : den * (2 * bound + 1) = 2 * (den * bound) + den := by ring
  have e2 : den * (bound + 1) = den * bound + den := by ring
  omega

theorem le_roundDiv {bound : Nat} (h : 0 < den) (le : den * bound ≤ num) :
    bound ≤ roundDiv num den := by
  have : bound ≤ num / den := (Nat.le_div_iff_mul_le h).mpr (by rw [Nat.mul_comm]; exact le)
  unfold roundDiv
  simp only
  split_ifs <;> omega

/-- The rounding that makes a double: a number of units of `2 ^ (shift - 1074)`, at most `2 ^ 53` of
them, and at least half as many unless the unit is the smallest one. -/
structure Rounds (num den shift mantissa : Nat) : Prop where
  below : num * denominator < 2 ^ 53 * (den * 2 ^ shift)
  above : shift = 0 ∨ 2 ^ 52 * (den * 2 ^ shift) ≤ num * denominator
  rounded : mantissa = roundDiv (num * denominator) (den * 2 ^ shift)

theorem denominator_eq_pow : ∃ t, t = 1074 ∧ denominator = 2 ^ t := by
  unfold denominator
  generalize 1074 = t
  exact ⟨t, rfl, rfl⟩

variable {t : Nat}

theorem lt_unit {rough : Nat} (hd : 0 < den) (le : num.log2 + t - den.log2 - 53 ≤ rough) :
    num * 2 ^ t < 2 ^ 54 * (den * 2 ^ rough) :=
  calc num * 2 ^ t
      < 2 ^ (num.log2 + 1) * 2 ^ t :=
        Nat.mul_lt_mul_of_pos_right Nat.lt_log2_self (Nat.pow_pos (Nat.zero_lt_succ 1))
    _ = 2 ^ (num.log2 + 1 + t) := (Nat.pow_add ..).symm
    _ ≤ 2 ^ (54 + (den.log2 + rough)) := Nat.pow_le_pow_right (by decide) (by omega)
    _ = 2 ^ 54 * (2 ^ den.log2 * 2 ^ rough) := by rw [Nat.pow_add, Nat.pow_add]
    _ ≤ 2 ^ 54 * (den * 2 ^ rough) :=
        Nat.mul_le_mul_left _ (Nat.mul_le_mul_right _ (Nat.log2_self_le (by omega)))

theorem unit_le {rough : Nat} (hn : 0 < num) (le : rough ≤ num.log2 + t - den.log2 - 53) (some : rough ≠ 0) :
    2 ^ 52 * (den * 2 ^ rough) ≤ num * 2 ^ t :=
  calc 2 ^ 52 * (den * 2 ^ rough)
      ≤ 2 ^ 52 * (2 ^ (den.log2 + 1) * 2 ^ rough) :=
        Nat.mul_le_mul_left _ (Nat.mul_le_mul_right _ (Nat.le_of_lt Nat.lt_log2_self))
    _ = 2 ^ (52 + (den.log2 + 1 + rough)) := by rw [← Nat.pow_add, ← Nat.pow_add]
    _ ≤ 2 ^ (num.log2 + t) := Nat.pow_le_pow_right (by decide) (by omega)
    _ = 2 ^ num.log2 * 2 ^ t := Nat.pow_add ..
    _ ≤ num * 2 ^ t := Nat.mul_le_mul_right _ (Nat.log2_self_le (by omega))

theorem ofRatio_eq (negative : Bool) (hn : 0 < num) (hd : 0 < den) :
    ∃ shift mantissa, Rounds num den shift mantissa ∧
      ofRatio negative num den = ofMagnitude negative (min infinityBits (shift * 2 ^ 52 + mantissa)) := by
  unfold ofRatio
  rw [if_neg (by simp; omega)]
  generalize rough_eq : num.log2 + 1074 - den.log2 - 53 = rough
  have pos : 0 < den * 2 ^ rough := Nat.mul_pos hd (Nat.pow_pos (by decide))
  obtain ⟨_, ht, power⟩ := denominator_eq_pow
  rw [← ht] at rough_eq
  have four := lt_unit hd (Nat.le_of_eq rough_eq)
  rw [← power] at four
  have double : den * 2 ^ (rough + 1) = 2 * (den * 2 ^ rough) := by ring
  refine ⟨_, _, ⟨?_, ?_, rfl⟩, rfl⟩
  · split_ifs with small
    · exact (Nat.div_lt_iff_lt_mul pos).mp small
    · omega
  · split_ifs with small
    · exact (Nat.eq_zero_or_pos rough).imp id fun _ =>
        power ▸ unit_le hn (Nat.le_of_eq rough_eq.symm) (by omega)
    · have := (Nat.le_div_iff_mul_le pos).mp (Nat.le_of_not_lt small)
      omega

variable {mantissa shift : Nat}

theorem Rounds.mantissa_le (h : Rounds num den shift mantissa) :
    mantissa ≤ 2 ^ 53 := by
  rw [h.rounded]
  apply roundDiv_le
  have := h.below
  omega

theorem Rounds.le_mantissa (h : Rounds num den shift mantissa)
    (hd : 0 < den) (some : shift ≠ 0) : 2 ^ 52 ≤ mantissa := by
  rw [h.rounded]
  apply le_roundDiv (Nat.mul_pos hd (Nat.pow_pos (by decide)))
  have := h.above.resolve_left some
  rw [Nat.mul_comm]
  exact this

theorem magnitude_ofMagnitude (negative : Bool) {m : Nat} (h : m < signBit) :
    (ofMagnitude negative m).magnitude = m := by
  unfold ofMagnitude magnitude signBit at *
  split_ifs
  · simp only [Nat.toUInt64_eq, UInt64.toNat_ofNat']
    omega
  · simp only [Nat.toUInt64_eq, UInt64.toNat_ofNat']
    omega

theorem numerator_ofRatio (h : Rounds num den shift mantissa)
    (hd : 0 < den) (negative : Bool) (finite : shift * 2 ^ 52 + mantissa < infinityBits) :
    (ofMagnitude negative (min infinityBits (shift * 2 ^ 52 + mantissa))).numerator =
      mantissa * 2 ^ shift := by
  have le := h.mantissa_le
  have ge := h.le_mantissa hd
  unfold infinityBits at *
  rw [Nat.min_eq_right (Nat.le_of_lt finite)]
  unfold numerator significand exponent
  rw [magnitude_ofMagnitude _ (by unfold signBit; omega)]
  by_cases top : mantissa = 2 ^ 53
  · have field : (shift * 2 ^ 52 + mantissa) / 2 ^ 52 = shift + 2 := by omega
    have fraction : (shift * 2 ^ 52 + mantissa) % 2 ^ 52 = 0 := by omega
    rw [field, fraction, if_neg (by omega), top, show shift + 2 - 1 = shift + 1 from rfl]
    ring
  · grind

theorem Rounds.of_lt (h : Rounds num den shift mantissa)
    (small : num * denominator < den * ((2 ^ 54 - 1) * 2 ^ t)) :
    shift ≤ t ∨ shift = t + 1 ∧ mantissa < 2 ^ 53 := by
  rcases Nat.lt_trichotomy shift (t + 1) with low | top | high
  · exact Or.inl (Nat.le_of_lt_succ low)
  · refine Or.inr ⟨top, Nat.lt_of_le_of_lt (m := 2 ^ 53 - 1) ?_ (by decide)⟩
    rw [h.rounded]
    apply roundDiv_le
    have shape : den * 2 ^ shift * (2 * (2 ^ 53 - 1) + 1) = 2 * (den * ((2 ^ 54 - 1) * 2 ^ t)) := by
      grind
    rw [shape]
    exact Nat.mul_lt_mul_of_pos_left small Nat.two_pos
  · have above := h.above.resolve_left (by omega)
    have : den * ((2 ^ 54 - 1) * 2 ^ t) ≤ 2 ^ 52 * (den * 2 ^ shift) :=
      calc den * ((2 ^ 54 - 1) * 2 ^ t) ≤ den * (2 ^ 54 * 2 ^ t) :=
            Nat.mul_le_mul_left _ (Nat.mul_le_mul_right _ (Nat.sub_le ..))
        _ = 2 ^ 52 * (den * 2 ^ (t + 2)) := by ring
        _ ≤ 2 ^ 52 * (den * 2 ^ shift) :=
            Nat.mul_le_mul_left _ (Nat.mul_le_mul_left _ (Nat.pow_le_pow_right (by decide) high))
    omega

def halfUlp : Nat := 2 ^ 2044

theorem halfUlp_eq_pow : ∃ t, t = 2044 ∧ halfUlp = 2 ^ t := ⟨_, rfl, halfUlp.eq_1⟩

def overflow : Nat := (2 ^ 54 - 1) * halfUlp

theorem denominator_pos : 0 < denominator := by
  obtain ⟨t, -, power⟩ := denominator_eq_pow
  rw [power]
  exact Nat.two_pow_pos t

theorem halfUlp_pos : 0 < halfUlp := by
  obtain ⟨t, -, power⟩ := halfUlp_eq_pow
  rw [power]
  exact Nat.two_pow_pos t

theorem finite_of_lt (h : Rounds num den shift mantissa)
    (small : num * denominator < den * overflow) : shift * 2 ^ 52 + mantissa < infinityBits := by
  have le := h.mantissa_le
  obtain ⟨_, _, power⟩ := halfUlp_eq_pow
  rw [overflow, power] at small
  have range := h.of_lt small
  unfold infinityBits
  omega

theorem isFinite_ofMagnitude (negative : Bool) {m : Nat} (h : m < infinityBits) :
    (ofMagnitude negative m).isFinite = true := by
  unfold isFinite
  rw [magnitude_ofMagnitude _ (Nat.lt_trans h (by decide))]
  exact decide_eq_true h

theorem isFinite_ofRatio (negative : Bool) (hd : 0 < den)
    (small : num * denominator < den * overflow) : (ofRatio negative num den).isFinite = true := by
  rcases Nat.eq_zero_or_pos num with rfl | hn
  · exact isFinite_ofMagnitude negative (by decide)
  · obtain ⟨_, _, rounds, eq⟩ := ofRatio_eq negative hn hd
    have finite := finite_of_lt rounds small
    rw [eq, Nat.min_eq_right (Nat.le_of_lt finite)]
    exact isFinite_ofMagnitude negative finite

variable {n : Nat}

theorem numerator_ofNat_le (small : n * denominator < overflow) :
    (ofNat n).numerator * 2 ^ 53 ≤ n * denominator * (2 ^ 53 + 1) := by
  rcases Nat.eq_zero_or_pos n with rfl | hn
  · rw [show (ofNat 0).numerator = 0 by decide]
    simp
  · obtain ⟨shift, mantissa, rounds, eq⟩ := ofRatio_eq false hn Nat.one_pos
    rw [ofNat, eq, numerator_ofRatio rounds Nat.one_pos false (finite_of_lt rounds (by simpa using small))]
    have upper := two_mul_roundDiv_le (n * denominator) (1 * 2 ^ shift)
    have above := rounds.above
    rw [← rounds.rounded] at upper
    have some : shift ≠ 0 := by
      rintro rfl
      obtain ⟨t, _, power⟩ := denominator_eq_pow
      have large : 2 ^ 53 ≤ n * denominator :=
        calc 2 ^ 53 ≤ 2 ^ t := Nat.pow_le_pow_right Nat.two_pos (by omega)
          _ = denominator := power.symm
          _ ≤ n * denominator := Nat.le_mul_of_pos_left _ hn
      have below := rounds.below
      omega
    rw [Nat.one_mul] at *
    have swap : mantissa * 2 ^ shift = 2 ^ shift * mantissa := Nat.mul_comm ..
    omega

variable {a b : Nat}

theorem two_roundings_lt {f g unit : Nat} (pos : 0 < unit * (den * den))
    (hf : f * 2 ^ 53 ≤ a * den * (2 ^ 53 + 1)) (hg : g * 2 ^ 53 ≤ b * den * (2 ^ 53 + 1))
    (small : a * b * den ≤ (2 ^ 54 - 5) * unit) :
    f * g * den < den * den * ((2 ^ 54 - 1) * unit) := by
  have gap : (2 ^ 54 - 5) * (2 ^ 53 + 1) ^ 2 < (2 ^ 54 - 1) * 2 ^ 106 := by norm_num
  generalize 2 ^ 54 - 5 = low at *
  generalize 2 ^ 54 - 1 = high at *
  apply Nat.lt_of_mul_lt_mul_right (a := 2 ^ 106)
  calc f * g * den * 2 ^ 106
      = (f * 2 ^ 53) * (g * 2 ^ 53) * den := by ring
    _ ≤ (a * den * (2 ^ 53 + 1)) * (b * den * (2 ^ 53 + 1)) * den :=
        Nat.mul_le_mul_right _ (Nat.mul_le_mul hf hg)
    _ = a * b * den * (den * den * (2 ^ 53 + 1) ^ 2) := by ring
    _ ≤ low * unit * (den * den * (2 ^ 53 + 1) ^ 2) := Nat.mul_le_mul_right _ small
    _ = low * (2 ^ 53 + 1) ^ 2 * (unit * (den * den)) := by ring
    _ < high * 2 ^ 106 * (unit * (den * den)) := Nat.mul_lt_mul_of_pos_right gap pos
    _ = den * den * (high * unit) * 2 ^ 106 := by ring

/-- A product stays finite when the exact one is below the overflow bound by more than two roundings
can make up for. -/
theorem isFinite_mul_ofNat (ha : a * denominator < overflow) (hb : b * denominator < overflow)
    (small : a * b * denominator ≤ (2 ^ 54 - 5) * halfUlp) :
    ((ofNat a).mul (ofNat b)).isFinite = true := by
  have finite : ∀ {n}, n * denominator < overflow → (ofNat n).isFinite = true :=
    fun h => isFinite_ofRatio false Nat.one_pos (by simpa using h)
  have pos := denominator_pos
  unfold mul
  rw [finite ha, finite hb]
  simp only [Bool.not_true, Bool.or_self, Bool.false_eq_true, if_false]
  refine isFinite_ofRatio _ (Nat.mul_pos pos pos) ?_
  rw [overflow]
  exact two_roundings_lt (Nat.mul_pos halfUlp_pos (Nat.mul_pos pos pos))
    (numerator_ofNat_le ha) (numerator_ofNat_le hb) small

/-! ## Decimals on a grid -/

theorem significand_lt (d : Double) : d.significand < 2 ^ 53 := by
  unfold significand
  simp only
  split <;> omega

variable {d : Double}

theorem significand_pos (h : d.isZero = false) : 0 < d.significand := by
  grind [isZero, significand]

theorem exponent_le (h : d.isFinite = true) : d.exponent ≤ 2045 := by
  have small : d.magnitude < infinityBits := of_decide_eq_true h
  unfold infinityBits at small
  unfold exponent
  omega

theorem two_pow_eq_denominator : 2 ^ 1076 = 4 * denominator := by
  obtain ⟨t, ht, power⟩ := denominator_eq_pow
  rw [power, show 1076 = 2 + t by omega]
  exact Nat.pow_add 2 2 t

theorem onGrid_eq (d : Double) (p : Int) (x : Nat) :
    d.onGrid p x = (x * (2 ^ d.exponent * 10 ^ (-p).toNat), 4 * denominator * 10 ^ p.toNat) := by
  unfold onGrid
  simp only [two_pow_eq_denominator]
  split_ifs with h
  · rw [show (-p).toNat = 0 by omega, Nat.pow_zero, Nat.mul_one]
  · rw [show p.toNat = 0 by omega, Nat.pow_zero, Nat.mul_one, Nat.mul_assoc]

theorem ten_pow_shift (x : Int) (k : Nat) :
    10 ^ (x + k).toNat * 10 ^ (-x).toNat = 10 ^ k * 10 ^ x.toNat * 10 ^ (-(x + k)).toNat := by
  rw [← Nat.pow_add, ← Nat.pow_add, ← Nat.pow_add]
  congr 1
  omega

theorem width_pos (n : Nat) : 0 < Decimal.width n := Nat.length_toDigits_pos

theorem lt_ten_pow_width (n : Nat) : n < 10 ^ Decimal.width n :=
  (Nat.length_toDigits_le_iff (by decide) Nat.length_toDigits_pos).mp (Nat.le_refl _)

theorem ten_pow_width_le (h : 0 < n) : 10 ^ (Decimal.width n - 1) ≤ n := by
  by_contra less
  rcases Nat.eq_zero_or_pos (Decimal.width n - 1) with zero | some
  · rw [zero] at less
    omega
  · have := (Nat.length_toDigits_le_iff (by decide) some).mpr (Nat.lt_of_not_le less)
    unfold Decimal.width at *
    omega

/-- `10 ^ L ≤ a / b < 10 ^ (L + 1)`, over the naturals. -/
structure Leads (a b : Nat) (L : Int) : Prop where
  lower : b * 10 ^ L.toNat ≤ a * 10 ^ (-L).toNat
  upper : a * 10 ^ (-(L + 1)).toNat < b * 10 ^ (L + 1).toNat

theorem leads_of_width {wn wd : Nat} {guess : Int} (guess_eq : guess = (wn : Int) - wd)
    (wn_pos : 0 < wn) (wd_pos : 0 < wd) (num_lt : num < 10 ^ wn) (num_le : 10 ^ (wn - 1) ≤ num)
    (den_lt : den < 10 ^ wd) (den_le : 10 ^ (wd - 1) ≤ den) :
    Leads num den (if den * 10 ^ guess.toNat ≤ num * 10 ^ (-guess).toNat then guess else guess - 1) := by
  split_ifs with reaches
  · refine ⟨reaches, ?_⟩
    calc num * 10 ^ (-(guess + 1)).toNat
        < 10 ^ wn * 10 ^ (-(guess + 1)).toNat :=
          Nat.mul_lt_mul_of_pos_right num_lt (Nat.pow_pos (by decide))
      _ = 10 ^ (wd - 1) * 10 ^ (guess + 1).toNat := by
          rw [← Nat.pow_add, ← Nat.pow_add, show wn + (-(guess + 1)).toNat = wd - 1 + (guess + 1).toNat by omega]
      _ ≤ den * 10 ^ (guess + 1).toNat := Nat.mul_le_mul_right _ den_le
  · refine ⟨?_, ?_⟩
    · calc den * 10 ^ (guess - 1).toNat
          ≤ 10 ^ wd * 10 ^ (guess - 1).toNat := Nat.mul_le_mul_right _ (Nat.le_of_lt den_lt)
        _ = 10 ^ (wn - 1) * 10 ^ (-(guess - 1)).toNat := by
            rw [← Nat.pow_add, ← Nat.pow_add,
              show wd + (guess - 1).toNat = wn - 1 + (-(guess - 1)).toNat by omega]
        _ ≤ num * 10 ^ (-(guess - 1)).toNat := Nat.mul_le_mul_right _ num_le
    · rw [Int.sub_add_cancel]
      exact Nat.lt_of_not_le reaches

theorem leads_decimalExponent (h : 0 < d.numerator) :
    Leads d.numerator denominator d.decimalExponent := by
  have leads := leads_of_width rfl (width_pos d.numerator) (width_pos denominator)
    (lt_ten_pow_width d.numerator) (ten_pow_width_le h) (lt_ten_pow_width denominator)
    (ten_pow_width_le denominator_pos)
  unfold decimalExponent
  simp only
  rw [show d.significand * 2 ^ d.exponent = d.numerator from rfl]
  generalize denominator = den at *
  generalize d.numerator = num at *
  generalize (Decimal.width num : Int) - Decimal.width den = guess at *
  convert leads using 2
  split_ifs with h
  · rw [show (-guess).toNat = 0 by omega, Nat.pow_zero, Nat.mul_one]
    exact decide_eq_true_iff
  · rw [show guess.toNat = 0 by omega, Nat.pow_zero, Nat.mul_one]
    exact decide_eq_true_iff

variable {p : Int} {k : Nat}

theorem Leads.le_grid (h : Leads a b (p + k)) :
    10 ^ k * (b * 10 ^ p.toNat) ≤ a * 10 ^ (-p).toNat := by
  apply Nat.le_of_mul_le_mul_right (c := 10 ^ (-(p + k)).toNat) _ (Nat.pow_pos (by decide))
  have shift := ten_pow_shift p k
  calc 10 ^ k * (b * 10 ^ p.toNat) * 10 ^ (-(p + k)).toNat
      = b * (10 ^ k * 10 ^ p.toNat * 10 ^ (-(p + k)).toNat) := by ring
    _ = b * 10 ^ (p + k).toNat * 10 ^ (-p).toNat := by rw [← shift, Nat.mul_assoc]
    _ ≤ a * 10 ^ (-(p + k)).toNat * 10 ^ (-p).toNat := Nat.mul_le_mul_right _ h.lower
    _ = a * 10 ^ (-p).toNat * 10 ^ (-(p + k)).toNat := by ring

theorem Leads.grid_lt {L : Int} (h : Leads a b L) (eq : L + 1 = p + k) :
    a * 10 ^ (-p).toNat < 10 ^ k * (b * 10 ^ p.toNat) := by
  apply Nat.lt_of_mul_lt_mul_right (a := 10 ^ (-(p + k)).toNat)
  have shift := ten_pow_shift p k
  have upper := h.upper
  rw [eq] at upper
  calc a * 10 ^ (-p).toNat * 10 ^ (-(p + k)).toNat
      = a * 10 ^ (-(p + k)).toNat * 10 ^ (-p).toNat := by ring
    _ < b * 10 ^ (p + k).toNat * 10 ^ (-p).toNat :=
        Nat.mul_lt_mul_of_pos_right upper (Nat.pow_pos (by decide))
    _ = b * (10 ^ k * 10 ^ p.toNat * 10 ^ (-(p + k)).toNat) := by rw [← shift, Nat.mul_assoc]
    _ = 10 ^ k * (b * 10 ^ p.toNat) * 10 ^ (-(p + k)).toNat := by ring

variable {c : Nat}

theorem bounds_of_reads (h : d.reads p c = true) :
    (d.onGrid p d.interval.lower).1 ≤ c * (d.onGrid p d.interval.lower).2 ∧
      c * (d.onGrid p d.interval.upper).2 ≤ (d.onGrid p d.interval.upper).1 := by
  unfold reads at h
  simp only at h
  split_ifs at h
  · simpa using h
  · grind

theorem reads_of_lt (lower : (d.onGrid p d.interval.lower).1 < c * (d.onGrid p d.interval.lower).2)
    (upper : c * (d.onGrid p d.interval.upper).2 < (d.onGrid p d.interval.upper).1) :
    d.reads p c = true := by
  unfold reads
  simp only
  split_ifs <;> simp only [Bool.and_eq_true, decide_eq_true_eq] <;> omega

theorem nearestOnGrid?_spec (h : d.nearestOnGrid? p = some c) :
    d.reads p c = true ∧
      c ≤ (d.onGrid p d.interval.value).1 / (d.onGrid p d.interval.value).2 + 1 := by
  grind [nearestOnGrid?]

theorem value_lt_width (h : 0 < d.significand) :
    d.interval.value < 10 ^ 16 * (d.interval.upper - d.interval.lower) := by
  have := d.significand_lt
  unfold interval
  simp only
  split_ifs with narrow
  · grind
  · omega

theorem lower_le_value (d : Double) : d.interval.lower ≤ d.interval.value := Nat.sub_le ..

theorem value_lt_upper (d : Double) : d.interval.value < d.interval.upper := by
  unfold interval
  simp

theorem reads_low_or_high (low : Nat) (fine : 4 * denominator * 10 ^ p.toNat <
      (d.interval.upper - d.interval.lower) * (2 ^ d.exponent * 10 ^ (-p).toNat))
    (le : low * (d.onGrid p d.interval.value).2 ≤ (d.onGrid p d.interval.value).1)
    (lt : (d.onGrid p d.interval.value).1 < (low + 1) * (d.onGrid p d.interval.value).2) :
    d.reads p low = true ∨ d.reads p (low + 1) = true := by
  have unit_pos : 0 < 2 ^ d.exponent * 10 ^ (-p).toNat :=
    Nat.mul_pos (Nat.pow_pos (by decide)) (Nat.pow_pos (by decide))
  have lower := Nat.mul_le_mul_right (2 ^ d.exponent * 10 ^ (-p).toNat) d.lower_le_value
  have upper := Nat.mul_lt_mul_of_pos_right d.value_lt_upper unit_pos
  rw [Nat.sub_mul] at fine
  simp only [onGrid_eq] at le lt
  rw [Nat.add_mul, Nat.one_mul] at lt
  by_cases out : d.interval.lower * (2 ^ d.exponent * 10 ^ (-p).toNat) <
      low * (4 * denominator * 10 ^ p.toNat)
  · refine Or.inl (reads_of_lt ?_ ?_) <;> simp only [onGrid_eq]
    · exact out
    · exact Nat.lt_of_le_of_lt le upper
  · refine Or.inr (reads_of_lt ?_ ?_) <;> simp only [onGrid_eq, Nat.add_mul, Nat.one_mul]
    · exact Nat.lt_of_le_of_lt lower lt
    · grind

theorem nearestOnGrid?_isSome (pos : 0 < d.significand)
    (fine : 10 ^ 16 * (denominator * 10 ^ p.toNat) ≤ d.numerator * 10 ^ (-p).toNat) :
    ∃ c, d.nearestOnGrid? p = some c := by
  have wide := value_lt_width pos
  have unit_pos : 0 < 2 ^ d.exponent * 10 ^ (-p).toNat :=
    Nat.mul_pos (Nat.pow_pos (by decide)) (Nat.pow_pos (by decide))
  have grid_pos : 0 < 4 * denominator * 10 ^ p.toNat :=
    Nat.mul_pos (Nat.mul_pos (by decide) denominator_pos) (Nat.pow_pos (by decide))
  have finer : 4 * denominator * 10 ^ p.toNat <
      (d.interval.upper - d.interval.lower) * (2 ^ d.exponent * 10 ^ (-p).toNat) := by
    apply Nat.lt_of_mul_lt_mul_left (a := 10 ^ 16)
    calc 10 ^ 16 * (4 * denominator * 10 ^ p.toNat)
        = 4 * (10 ^ 16 * (denominator * 10 ^ p.toNat)) := by ring
      _ ≤ 4 * (d.numerator * 10 ^ (-p).toNat) := Nat.mul_le_mul_left _ fine
      _ = d.interval.value * (2 ^ d.exponent * 10 ^ (-p).toNat) := by
          unfold interval numerator
          ring
      _ < 10 ^ 16 * (d.interval.upper - d.interval.lower) * (2 ^ d.exponent * 10 ^ (-p).toNat) :=
          Nat.mul_lt_mul_of_pos_right wide unit_pos
      _ = _ := Nat.mul_assoc ..
  have some := reads_low_or_high
    ((d.onGrid p d.interval.value).1 / (d.onGrid p d.interval.value).2) finer
    (Nat.div_mul_le_self ..) (Nat.lt_mul_of_div_lt (Nat.lt_succ_self _) (by rw [onGrid_eq]; exact grid_pos))
  unfold nearestOnGrid?
  simp only
  split
  · split_ifs <;> exact ⟨_, rfl⟩
  · exact ⟨_, rfl⟩
  · exact ⟨_, rfl⟩
  · rename_i low high
    rw [low, high] at some
    simp at some

theorem trim_spec : ∀ (fuel : Nat) (d : Decimal), ∃ k, k ≤ fuel ∧
    (Decimal.trim fuel d).digits * 10 ^ k = d.digits ∧ (Decimal.trim fuel d).exponent = d.exponent + k
  | 0, d => ⟨0, Nat.le_refl 0, by simp [Decimal.trim], by simp [Decimal.trim]⟩
  | fuel + 1, d => by
    unfold Decimal.trim
    split_ifs with zero
    · obtain ⟨k, _, digits, exponent⟩ := trim_spec fuel ⟨d.digits / 10, d.exponent + 1⟩
      simp only [Bool.and_eq_true, bne_iff_ne, beq_iff_eq] at zero
      refine ⟨k + 1, by omega, ?_, by rw [exponent]; push_cast; ring⟩
      rw [Nat.pow_succ, ← Nat.mul_assoc, digits]
      simp only
      omega
    · exact ⟨0, by omega, by simp, by simp⟩

theorem nearestOnGrid?_le {lead : Int} {digits : Nat}
    (leads : Leads d.numerator denominator lead) (place : lead + 1 = p + digits)
    (h : d.nearestOnGrid? p = some c) : c ≤ 10 ^ digits := by
  have grid_pos : 0 < 4 * denominator * 10 ^ p.toNat :=
    Nat.mul_pos (Nat.mul_pos (by decide) denominator_pos) (Nat.pow_pos (by decide))
  refine Nat.le_trans (nearestOnGrid?_spec h).2 ?_
  rw [onGrid_eq]
  refine (Nat.div_lt_iff_lt_mul grid_pos).mpr ?_
  calc d.interval.value * (2 ^ d.exponent * 10 ^ (-p).toNat)
      = 4 * (d.numerator * 10 ^ (-p).toNat) := by
        unfold interval numerator
        ring
    _ < 4 * (10 ^ digits * (denominator * 10 ^ p.toNat)) :=
        Nat.mul_lt_mul_of_pos_left (leads.grid_lt place) (by decide)
    _ = 10 ^ digits * (4 * denominator * 10 ^ p.toNat) := by ring

theorem shortestFrom_spec {lead : Int} (pos : 0 < d.significand)
    (leads : Leads d.numerator denominator lead) (fuel : Nat) :
    ∀ digits, fuel + digits = 17 →
      ∃ p c, lead - 16 ≤ p ∧ p ≤ lead + 1 ∧ d.reads p c = true ∧ c ≤ 10 ^ 17 ∧
        d.shortestFrom lead (fuel + 1) digits = Decimal.trim 20 ⟨c, p⟩ := by
  induction fuel with
  | zero =>
    intro digits total
    have last : lead = (lead - digits + 1) + 16 := by omega
    obtain ⟨c, found⟩ := nearestOnGrid?_isSome pos (p := lead - digits + 1)
      (Leads.le_grid (k := 16) (by rw [last] at leads; exact leads))
    refine ⟨lead - digits + 1, c, by omega, by omega, (nearestOnGrid?_spec found).1, ?_, ?_⟩
    · exact Nat.le_trans (nearestOnGrid?_le leads (by omega) found)
        (Nat.pow_le_pow_right (by decide) (by omega : digits ≤ 17))
    · simp only [shortestFrom, found]
  | succ _ ih =>
    intro digits total
    cases found : d.nearestOnGrid? (lead - digits + 1) with
    | some c =>
      refine ⟨lead - digits + 1, c, by omega, by omega, (nearestOnGrid?_spec found).1, ?_, ?_⟩
      · exact Nat.le_trans (nearestOnGrid?_le leads (by omega) found)
          (Nat.pow_le_pow_right (by decide) (by omega : digits ≤ 17))
      · simp only [shortestFrom, found]
    | none =>
      obtain ⟨p, c, h⟩ := ih (digits + 1) (by omega)
      refine ⟨p, c, ?_⟩
      rw [shortestFrom, found]
      exact h

theorem width_le_of_lt_two_pow (h : n < 2 ^ k) : Decimal.width n ≤ k + 1 :=
  (Nat.length_toDigits_le_iff (by decide) (Nat.succ_pos k)).mpr
    (calc n < 2 ^ k := h
      _ ≤ 10 ^ k := Nat.pow_le_pow_left (by decide) k
      _ ≤ 10 ^ (k + 1) := Nat.pow_le_pow_right (by decide) (Nat.le_succ k))

theorem natAbs_decimalExponent_lt (finite : d.isFinite = true) :
    d.decimalExponent.natAbs < 3000 := by
  have exponent := exponent_le finite
  have num : Decimal.width (d.significand * 2 ^ d.exponent) ≤ 53 + d.exponent + 1 := by
    apply width_le_of_lt_two_pow
    rw [Nat.pow_add]
    exact Nat.mul_lt_mul_of_pos_right d.significand_lt (Nat.pow_pos (by decide))
  have den : Decimal.width denominator ≤ 1076 := by
    obtain ⟨t, _, power⟩ := denominator_eq_pow
    have := width_le_of_lt_two_pow (k := t + 1) (Nat.pow_lt_pow_right (by decide) (Nat.lt_succ_self t))
    rw [← power] at this
    omega
  unfold decimalExponent
  simp only
  split_ifs <;> omega

/-- The decimal of a finite double is a grid point of its rounding interval, without trailing zeros. -/
theorem shortest_spec (finite : d.isFinite = true) (some : d.isZero = false) :
    ∃ (p : Int) (c k : Nat), d.reads p c = true ∧ c ≤ 10 ^ 17 ∧ p.natAbs < 4000 ∧ k ≤ 20 ∧
      d.shortest.digits * 10 ^ k = c ∧ d.shortest.exponent = p + k := by
  have pos := significand_pos some
  have leads := leads_decimalExponent (d := d) (Nat.mul_pos pos (Nat.pow_pos (by decide)))
  have bounded := natAbs_decimalExponent_lt finite
  obtain ⟨p, c, _, _, reads, few, eq⟩ := shortestFrom_spec pos leads 16 1 rfl
  obtain ⟨k, le, digits, exponent⟩ := trim_spec 20 ⟨c, p⟩
  have shape : d.shortest = Decimal.trim 20 ⟨c, p⟩ := by
    rw [← eq, shortest, some]
    rfl
  exact ⟨p, c, k, reads, few, by omega, le, by rw [shape, digits], by rw [shape, exponent]⟩

theorem lower_pos (pos : 0 < d.significand) : 0 < d.interval.lower := by
  unfold interval
  simp only
  split_ifs <;> omega

theorem shortest_digits_pos (finite : d.isFinite = true) (some : d.isZero = false) :
    0 < d.shortest.digits := by
  obtain ⟨p, _, _, reads, -, -, -, digits, -⟩ := shortest_spec finite some
  have low := (bounds_of_reads reads).1
  rw [onGrid_eq] at low
  have pos : 0 < d.interval.lower * (2 ^ d.exponent * 10 ^ (-p).toNat) :=
    Nat.mul_pos (lower_pos (significand_pos some))
      (Nat.mul_pos (Nat.pow_pos (by decide)) (Nat.pow_pos (by decide)))
  by_contra zero
  rw [Nat.eq_zero_of_not_pos zero, Nat.zero_mul] at digits
  rw [← digits, Nat.zero_mul] at low
  omega

variable {q : Nat}

theorem shortest_le (finite : d.isFinite = true) (some : d.isZero = false) (whole : d.shortest.exponent = q) :
    d.shortest.digits * 10 ^ q * (4 * denominator) ≤ d.interval.upper * 2 ^ d.exponent := by
  obtain ⟨p, c, k, reads, -, -, -, digits, _⟩ := shortest_spec finite some
  have high := (bounds_of_reads reads).2
  rw [onGrid_eq, ← digits] at high
  have shift : 10 ^ k * 10 ^ p.toNat = 10 ^ q * 10 ^ (-p).toNat := by
    rw [← Nat.pow_add, ← Nat.pow_add, show k + p.toNat = q + (-p).toNat by omega]
  apply Nat.le_of_mul_le_mul_right (c := 10 ^ (-p).toNat) _ (Nat.pow_pos (by decide))
  calc d.shortest.digits * 10 ^ q * (4 * denominator) * 10 ^ (-p).toNat
      = d.shortest.digits * (10 ^ q * 10 ^ (-p).toNat) * (4 * denominator) := by ring
    _ = d.shortest.digits * 10 ^ k * (4 * denominator * 10 ^ p.toNat) := by rw [← shift]; ring
    _ ≤ d.interval.upper * (2 ^ d.exponent * 10 ^ (-p).toNat) := high
    _ = d.interval.upper * 2 ^ d.exponent * 10 ^ (-p).toNat := by ring

/-! ## The largest doubles -/

theorem ofMagnitude_magnitude (d : Double) : ofMagnitude d.isNegative d.magnitude = d := by
  obtain ⟨bits⟩ := d
  have size := bits.toNat_lt
  unfold ofMagnitude isNegative magnitude signBit
  congr 1
  apply UInt64.toNat_inj.mp
  simp only [decide_eq_true_eq]
  split_ifs <;> simp only [Nat.toUInt64_eq, UInt64.toNat_ofNat'] <;> omega

/-- Below the two largest doubles the decimal leaves room for two roundings. -/
theorem shortest_room (some : d.isZero = false) (low : d.magnitude < infinityBits - 2)
    (whole : d.shortest.exponent = q) :
    d.shortest.digits * 10 ^ q * denominator ≤ (2 ^ 54 - 5) * halfUlp := by
  have finite : d.isFinite = true := decide_eq_true (by unfold infinityBits at *; omega)
  have le := shortest_le finite some whole
  have exponent := exponent_le finite
  have significand := d.significand_lt
  have upper : d.interval.upper = 4 * d.significand + 2 := rfl
  rw [upper] at le
  obtain ⟨t, _, _⟩ := halfUlp_eq_pow
  have scaled : d.shortest.digits * 10 ^ q * (4 * denominator) =
      4 * (d.shortest.digits * 10 ^ q * denominator) := by ring
  generalize d.shortest.digits * 10 ^ q * denominator = x at *
  by_cases top : d.exponent = t + 1
  · grind [infinityBits, Double.exponent, Double.significand]
  · have := Nat.mul_le_mul (show 4 * d.significand + 2 ≤ 2 ^ 55 by omega)
      (Nat.pow_le_pow_right Nat.two_pos (show d.exponent ≤ t by omega))
    omega

theorem halfUlp_eq : ∃ e, e = 970 ∧ halfUlp = denominator * 2 ^ e := by
  obtain ⟨t, _, power⟩ := denominator_eq_pow
  obtain ⟨s, _, power'⟩ := halfUlp_eq_pow
  refine ⟨s - t, by omega, ?_⟩
  rw [power, power', ← Nat.pow_add, Nat.add_sub_cancel' (by omega)]

/-- The largest power of ten in a double. -/
theorem exponent_le_of_room (some : 0 < n)
    (room : n * 10 ^ q * denominator ≤ (2 ^ 54 - 5) * halfUlp) : q ≤ 308 := by
  have top : ∀ e f, e = 970 → f = 309 → (2 ^ 54 - 5) * 2 ^ e < 10 ^ f := by
    rintro _ _ rfl rfl
    decide +kernel
  by_contra more
  obtain ⟨e, he, halves⟩ := halfUlp_eq
  obtain ⟨f, hf⟩ : ∃ f, f = 309 := ⟨_, rfl⟩
  rw [halves, Nat.mul_comm denominator, ← Nat.mul_assoc] at room
  have bound := Nat.le_of_mul_le_mul_right room denominator_pos
  have large : 10 ^ f ≤ n * 10 ^ q :=
    Nat.le_trans (Nat.pow_le_pow_right (Nat.succ_pos 9) (by omega)) (Nat.le_mul_of_pos_left (10 ^ q) some)
  exact Nat.lt_irrefl _ (Nat.lt_of_lt_of_le (top e f he hf) (Nat.le_trans large bound))

end Double

end Switchboard
