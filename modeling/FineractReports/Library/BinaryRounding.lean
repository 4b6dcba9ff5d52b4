import Mathlib.Data.Int.Log
import Mathlib.Data.Rat.Floor
import Mathlib.Tactic

/-!
# Rounding to binary floating point

The finite numbers of a binary format, as rationals. An operation gives the nearest number of
the format to the exact result, the even one of two that are equally near; the range is not
bounded above. The numbers of a format are those it rounds to themselves.
-/

namespace FineractReports

/-- The nearest integer, the even one of two. -/
def roundEven (value : ℚ) : ℤ :=
  if 1 < 2 * (value - ⌊value⌋) ∨ 2 * (value - ⌊value⌋) = 1 ∧ ⌊value⌋ % 2 = 1 then ⌊value⌋ + 1
  else ⌊value⌋

section RoundEven

variable {value other : ℚ} {whole : ℤ}

@[simp] theorem roundEven_intCast (whole : ℤ) : roundEven whole = whole := by
  simp [roundEven]

theorem floor_le_roundEven (value : ℚ) : ⌊value⌋ ≤ roundEven value := by
  unfold roundEven
  split_ifs
  · exact (Int.lt_succ _).le
  · exact le_rfl

theorem roundEven_le_floor_add_one (value : ℚ) : roundEven value ≤ ⌊value⌋ + 1 := by
  unfold roundEven
  split_ifs
  · exact le_rfl
  · exact (Int.lt_succ _).le

theorem roundEven_mono (h : value ≤ other) : roundEven value ≤ roundEven other := by
  rcases (Int.floor_le_floor h).lt_or_eq with hlt | heq
  · calc
      roundEven value ≤ ⌊value⌋ + 1 := roundEven_le_floor_add_one value
      _ ≤ ⌊other⌋ := hlt
      _ ≤ roundEven other := floor_le_roundEven other
  · have hrest : value - ⌊other⌋ ≤ other - ⌊other⌋ := sub_le_sub_right h _
    unfold roundEven
    rw [heq]
    split_ifs with hup hkeep
    · exact le_rfl
    · refine absurd ?_ hkeep
      rcases hup with hover | ⟨htie, hodd⟩
      · exact Or.inl (by linarith)
      · rcases (show 1 ≤ 2 * (other - ⌊other⌋) by linarith).lt_or_eq with hlt | hhalf
        · exact Or.inl hlt
        · exact Or.inr ⟨hhalf.symm, hodd⟩
    · exact (Int.lt_succ _).le
    · exact le_rfl

theorem roundEven_le (h : value ≤ whole) : roundEven value ≤ whole :=
  (roundEven_mono h).trans_eq (roundEven_intCast whole)

theorem le_roundEven (h : (whole : ℚ) ≤ value) : whole ≤ roundEven value :=
  (roundEven_intCast whole).symm.trans_le (roundEven_mono h)

end RoundEven

/-- A format by the number of bits behind the leading one and the exponent of its least positive
number. -/
structure BinaryFormat where
  fractionBits : ℕ
  leastExponent : ℤ

def binary32 : BinaryFormat := ⟨23, -149⟩

def binary64 : BinaryFormat := ⟨52, -1074⟩

namespace BinaryFormat

variable (format : BinaryFormat)

/-- The exponent of the last bit of the numbers next to a value. -/
def lastBit (value : ℚ) : ℤ := max (Int.log 2 |value| - format.fractionBits) format.leastExponent

def quantum (value : ℚ) : ℚ := 2 ^ format.lastBit value

def round (value : ℚ) : ℚ := roundEven (value / format.quantum value) * format.quantum value

variable {format} {value other : ℚ} {whole exponent : ℤ}

theorem quantum_pos : 0 < format.quantum value := zpow_pos two_pos _

@[simp] theorem round_zero : format.round 0 = 0 := by
  have h := roundEven_intCast 0
  rw [Int.cast_zero] at h
  simp [round, h]

/-- A multiple of the last bit is kept. -/
theorem round_of_multiple (h : value = whole * format.quantum value) :
    format.round value = value := by
  have hdiv : value / format.quantum value = whole := by
    rw [div_eq_iff quantum_pos.ne', ← h]
  rw [round, hdiv, roundEven_intCast, ← h]

theorem round_le_of_multiple (hle : value ≤ other) (h : other = whole * format.quantum value) :
    format.round value ≤ other := by
  have hdiv : value / format.quantum value ≤ whole := by
    rw [div_le_iff₀ quantum_pos, ← h]
    exact hle
  rw [round, h]
  exact mul_le_mul_of_nonneg_right (Int.cast_le.mpr (roundEven_le hdiv)) quantum_pos.le

theorem le_round_of_multiple (hle : other ≤ value) (h : other = whole * format.quantum value) :
    other ≤ format.round value := by
  have hdiv : (whole : ℚ) ≤ value / format.quantum value := by
    rw [le_div_iff₀ quantum_pos, ← h]
    exact hle
  rw [round, h]
  exact mul_le_mul_of_nonneg_right (Int.cast_le.mpr (le_roundEven hdiv)) quantum_pos.le

/-- A power of two is a multiple of every smaller one. -/
theorem zpow_eq_multiple {low high : ℤ} (h : low ≤ high) :
    ∃ whole : ℤ, (2 : ℚ) ^ high = whole * 2 ^ low := by
  refine ⟨2 ^ (high - low).toNat, ?_⟩
  have hsplit : high = ((high - low).toNat : ℤ) + low := by omega
  nth_rewrite 1 [hsplit]
  rw [zpow_add₀ two_ne_zero, zpow_natCast]
  push_cast
  rfl

theorem zero_eq_multiple : (0 : ℚ) = (0 : ℤ) * format.quantum value := by
  simp

theorem multiple_of_lastBit_le (h : format.lastBit value ≤ exponent) (factor : ℤ) :
    ∃ whole : ℤ, (factor * 2 ^ exponent : ℚ) = whole * format.quantum value := by
  obtain ⟨whole, hwhole⟩ := zpow_eq_multiple h
  refine ⟨factor * whole, ?_⟩
  rw [hwhole, quantum]
  push_cast
  ring

theorem lastBit_le_of_abs_lt (hvalue : value ≠ 0) (hleast : format.leastExponent ≤ exponent)
    (h : |value| < 2 ^ (exponent + format.fractionBits + 1)) : format.lastBit value ≤ exponent := by
  have hlog := (Int.lt_zpow_iff_log_lt (b := 2) one_lt_two (abs_pos.mpr hvalue)).mp
    (by exact_mod_cast h)
  exact max_le (by omega) hleast

/-- Of two values in different binades the power of two that divides them lies between. -/
theorem abs_lt_of_lastBit_lt (hvalue : value ≠ 0) (hother : other ≠ 0)
    (h : format.lastBit value < format.lastBit other) :
    |value| < 2 ^ (format.lastBit other + format.fractionBits) ∧
      (2 : ℚ) ^ (format.lastBit other + format.fractionBits) ≤ |other| := by
  have hleast : format.leastExponent ≤ format.lastBit value := le_max_right _ _
  have hlog : format.lastBit other = Int.log 2 |other| - format.fractionBits := by
    rcases max_choice (Int.log 2 |other| - format.fractionBits) format.leastExponent with hc | hc
    · exact hc
    · exact absurd (hc.le.trans hleast) h.not_ge
  have hlow : Int.log 2 |value| - format.fractionBits ≤ format.lastBit value := le_max_left _ _
  constructor
  · have hlt : Int.log 2 |value| < format.lastBit other + format.fractionBits := by omega
    exact_mod_cast (Int.lt_zpow_iff_log_lt (b := 2) one_lt_two (abs_pos.mpr hvalue)).mpr hlt
  · have heq : format.lastBit other + format.fractionBits = Int.log 2 |other| := by omega
    rw [heq]
    exact_mod_cast Int.zpow_log_le_self (b := 2) one_lt_two (abs_pos.mpr hother)

theorem round_mono : Monotone format.round := by
  intro value other hle
  rcases lt_trichotomy (format.lastBit value) (format.lastBit other) with hlt | heq | hgt
  · rcases eq_or_ne value 0 with rfl | hvalue
    · obtain ⟨whole, hwhole⟩ := multiple_of_lastBit_le (le_refl (format.lastBit other)) 0
      rw [round_zero]
      exact le_round_of_multiple hle (by simpa using hwhole)
    rcases eq_or_ne other 0 with rfl | hother
    · rw [round_zero]
      exact round_le_of_multiple hle zero_eq_multiple
    obtain ⟨habove, hbelow⟩ := abs_lt_of_lastBit_lt hvalue hother hlt
    -- The larger one is positive, as the smaller one would be below both otherwise.
    have hpos : 0 < other := by
      by_contra hneg
      rw [abs_of_nonpos (not_lt.mp hneg)] at hbelow
      rw [abs_of_nonpos (hle.trans (not_lt.mp hneg))] at habove
      linarith
    rw [abs_of_pos hpos] at hbelow
    have hbits : format.lastBit other ≤ format.lastBit other + format.fractionBits := by omega
    obtain ⟨first, hfirst⟩ := multiple_of_lastBit_le (hlt.le.trans hbits) 1
    obtain ⟨second, hsecond⟩ := multiple_of_lastBit_le hbits 1
    rw [Int.cast_one, one_mul] at hfirst hsecond
    exact (round_le_of_multiple ((le_abs_self value).trans habove.le) hfirst).trans
      (le_round_of_multiple hbelow hsecond)
  · have hquantum : format.quantum value = format.quantum other := by rw [quantum, heq, quantum]
    rw [round, round, hquantum]
    have hdiv : value / format.quantum other ≤ other / format.quantum other :=
      div_le_div_of_nonneg_right hle quantum_pos.le
    exact mul_le_mul_of_nonneg_right (Int.cast_le.mpr (roundEven_mono hdiv)) quantum_pos.le
  · rcases eq_or_ne value 0 with rfl | hvalue
    · rw [round_zero]
      exact le_round_of_multiple hle zero_eq_multiple
    rcases eq_or_ne other 0 with rfl | hother
    · rw [round_zero]
      exact round_le_of_multiple hle zero_eq_multiple
    obtain ⟨habove, hbelow⟩ := abs_lt_of_lastBit_lt hother hvalue hgt
    have hneg : value < 0 := by
      by_contra hpos
      rw [abs_of_nonneg (not_lt.mp hpos)] at hbelow
      rw [abs_of_nonneg ((not_lt.mp hpos).trans hle)] at habove
      linarith
    rw [abs_of_neg hneg] at hbelow
    have hbits : format.lastBit value ≤ format.lastBit value + format.fractionBits := by omega
    obtain ⟨first, hfirst⟩ := multiple_of_lastBit_le hbits (-1)
    obtain ⟨second, hsecond⟩ := multiple_of_lastBit_le (hgt.le.trans hbits) (-1)
    have hmid : (((-1 : ℤ) : ℚ) * 2 ^ (format.lastBit value + format.fractionBits) : ℚ) =
        -2 ^ (format.lastBit value + format.fractionBits) := by
      push_cast
      ring
    rw [hmid] at hfirst hsecond
    have hother := neg_abs_le other
    exact (round_le_of_multiple (by linarith) hfirst).trans
      (le_round_of_multiple (by linarith) hsecond)

/-- A value with no more bits than the format has. -/
theorem round_of_bits (hleast : format.leastExponent ≤ exponent)
    (h : |whole| < 2 ^ (format.fractionBits + 1)) :
    format.round (whole * 2 ^ exponent) = whole * 2 ^ exponent := by
  rcases eq_or_ne whole 0 with rfl | hwhole
  · simp
  have hpos : (0 : ℚ) < 2 ^ exponent := zpow_pos two_pos _
  have hne : (whole * 2 ^ exponent : ℚ) ≠ 0 := mul_ne_zero (Int.cast_ne_zero.mpr hwhole) hpos.ne'
  have hlt : |(whole * 2 ^ exponent : ℚ)| < 2 ^ (exponent + format.fractionBits + 1) := by
    have hsplit : exponent + format.fractionBits + 1 =
        ((format.fractionBits + 1 : ℕ) : ℤ) + exponent := by push_cast; omega
    rw [abs_mul, abs_of_pos hpos, hsplit, zpow_add₀ two_ne_zero, zpow_natCast]
    exact mul_lt_mul_of_pos_right (by exact_mod_cast h) hpos
  obtain ⟨factor, hfactor⟩ := multiple_of_lastBit_le (lastBit_le_of_abs_lt hne hleast hlt) whole
  exact round_of_multiple hfactor

/-- Rounding gives a number of the format. -/
@[simp] theorem round_round (value : ℚ) :
    format.round (format.round value) = format.round value := by
  rcases eq_or_ne value 0 with rfl | hvalue
  · rw [round_zero, round_zero]
  have hleast : format.leastExponent ≤ format.lastBit value := le_max_right _ _
  have hlow : Int.log 2 |value| - format.fractionBits ≤ format.lastBit value := le_max_left _ _
  have hbound : |value / format.quantum value| ≤ (2 ^ (format.fractionBits + 1) : ℤ) := by
    have hlt : |value| < 2 ^ (((format.fractionBits + 1 : ℕ) : ℤ) + format.lastBit value) := by
      have hlog : Int.log 2 |value| <
          ((format.fractionBits + 1 : ℕ) : ℤ) + format.lastBit value := by
        push_cast
        omega
      exact_mod_cast (Int.lt_zpow_iff_log_lt (b := 2) one_lt_two (abs_pos.mpr hvalue)).mpr hlog
    rw [zpow_add₀ two_ne_zero, zpow_natCast] at hlt
    rw [abs_div, abs_of_pos quantum_pos, div_le_iff₀ quantum_pos]
    push_cast
    exact hlt.le
  have hwhole : |roundEven (value / format.quantum value)| ≤ 2 ^ (format.fractionBits + 1) := by
    rw [abs_le] at hbound ⊢
    have hneg : ((-2 ^ (format.fractionBits + 1) : ℤ) : ℚ) ≤ value / format.quantum value := by
      push_cast at hbound ⊢
      exact hbound.1
    exact ⟨le_roundEven hneg, roundEven_le hbound.2⟩
  rw [round.eq_def format value, quantum]
  rcases hwhole.lt_or_eq with hlt | heq
  · exact round_of_bits hleast hlt
  -- The rounding came to the next binade, where its last bit is twice as large.
  · obtain ⟨sign, hsign, hvalue⟩ : ∃ sign : ℤ, |sign| = 1 ∧
        roundEven (value / format.quantum value) = sign * 2 ^ (format.fractionBits + 1) := by
      rcases abs_choice (roundEven (value / format.quantum value)) with hself | hneg
      · exact ⟨1, by simp, by rw [one_mul, ← heq, hself]⟩
      · exact ⟨-1, by simp, by rw [← heq, hneg]; ring⟩
    have hnext : ((sign * 2 ^ (format.fractionBits + 1) : ℤ) * 2 ^ format.lastBit value : ℚ) =
        ((sign * 2 ^ format.fractionBits : ℤ) : ℚ) * 2 ^ (format.lastBit value + 1) := by
      rw [zpow_add₀ two_ne_zero, zpow_one]
      push_cast
      ring
    rw [quantum] at hvalue
    rw [hvalue, hnext]
    apply round_of_bits (hleast.trans (Int.le_add_one le_rfl))
    rw [abs_mul, hsign, one_mul, abs_of_pos (by positivity)]
    exact pow_lt_pow_right₀ one_lt_two (Nat.lt_succ_self _)

end BinaryFormat

/-- A number of a format. -/
structure BinaryNumber (format : BinaryFormat) where
  value : ℚ
  exact : format.round value = value

namespace BinaryNumber

variable {format : BinaryFormat} {a b c d : BinaryNumber format}

@[ext] theorem ext (h : a.value = b.value) : a = b := by
  cases a
  cases b
  cases h
  rfl

instance : LinearOrder (BinaryNumber format) := LinearOrder.lift' value fun _ _ => ext

theorem le_def : a ≤ b ↔ a.value ≤ b.value := Iff.rfl

/-- The number of the format that a literal or an exact result stands for. -/
def nearest (value : ℚ) : BinaryNumber format :=
  ⟨format.round value, BinaryFormat.round_round value⟩

instance : Zero (BinaryNumber format) := ⟨⟨0, BinaryFormat.round_zero⟩⟩

instance : Add (BinaryNumber format) := ⟨fun a b => nearest (a.value + b.value)⟩

instance : Sub (BinaryNumber format) := ⟨fun a b => nearest (a.value - b.value)⟩

instance : Mul (BinaryNumber format) := ⟨fun a b => nearest (a.value * b.value)⟩

instance : Div (BinaryNumber format) := ⟨fun a b => nearest (a.value / b.value)⟩

@[simp] theorem zero_value : (0 : BinaryNumber format).value = 0 := rfl

theorem nearest_mono : Monotone (nearest : ℚ → BinaryNumber format) :=
  fun _ _ h => BinaryFormat.round_mono h

@[simp] theorem nearest_value (a : BinaryNumber format) : nearest a.value = a := ext a.exact

@[simp] theorem nearest_zero : (nearest 0 : BinaryNumber format) = 0 := nearest_value 0

theorem nearest_nonneg {value : ℚ} (h : 0 ≤ value) : (0 : BinaryNumber format) ≤ nearest value :=
  nearest_zero.symm.trans_le (nearest_mono h)

theorem add_mono (hab : a ≤ b) (hcd : c ≤ d) : a + c ≤ b + d :=
  nearest_mono (add_le_add hab hcd)

theorem mul_mono (hc : 0 ≤ c) (hab : a ≤ b) : a * c ≤ b * c :=
  nearest_mono (mul_le_mul_of_nonneg_right hab hc)

theorem div_mono (hc : 0 ≤ c) (hab : a ≤ b) : a / c ≤ b / c :=
  nearest_mono (div_le_div_of_nonneg_right hab hc)

/-- Adding what is not negative never gives less, however small it is. -/
theorem le_add_of_nonneg (hb : 0 ≤ b) : a ≤ a + b := by
  calc
    a = nearest a.value := (nearest_value a).symm
    _ ≤ a + b := nearest_mono (le_add_of_nonneg_right (α := ℚ) hb)

theorem add_nonneg (ha : 0 ≤ a) (hb : 0 ≤ b) : 0 ≤ a + b := ha.trans (le_add_of_nonneg hb)

theorem mul_nonneg (ha : 0 ≤ a) (hb : 0 ≤ b) : 0 ≤ a * b :=
  nearest_nonneg (Rat.mul_nonneg ha hb)

end BinaryNumber

end FineractReports
