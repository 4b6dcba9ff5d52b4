import FineractReports.Library.Text
import Mathlib.Data.Rat.Floor
import Mathlib.Tactic.Linarith

/-!
# Decimal numerals

A number is rounded to a whole number with midpoints away from zero, and a whole number is
written with its last digits behind a point.
-/

namespace FineractReports.DecimalText

section Rounding

/-- The nearest whole number, midpoints away from zero. -/
def roundAway (x : ℚ) : ℤ := if 0 ≤ x then ⌊x + 1 / 2⌋ else -⌊-x + 1 / 2⌋

structure IsNearestAway (x : ℚ) (m : ℤ) : Prop where
  near : |(m : ℚ) - x| ≤ 1 / 2
  away : |(m : ℚ) - x| = 1 / 2 → |x| < |(m : ℚ)|

variable {x : ℚ} {m : ℤ}

theorem IsNearestAway.neg (h : IsNearestAway x m) : IsNearestAway (-x) (-m) := by
  have hdistance : |((-m : ℤ) : ℚ) - -x| = |(m : ℚ) - x| := by
    rw [Int.cast_neg, ← abs_neg]
    ring_nf
  refine ⟨hdistance ▸ h.near, fun htie => ?_⟩
  rw [Int.cast_neg, abs_neg, abs_neg]
  exact h.away (hdistance ▸ htie)

theorem isNearestAway_floor (hx : 0 ≤ x) : IsNearestAway x ⌊x + 1 / 2⌋ := by
  have hle : (⌊x + 1 / 2⌋ : ℚ) ≤ x + 1 / 2 := Int.floor_le _
  have hlt : x + 1 / 2 < ⌊x + 1 / 2⌋ + 1 := Int.lt_floor_add_one _
  refine ⟨abs_le.mpr ⟨by linarith, by linarith⟩, fun htie => ?_⟩
  -- The distance below is strict, so the tie is the upper one.
  have hupper : (⌊x + 1 / 2⌋ : ℚ) - x = 1 / 2 := by
    rcases abs_eq (by norm_num) |>.mp htie with hup | hdown
    · exact hup
    · linarith
  rw [abs_of_nonneg hx, abs_of_nonneg (by linarith)]
  linarith

theorem roundAway_isNearestAway (x : ℚ) : IsNearestAway x (roundAway x) := by
  unfold roundAway
  split_ifs with hx
  · exact isNearestAway_floor hx
  · have h := (isNearestAway_floor (neg_nonneg.mpr (not_le.mp hx).le)).neg
    rwa [neg_neg] at h

end Rounding

section Numerals

/-- The text is the numeral of `m` with its last `places` digits behind a point; there is
no point without them. -/
def Numeral (text : List Char) (places : ℕ) (m : ℤ) : Prop :=
  ∃ sign whole fraction, (sign = [] ∨ sign = ['-']) ∧
    text = sign ++ whole ++ (if places = 0 then [] else '.' :: fraction) ∧
    fraction.length = places ∧ whole ≠ [] ∧ (∀ c ∈ whole ++ fraction, c.isDigit = true) ∧
    m = (if sign = [] then 1 else -1) * (Nat.ofDigitChars 10 (whole ++ fraction) 0 : ℤ)

variable {text : List Char} {places others : ℕ} {m k : ℤ}

theorem Numeral.mem (h : Numeral text places m) {c : Char} (hc : c ∈ text) :
    c = '-' ∨ c = '.' ∨ c.isDigit = true := by
  obtain ⟨sign, whole, fraction, hsign, rfl, -, -, hdigits, -⟩ := h
  rcases List.mem_append.mp hc with hc | hc
  · rcases List.mem_append.mp hc with hc | hc
    · rcases hsign with rfl | rfl
      · cases hc
      · exact Or.inl (List.mem_singleton.mp hc)
    · exact Or.inr (Or.inr (hdigits c (List.mem_append_left _ hc)))
  · split_ifs at hc
    · cases hc
    · rcases List.mem_cons.mp hc with rfl | hc
      · exact Or.inr (Or.inl rfl)
      · exact Or.inr (Or.inr (hdigits c (List.mem_append_right _ hc)))

/-- The digits behind the point are counted by the text. -/
theorem Numeral.length_dropWhile (h : Numeral text places m) :
    (text.dropWhile (· ≠ '.')).length = if places = 0 then 0 else places + 1 := by
  obtain ⟨sign, whole, fraction, hsign, rfl, hlength, -, hdigits, -⟩ := h
  have hfront : ∀ c ∈ sign ++ whole, decide (c ≠ '.') = true := by
    intro c hc
    apply decide_eq_true
    rintro rfl
    rcases List.mem_append.mp hc with hc | hc
    · rcases hsign with rfl | rfl <;> simp at hc
    · exact absurd (hdigits _ (List.mem_append_left _ hc)) (by decide)
  rw [List.dropWhile_append_of_pos hfront]
  split_ifs with hplaces
  · rfl
  · simp [hlength]

theorem Numeral.places_unique (h : Numeral text places m) (h' : Numeral text others k) :
    places = others := by
  have hsame := h.length_dropWhile.symm.trans h'.length_dropWhile
  split_ifs at hsame <;> omega

/-- The digits of a number, at least one more than `places`. -/
def paddedDigits (n places : ℕ) : List Char :=
  List.replicate (places + 1 - (Nat.toDigits 10 n).length) '0' ++ Nat.toDigits 10 n

def numeral (m : ℤ) (places : ℕ) : List Char :=
  let digits := paddedDigits m.natAbs places
  let whole := digits.take (digits.length - places)
  (if m < 0 then ['-'] else []) ++ whole ++
    if places = 0 then [] else '.' :: digits.drop (digits.length - places)

theorem numeral_isNumeral (m : ℤ) (places : ℕ) : Numeral (numeral m places) places m := by
  have hlength : places + 1 ≤ (paddedDigits m.natAbs places).length := by
    rw [paddedDigits, List.length_append, List.length_replicate]
    omega
  have hdigits : ∀ c ∈ paddedDigits m.natAbs places, c.isDigit = true := by
    intro c hc
    rcases List.mem_append.mp hc with hc | hc
    · rw [List.eq_of_mem_replicate hc]
      rfl
    · exact Nat.isDigit_of_mem_toDigits (by omega) (by omega) hc
  have hvalue : Nat.ofDigitChars 10 (paddedDigits m.natAbs places) 0 = m.natAbs := by
    rw [paddedDigits, Nat.ofDigitChars_append, Nat.ofDigitChars_replicate_zero, Nat.mul_zero]
    exact Nat.ofDigitChars_ten_toDigits
  refine ⟨if m < 0 then ['-'] else [], _, _, ?_, rfl, ?_, ?_, ?_, ?_⟩
  · split_ifs
    · exact Or.inr rfl
    · exact Or.inl rfl
  · rw [List.length_drop]
    omega
  · apply List.ne_nil_of_length_pos
    rw [List.length_take]
    omega
  · rwa [List.take_append_drop]
  · rw [List.take_append_drop, hvalue]
    split_ifs with hneg hnil hnil
    · cases hnil
    · omega
    · omega
    · exact absurd rfl hnil

end Numerals

end FineractReports.DecimalText
