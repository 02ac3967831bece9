import Mathlib.Algebra.Order.Round
import Mathlib.Data.Rat.Floor
import Mathlib.Tactic.Linarith
import PayFi.Library.FixedPoint

namespace PayFi.Library.Rounding

open Numbers FixedPoint

variable {k : ℕ} {q : ℚ}

/-- A number that is not negative in units of the `k`-th decimal, the nearest and of two the
greater one. -/
def nearest (k : ℕ) (q : ℚ) : ℕ := (round (q * 10 ^ k)).toNat

/-- `toFixed`, at every size. -/
def toFixed (k : ℕ) : Number → String
  | .nan => "NaN"
  | .infinity negative => if negative then "-Infinity" else "Infinity"
  | .finite q =>
    if q < 0 then String.ofList ('-' :: render k (nearest k (-q)))
    else String.ofList (render k (nearest k q))

/-- `toFixed` as JavaScript has it: from 10^21 on it writes a number as `text` does. -/
def toFixedBelow (text : Number → String) (k : ℕ) : Number → String
  | .finite q => if 10 ^ 21 ≤ |q| then text (.finite q) else toFixed k (.finite q)
  | n => toFixed k n

theorem toList_toFixed (hq : 0 ≤ q) :
    (toFixed k (.finite q)).toList = render k (nearest k q) := by
  rw [toFixed, if_neg (not_lt.mpr hq), String.toList_ofList]

theorem nearest_eq (hq : 0 ≤ q) : (nearest k q : ℤ) = round (q * 10 ^ k) := by
  apply Int.toNat_of_nonneg
  rw [round_eq]
  apply Int.floor_nonneg.mpr
  positivity

theorem abs_nearest_sub_le (hq : 0 ≤ q) :
    |(nearest k q : ℚ) / 10 ^ k - q| ≤ 1 / 2 / 10 ^ k := by
  have hpos : (0 : ℚ) < 10 ^ k := by positivity
  have hround := abs_sub_round (q * 10 ^ k)
  have hcast : (nearest k q : ℚ) = ((round (q * 10 ^ k) : ℤ) : ℚ) := by
    rw [← nearest_eq hq]
    rfl
  rw [abs_sub_comm, ← hcast] at hround
  have hdiv : (nearest k q : ℚ) / 10 ^ k - q = ((nearest k q : ℚ) - q * 10 ^ k) / 10 ^ k := by
    rw [sub_div, mul_div_cancel_right₀ q hpos.ne']
  rw [hdiv, abs_div, abs_of_pos hpos]
  exact div_le_div_of_nonneg_right hround hpos.le

theorem nearest_le {n : ℕ} (hq : 0 ≤ q) (h : q ≤ (n : ℚ) / 10 ^ k) : nearest k q ≤ n := by
  have hpos : (0 : ℚ) < 10 ^ k := by positivity
  have hle : q * 10 ^ k ≤ n := (le_div_iff₀ hpos).mp h
  have hround : round (q * 10 ^ k) < (n : ℤ) + 1 := by
    rw [round_eq, Int.floor_lt]
    push_cast
    linarith
  have hcast := nearest_eq (k := k) hq
  omega

theorem nearest_pos_iff (hq : 0 ≤ q) : 0 < nearest k q ↔ 1 / 2 / 10 ^ k ≤ q := by
  have hpos : (0 : ℚ) < 10 ^ k := by positivity
  have hcast := nearest_eq (k := k) hq
  have hround : 0 < round (q * 10 ^ k) ↔ 1 / 2 ≤ q * 10 ^ k := by
    rw [round_eq, ← Int.add_one_le_iff, zero_add, Int.le_floor]
    push_cast
    exact ⟨fun h => by linarith, fun h => by linarith⟩
  rw [div_le_iff₀ hpos, ← hround, ← hcast]
  exact Int.natCast_pos.symm

theorem parseFloat_toFixed (hq : 0 ≤ q) :
    parseFloat (toFixed k (.finite q)) = .finite ((nearest k q : ℚ) / 10 ^ k) :=
  parseFloat_render (toList_toFixed hq)

theorem isDecimal_render (n : ℕ) : isDecimal (render 7 n) = true := by
  have hdigits : ∀ c ∈ Nat.toDigits 10 (n / 10 ^ 7), c.isDigit = true := fun c hc =>
    Nat.isDigit_of_mem_toDigits (by decide) (by decide) hc
  obtain ⟨htake, hdrop⟩ := span_point hdigits (lastDigits 7 (n % 10 ^ 7))
  have hall : (lastDigits 7 (n % 10 ^ 7)).all Char.isDigit = true :=
    List.all_eq_true.mpr (isDigit_lastDigits 7 _)
  have hwhole : decide (Nat.toDigits 10 (n / 10 ^ 7) ≠ []) = true :=
    decide_eq_true Nat.toDigits_ne_nil
  rw [isDecimal, render, htake, hdrop, hwhole, Bool.true_and]
  change ((lastDigits 7 (n % 10 ^ 7)).all Char.isDigit && _ && _) = true
  rw [hall, length_lastDigits]
  rfl

/-- The literal of a decimal of at most seven places is a number of whole units of the
seventh. -/
theorem unsignedDecimal_isDecimal {cs : List Char} (h : isDecimal cs = true) :
    ∃ n : ℕ, unsignedDecimal cs = some ((n : ℚ) / 10 ^ 7) := by
  rw [isDecimal, Bool.and_eq_true, decide_eq_true_eq] at h
  obtain ⟨hwhole, hrest⟩ := h
  split at hrest
  · rename_i hdrop
    refine ⟨natOfDigits (cs.takeWhile Char.isDigit) * 10 ^ 7, ?_⟩
    simp only [unsignedDecimal, hdrop, fractionPart, List.append_nil, hwhole, if_false,
      exponentPart, List.length_nil, Nat.cast_mul, Nat.cast_pow]
    norm_num
  · rename_i ds hdrop
    simp only [Bool.and_eq_true, decide_eq_true_eq] at hrest
    obtain ⟨⟨hdigits, -⟩, hlength⟩ := hrest
    have hfraction : fractionPart ('.' :: ds) = (ds, []) := by
      rw [fractionPart, List.takeWhile_eq_self_iff.mpr (List.all_eq_true.mp hdigits),
        List.dropWhile_eq_nil_iff.mpr (List.all_eq_true.mp hdigits)]
    refine ⟨natOfDigits (cs.takeWhile Char.isDigit ++ ds) * 10 ^ (7 - ds.length), ?_⟩
    have hpow : (10 : ℚ) ^ 7 = 10 ^ (7 - ds.length) * 10 ^ ds.length := by
      rw [← pow_add, Nat.sub_add_cancel hlength]
    have hne : cs.takeWhile Char.isDigit ++ ds ≠ [] := List.append_ne_nil_of_left_ne_nil hwhole ds
    simp only [unsignedDecimal, hdrop, hfraction, hne, if_false, exponentPart, zero_sub, zpow_neg,
      zpow_natCast, hpow, Nat.cast_mul, Nat.cast_pow, Nat.cast_ofNat]
    field_simp
  · cases hrest

theorem exists_units {s : String} (h : isDecimal s.toList = true) :
    ∃ n : ℕ, parseFloat s = .finite ((n : ℚ) / 10 ^ 7) := by
  obtain ⟨n, hn⟩ := unsignedDecimal_isDecimal h
  rw [isDecimal, Bool.and_eq_true, decide_eq_true_eq] at h
  cases hs : s.toList with
  | nil => exact absurd (by rw [hs]; rfl) h.1
  | cons c cs =>
    rw [hs] at h hn
    have hc : c.isDigit = true := by
      by_contra hc
      exact h.1 (List.takeWhile_cons_of_neg hc)
    exact ⟨n, parseFloat_of_unsignedDecimal hs hc hn⟩

end PayFi.Library.Rounding
