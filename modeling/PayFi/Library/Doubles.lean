import Mathlib.Data.Int.Log
import Mathlib.Data.Rat.Floor
import Mathlib.Tactic.Linarith
import Mathlib.Tactic.Positivity
import PayFi.Library.Extrema

namespace PayFi.Library.Doubles

open Numbers

def nearestEven (q : ℚ) : ℤ :=
  if q - ⌊q⌋ < 1 / 2 ∨ q - ⌊q⌋ = 1 / 2 ∧ ⌊q⌋ % 2 = 0 then ⌊q⌋ else ⌊q⌋ + 1

/-- The place of the last of the 53 binary digits of a double; the smallest doubles share theirs. -/
def lastPlace (q : ℚ) : ℤ := max (Int.log 2 |q| - 52) (-1074)

def nearestDouble (q : ℚ) : ℚ := nearestEven (q / 2 ^ lastPlace q) * 2 ^ lastPlace q

def toDouble (q : ℚ) : Number :=
  if 2 ^ 1024 ≤ nearestDouble q then .infinity false
  else if nearestDouble q ≤ -2 ^ 1024 then .infinity true
  else .finite (nearestDouble q)

structure Arithmetic where
  round : ℚ → Number

namespace Arithmetic

def exact : Arithmetic := ⟨.finite⟩

/-- The arithmetic of JavaScript, but that zero has no sign. -/
def double : Arithmetic := ⟨toDouble⟩

def rounded (A : Arithmetic) : Number → Number
  | .finite q => A.round q
  | n => n

def parseFloat (A : Arithmetic) (s : String) : Number := A.rounded (Numbers.parseFloat s)

def add (A : Arithmetic) (m n : Number) : Number := A.rounded (m.add n)

def sub (A : Arithmetic) (m n : Number) : Number := A.rounded (m.sub n)

def mul (A : Arithmetic) (m n : Number) : Number := A.rounded (Extrema.mul m n)

def div (A : Arithmetic) (m n : Number) : Number := A.rounded (Extrema.div m n)

def sum (A : Arithmetic) (xs : List Number) : Number := xs.foldl A.add (.finite 0)

@[simp] theorem rounded_exact (n : Number) : exact.rounded n = n := by
  cases n <;> rfl

@[simp] theorem parseFloat_exact (s : String) : exact.parseFloat s = Numbers.parseFloat s :=
  rounded_exact _

@[simp] theorem sub_exact (m n : Number) : exact.sub m n = m.sub n := rounded_exact _

@[simp] theorem mul_exact (m n : Number) : exact.mul m n = Extrema.mul m n := rounded_exact _

@[simp] theorem div_exact (m n : Number) : exact.div m n = Extrema.div m n := rounded_exact _

@[simp] theorem sum_exact (xs : List Number) : exact.sum xs = Numbers.sum xs := by
  have hadd : exact.add = Number.add := funext fun m => funext fun n => rounded_exact (m.add n)
  rw [sum, hadd, Numbers.sum]

end Arithmetic

variable {p q : ℚ}

theorem floor_le_nearestEven (q : ℚ) : ⌊q⌋ ≤ nearestEven q := by
  unfold nearestEven
  split <;> omega

theorem nearestEven_le_floor_add_one (q : ℚ) : nearestEven q ≤ ⌊q⌋ + 1 := by
  unfold nearestEven
  split <;> omega

theorem nearestEven_intCast (n : ℤ) : nearestEven n = n := by
  rw [nearestEven, if_pos, Int.floor_intCast]
  left
  rw [Int.floor_intCast, sub_self]
  norm_num

theorem nearestEven_mono (h : p ≤ q) : nearestEven p ≤ nearestEven q := by
  obtain hlt | heq := (Int.floor_mono h).lt_or_eq
  · calc nearestEven p ≤ ⌊p⌋ + 1 := nearestEven_le_floor_add_one p
      _ ≤ ⌊q⌋ := hlt
      _ ≤ nearestEven q := floor_le_nearestEven q
  · unfold nearestEven
    rw [heq]
    split
    · split <;> omega
    · rename_i hp
      rw [if_neg]
      rintro (hq | ⟨hq, heven⟩)
      · exact hp (.inl (by linarith))
      · obtain hlt | hhalf := (show p - (⌊q⌋ : ℚ) ≤ 1 / 2 by linarith).lt_or_eq
        · exact hp (.inl hlt)
        · exact hp (.inr ⟨hhalf, heven⟩)

theorem nearestEven_nonneg (h : 0 ≤ q) : 0 ≤ nearestEven q :=
  (Int.floor_nonneg.mpr h).trans (floor_le_nearestEven q)

theorem nearestDouble_nonneg (h : 0 ≤ q) : 0 ≤ nearestDouble q := by
  have hscaled : 0 ≤ q / 2 ^ lastPlace q := by positivity
  exact mul_nonneg (Int.cast_nonneg (nearestEven_nonneg hscaled)) (by positivity)

theorem zpow_eq_mul {e : ℤ} (he : lastPlace q ≤ e) :
    ∃ n : ℤ, (2 : ℚ) ^ e = n * 2 ^ lastPlace q := by
  obtain ⟨k, hk⟩ := Int.eq_ofNat_of_zero_le (sub_nonneg.mpr he)
  refine ⟨2 ^ k, ?_⟩
  rw [← sub_add_cancel e (lastPlace q), zpow_add₀ two_ne_zero, hk]
  push_cast
  rw [zpow_natCast]

theorem nearestDouble_le_zpow {e : ℤ} (h : q ≤ 2 ^ e) (he : lastPlace q ≤ e) :
    nearestDouble q ≤ 2 ^ e := by
  have hpos : (0 : ℚ) < 2 ^ lastPlace q := by positivity
  obtain ⟨n, hn⟩ := zpow_eq_mul he
  rw [hn, ← div_le_iff₀ hpos] at h
  have hround := nearestEven_mono h
  rw [nearestEven_intCast] at hround
  rw [hn, nearestDouble]
  exact mul_le_mul_of_nonneg_right (Int.cast_le.mpr hround) hpos.le

theorem zpow_le_nearestDouble {e : ℤ} (h : 2 ^ e ≤ q) (he : lastPlace q ≤ e) :
    2 ^ e ≤ nearestDouble q := by
  have hpos : (0 : ℚ) < 2 ^ lastPlace q := by positivity
  obtain ⟨n, hn⟩ := zpow_eq_mul he
  rw [hn, ← le_div_iff₀ hpos] at h
  have hround := nearestEven_mono h
  rw [nearestEven_intCast] at hround
  rw [hn, nearestDouble]
  exact mul_le_mul_of_nonneg_right (Int.cast_le.mpr hround) hpos.le

theorem lastPlace_mono (hp : 0 < p) (h : p ≤ q) : lastPlace p ≤ lastPlace q := by
  unfold lastPlace
  rw [abs_of_pos hp, abs_of_pos (hp.trans_le h)]
  have hlog := Int.log_mono_right (b := 2) hp h
  omega

/-- Rounding keeps the order. Where the last place of the greater number is further to the left,
a power of two lies between the two. -/
theorem nearestDouble_mono (hp : 0 ≤ p) (h : p ≤ q) : nearestDouble p ≤ nearestDouble q := by
  obtain rfl | hp := hp.eq_or_lt
  · have hzero : nearestDouble 0 = 0 := by decide +kernel
    rw [hzero]
    exact nearestDouble_nonneg h
  · have hq := hp.trans_le h
    obtain hlt | heq := (lastPlace_mono hp h).lt_or_eq
    · have hplace : lastPlace q = Int.log 2 q - 52 := by
        have hmin : -1074 ≤ lastPlace p := le_max_right _ _
        have hdef : lastPlace q = max (Int.log 2 |q| - 52) (-1074) := rfl
        rw [abs_of_pos hq] at hdef
        omega
      have hlog : Int.log 2 p + 1 ≤ Int.log 2 q := by
        have hdef : Int.log 2 |p| - 52 ≤ lastPlace p := le_max_left _ _
        rw [abs_of_pos hp] at hdef
        omega
      have hbetween : p ≤ 2 ^ Int.log 2 q :=
        (Int.lt_zpow_succ_log_self (b := 2) (by decide) p).le.trans
          (zpow_le_zpow_right₀ (by norm_num) hlog)
      have hbelow : (2 : ℚ) ^ Int.log 2 q ≤ q := Int.zpow_log_le_self (b := 2) (by decide) hq
      exact (nearestDouble_le_zpow hbetween (by omega)).trans
        (zpow_le_nearestDouble hbelow (by omega))
    · unfold nearestDouble
      rw [heq]
      have hscaled : p / 2 ^ lastPlace q ≤ q / 2 ^ lastPlace q := by gcongr
      exact mul_le_mul_of_nonneg_right (Int.cast_le.mpr (nearestEven_mono hscaled))
        (by positivity)

theorem toDouble_finite (hq : 0 ≤ q) (h : nearestDouble q < 2 ^ 1024) :
    toDouble q = .finite (nearestDouble q) := by
  have hnonneg := nearestDouble_nonneg hq
  have hpow : (0 : ℚ) < 2 ^ 1024 := by positivity
  have hneg : ¬nearestDouble q ≤ -2 ^ 1024 :=
    not_le.mpr ((neg_lt_zero.mpr hpow).trans_le hnonneg)
  rw [toDouble, if_neg (not_le.mpr h), if_neg hneg]

theorem lt_toDouble_of_le {n : Number} (hp : 0 ≤ p) (h : p ≤ q) (hn : n.lt (toDouble p) = true) :
    n.lt (toDouble q) = true := by
  have hmono := nearestDouble_mono hp h
  by_cases hlarge : 2 ^ 1024 ≤ nearestDouble q
  · rw [toDouble, if_pos hlarge]
    by_cases hlarge' : 2 ^ 1024 ≤ nearestDouble p
    · rwa [toDouble, if_pos hlarge'] at hn
    · rw [toDouble_finite hp (not_le.mp hlarge')] at hn
      cases n with
      | nan => cases hn
      | infinity negative =>
        cases negative with
        | false => cases hn
        | true => rfl
      | finite r => rfl
  · have hsmall := not_le.mp hlarge
    rw [toDouble_finite hp (hmono.trans_lt hsmall)] at hn
    rw [toDouble_finite (hp.trans h) hsmall]
    cases n with
    | nan => cases hn
    | infinity negative => exact hn
    | finite r =>
      simp only [Number.lt, decide_eq_true_eq] at hn ⊢
      exact hn.trans_le hmono

end PayFi.Library.Doubles
