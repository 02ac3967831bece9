import Mathlib.Algebra.Order.BigOperators.Ring.Finset
import Mathlib.Algebra.Order.Field.Basic
import Mathlib.Order.Interval.Set.Defs
import Mathlib.Tactic.Linarith

namespace PayFi.Library.Jitter

variable {K ι : Type} [Field K] [LinearOrder K] [IsStrictOrderedRing K]

def jittered (share x : K) (r : Set.Ico (0 : K) 1) : K := x + r * share * x

variable {share bound x : K} {t : Finset ι} {xs : ι → K}

theorem le_jittered (hs : 0 ≤ share) (hx : 0 ≤ x) (r : Set.Ico (0 : K) 1) :
    x ≤ jittered share x r :=
  le_add_of_nonneg_right (mul_nonneg (mul_nonneg r.2.1 hs) hx)

theorem jittered_le (hs : 0 ≤ share) (hx : 0 ≤ x) (r : Set.Ico (0 : K) 1) :
    jittered share x r ≤ (1 + share) * x := by
  have hr : r * share * x ≤ 1 * share * x :=
    mul_le_mul_of_nonneg_right (mul_le_mul_of_nonneg_right r.2.2.le hs) hx
  rw [jittered]
  linarith

theorem jittered_lt (hs : 0 < share) (hx : 0 < x) (r : Set.Ico (0 : K) 1) :
    jittered share x r < (1 + share) * x := by
  have hr : r * share * x < 1 * share * x :=
    mul_lt_mul_of_pos_right (mul_lt_mul_of_pos_right r.2.2 hs) hx
  rw [jittered]
  linarith

omit [IsStrictOrderedRing K] in
theorem sum_jittered (share : K) (t : Finset ι) (xs : ι → K) (r : Set.Ico (0 : K) 1) :
    ∑ k ∈ t, jittered share (xs k) r = jittered share (∑ k ∈ t, xs k) r := by
  simp only [jittered, Finset.sum_add_distrib, Finset.mul_sum]

/-- Whatever the random parts, the delays stay below a bound exactly when the longest ones,
which are never reached, do not exceed it. -/
theorem sum_jittered_lt_iff (hs : 0 < share) (hx : ∀ k ∈ t, 0 ≤ xs k)
    (hpos : 0 < ∑ k ∈ t, xs k) :
    (∀ r : ι → Set.Ico (0 : K) 1, ∑ k ∈ t, jittered share (xs k) (r k) < bound) ↔
      (1 + share) * ∑ k ∈ t, xs k ≤ bound := by
  constructor
  · intro h
    by_contra hlt
    rw [not_le] at hlt
    have hscale : 0 < share * ∑ k ∈ t, xs k := mul_pos hs hpos
    -- one part for all delays, so large that the bound is reached
    have hpart : max 0 ((bound - ∑ k ∈ t, xs k) / (share * ∑ k ∈ t, xs k)) < 1 := by
      rw [max_lt_iff, div_lt_one hscale]
      exact ⟨zero_lt_one, by linarith⟩
    have hsum := h fun _ => ⟨max 0 ((bound - ∑ k ∈ t, xs k) / (share * ∑ k ∈ t, xs k)),
      le_max_left .., hpart⟩
    rw [sum_jittered, jittered, mul_assoc] at hsum
    have hreached : bound - ∑ k ∈ t, xs k ≤
        max 0 ((bound - ∑ k ∈ t, xs k) / (share * ∑ k ∈ t, xs k)) *
          (share * ∑ k ∈ t, xs k) := by
      rw [← div_le_iff₀ hscale]
      exact le_max_right ..
    linarith
  · intro h r
    obtain ⟨k, hk, hxk⟩ : ∃ k ∈ t, 0 < xs k := by
      apply Finset.exists_lt_of_sum_lt
      rwa [Finset.sum_const_zero]
    calc ∑ k ∈ t, jittered share (xs k) (r k) < ∑ k ∈ t, (1 + share) * xs k :=
          Finset.sum_lt_sum (fun k hk => jittered_le hs.le (hx k hk) (r k))
            ⟨k, hk, jittered_lt hs hxk (r k)⟩
      _ = (1 + share) * ∑ k ∈ t, xs k := (Finset.mul_sum ..).symm
      _ ≤ bound := h

end PayFi.Library.Jitter
