import Mathlib.Algebra.BigOperators.Group.Finset.Basic
import Mathlib.Logic.Function.Basic
import Mathlib.Tactic.Common

namespace PayFi.Library.Balances

variable {Holder : Type} [DecidableEq Holder]

/-- Take `n` from the source, then give it to the destination. -/
def move (b : Holder → ℕ) (source destination : Holder) (n : ℕ) : Holder → ℕ :=
  let debited := Function.update b source (b source - n)
  Function.update debited destination (debited destination + n)

theorem move_source (b : Holder → ℕ) {source destination : Holder} (h : source ≠ destination)
    (n : ℕ) : move b source destination n source = b source - n := by
  simp [move, h]

theorem move_destination (b : Holder → ℕ) {source destination : Holder}
    (h : source ≠ destination) (n : ℕ) :
    move b source destination n destination = b destination + n := by
  simp [move, Ne.symm h]

theorem move_self (b : Holder → ℕ) (holder : Holder) {n : ℕ} (h : n ≤ b holder) :
    move b holder holder n = b := by
  funext other
  by_cases ho : other = holder
  · subst ho
    simp [move, Nat.sub_add_cancel h]
  · simp [move, ho]

@[simp] theorem move_zero (b : Holder → ℕ) (source destination : Holder) :
    move b source destination 0 = b := by
  simp [move]

theorem move_move (b : Holder → ℕ) {source destination : Holder} (h : source ≠ destination)
    (m n : ℕ) : move (move b source destination m) source destination n =
      move b source destination (m + n) := by
  funext other
  by_cases hs : other = source
  · subst hs
    simp only [move_source _ h, Nat.sub_sub]
  · by_cases hd : other = destination
    · subst hd
      simp only [move_destination _ h, Nat.add_assoc]
    · simp [move, hs, hd]

theorem sub_le_move_source (b : Holder → ℕ) (source destination : Holder) {n : ℕ}
    (h : n ≤ b source) : b source - n ≤ move b source destination n source := by
  by_cases hd : source = destination
  · subst hd
    rw [move_self b source h]
    exact Nat.sub_le _ _
  · exact (move_source b hd n).ge

theorem le_move_destination (b : Holder → ℕ) (source destination : Holder) {n : ℕ}
    (h : n ≤ b source) : n ≤ move b source destination n destination := by
  by_cases hd : source = destination
  · subst hd
    rw [move_self b source h]
    exact h
  · rw [move_destination b hd n]
    exact Nat.le_add_left _ _

end PayFi.Library.Balances
