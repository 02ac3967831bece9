import Mathlib.Data.Fintype.Pigeonhole
import Mathlib.Logic.Relation

namespace PayFi.Library.Graphs

open Relation

variable {α : Type} (r : α → α → Prop)

/-- A walk from the node takes fewer steps than the height, whichever way it goes. -/
def Within : ℕ → α → Prop
  | 0, _ => False
  | k + 1, a => ∀ b, r a b → Within k b

/-- A walk from the node can come to a node that leads back to itself. -/
def Cyclic (a : α) : Prop := ∃ b, ReflTransGen r a b ∧ TransGen r b b

variable {r} {k : ℕ} {a b : α}

theorem Within.step (h : Within r k a) (hr : r a b) : ∃ j < k, Within r j b := by
  cases k with
  | zero => exact h.elim
  | succ k => exact ⟨k, Nat.lt_succ_self k, h b hr⟩

theorem Within.succ (h : Within r k a) : Within r (k + 1) a := by
  induction k generalizing a with
  | zero => exact h.elim
  | succ k ih => exact fun b hr => ih (h b hr)

theorem Within.mono {j : ℕ} (h : Within r k a) (hkj : k ≤ j) : Within r j a := by
  induction j, hkj using Nat.le_induction with
  | base => exact h
  | succ j _ ih => exact ih.succ

theorem Within.walk (h : Within r k a) (hr : TransGen r a b) : ∃ j < k, Within r j b := by
  induction hr with
  | single hr => exact h.step hr
  | tail _ hr ih =>
    obtain ⟨j, hj, hw⟩ := ih
    obtain ⟨i, hi, hw⟩ := hw.step hr
    exact ⟨i, Nat.lt_trans hi hj, hw⟩

theorem not_within_of_cycle (hr : TransGen r b b) : ¬ Within r k b := by
  induction k using Nat.strong_induction_on with
  | _ k ih =>
    intro h
    obtain ⟨j, hj, hw⟩ := h.walk hr
    exact ih j hj hw

theorem Within.not_cyclic (h : Within r k a) : ¬ Cyclic r a := by
  rintro ⟨b, hreach, hcycle⟩
  obtain rfl | hwalk := reflTransGen_iff_eq_or_transGen.mp hreach
  · exact not_within_of_cycle hcycle h
  · obtain ⟨j, -, hw⟩ := h.walk hwalk
    exact not_within_of_cycle hcycle hw

theorem walk_of_not_within (h : ¬ Within r k a) :
    ∃ p : ℕ → α, p 0 = a ∧ ∀ i < k, r (p i) (p (i + 1)) := by
  induction k generalizing a with
  | zero => exact ⟨fun _ => a, rfl, fun i hi => absurd hi (Nat.not_lt_zero i)⟩
  | succ k ih =>
    obtain ⟨b, hr, hb⟩ : ∃ b, r a b ∧ ¬ Within r k b := by
      simpa [Within] using h
    obtain ⟨p, rfl, hp⟩ := ih hb
    refine ⟨fun i => Nat.casesOn i a p, rfl, fun i hi => ?_⟩
    cases i with
    | zero => exact hr
    | succ i => exact hp i (Nat.lt_of_succ_lt_succ hi)

theorem transGen_of_walk {p : ℕ → α} (hp : ∀ i < k, r (p i) (p (i + 1))) {i j : ℕ} (hij : i < j)
    (hj : j ≤ k) : TransGen r (p i) (p j) := by
  induction j, hij using Nat.le_induction with
  | base => exact .single (hp i hj)
  | succ j _ ih => exact .tail (ih (Nat.le_of_succ_le hj)) (hp j hj)

theorem within_card [Fintype α] (h : ¬ Cyclic r a) : Within r (Fintype.card α) a := by
  by_contra hwithin
  obtain ⟨p, rfl, hp⟩ := walk_of_not_within hwithin
  obtain ⟨i, j, hne, heq⟩ := Fintype.exists_ne_map_eq_of_card_lt
    (fun i : Fin (Fintype.card α + 1) => p i) (by simp)
  wlog hlt : i.val < j.val generalizing i j
  · exact this j i hne.symm heq.symm (by omega)
  have hcycle := transGen_of_walk hp hlt (by omega)
  rw [← heq] at hcycle
  apply h
  refine ⟨p i, ?_, hcycle⟩
  obtain hzero | hpos := Nat.eq_zero_or_pos i.val
  · rw [hzero]
  · exact (transGen_of_walk hp hpos (by omega)).to_reflTransGen

theorem exists_within_iff [Fintype α] : (∃ k, Within r k a) ↔ ¬ Cyclic r a :=
  ⟨fun ⟨_, h⟩ => h.not_cyclic, fun h => ⟨_, within_card h⟩⟩

end PayFi.Library.Graphs
