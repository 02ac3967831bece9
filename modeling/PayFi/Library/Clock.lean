import Mathlib.Order.Lattice
import PayFi.Library.Machine

namespace PayFi.Library.Clock

open Machine

variable {Time σ α : Type} [LinearOrder Time]

theorem pairwise_headD_cons {ts : List Time} (h : ts.Pairwise (· ≤ ·)) (t : Time) :
    (ts.headD t :: ts).Pairwise (· ≤ ·) := by
  cases ts with
  | nil => exact List.pairwise_singleton ..
  | cons t' ts =>
    refine List.pairwise_cons.mpr ⟨fun x hx => ?_, h⟩
    obtain rfl | hx := List.mem_cons.mp hx
    · exact le_rfl
    · exact (List.pairwise_cons.mp h).1 x hx

theorem le_getLastD {t : Time} {ts : List Time} (h : (t :: ts).Pairwise (· ≤ ·)) :
    t ≤ ts.getLastD t := by
  obtain hlast | hlast := List.mem_cons.mp (List.getLastD_mem_cons (a := t) (l := ts))
  · exact hlast.ge
  · exact (List.pairwise_cons.mp h).1 _ hlast

theorem pairwise_split {t : Time} {ts us : List Time} (h : (t :: (ts ++ us)).Pairwise (· ≤ ·)) :
    (t :: ts).Pairwise (· ≤ ·) ∧ (ts.getLastD t :: us).Pairwise (· ≤ ·) := by
  rw [← List.cons_append] at h
  obtain ⟨hts, hus, hbefore⟩ := List.pairwise_append.mp h
  exact ⟨hts, List.pairwise_cons.mpr ⟨hbefore _ List.getLastD_mem_cons, hus⟩⟩

variable {step : σ → α → σ} {readings : α → List Time} {I : Time → σ → Prop}
  {C : Transition σ α → Prop}

/-- An invariant of clock and state that the steps meeting a condition keep: it holds
before every step of a run, and at its end. -/
theorem timed_invariant
    (hstep : ∀ {t s} a, I t s → (t :: readings a).Pairwise (· ≤ ·) → C ⟨s, a, step s a⟩ →
      I ((readings a).getLastD t) (step s a))
    (as : List α) {t : Time} {s : σ} (h : I t s)
    (hclock : (t :: as.flatMap readings).Pairwise (· ≤ ·)) (hC : ∀ u ∈ trace step s as, C u) :
    (∀ u ∈ trace step s as, ∃ t, I t u.before ∧ (t :: readings u.action).Pairwise (· ≤ ·)) ∧
      ∃ t, I t (run step s as) := by
  induction as generalizing t s with
  | nil => exact ⟨List.forall_mem_nil _, t, h⟩
  | cons a as ih =>
    rw [List.flatMap_cons] at hclock
    obtain ⟨ha, hlast⟩ := pairwise_split hclock
    obtain ⟨hfirst, hrest⟩ := List.forall_mem_cons.mp hC
    obtain ⟨hbefore, hend⟩ := ih (hstep a h ha hfirst) hlast hrest
    exact ⟨List.forall_mem_cons.mpr ⟨⟨t, h, ha⟩, hbefore⟩, hend⟩

end PayFi.Library.Clock
