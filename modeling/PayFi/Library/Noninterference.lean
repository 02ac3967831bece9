import PayFi.Library.Machine

namespace PayFi.Library.Noninterference

open Machine

variable {σ τ α : Type} {step : σ → α → σ}

/-- Unwinding: where the high actions leave an observation as it is, and the low ones take
like observations to like ones, a run is observed as the run of its low actions. -/
theorem run_purge {I : σ → Prop} {C : α → Prop} {low : α → Bool} {observe : σ → τ}
    (hI : ∀ s a, C a → I s → I (step s a))
    (hhigh : ∀ s a, low a = false → C a → I s → observe (step s a) = observe s)
    (hlow : ∀ s t a, low a = true → observe s = observe t →
      observe (step s a) = observe (step t a))
    (as : List α) (has : ∀ a ∈ as, C a) {s t : σ} (hs : I s) (hst : observe s = observe t) :
    observe (run step s as) = observe (run step t (as.filter low)) := by
  induction as generalizing s t with
  | nil => exact hst
  | cons a as ih =>
    obtain ⟨ha, has⟩ := List.forall_mem_cons.mp has
    cases hl : low a with
    | true =>
      rw [List.filter_cons_of_pos hl, run_cons, run_cons]
      exact ih has (hI s a ha hs) (hlow s t a hl hst)
    | false =>
      rw [List.filter_cons_of_neg (by simp [hl]), run_cons]
      exact ih has (hI s a ha hs) ((hhigh s a hl ha hs).trans hst)

theorem noninterference {I : σ → Prop} {C : α → Prop} {low : α → Bool} {observe : σ → τ}
    (hI : ∀ s a, C a → I s → I (step s a))
    (hhigh : ∀ s a, low a = false → C a → I s → observe (step s a) = observe s)
    (hlow : ∀ s t a, low a = true → observe s = observe t →
      observe (step s a) = observe (step t a))
    {as bs : List α} (hsame : as.filter low = bs.filter low) (has : ∀ a ∈ as, C a)
    (hbs : ∀ b ∈ bs, C b) {s : σ} (hs : I s) :
    observe (run step s as) = observe (run step s bs) := by
  rw [run_purge hI hhigh hlow as has hs rfl, run_purge hI hhigh hlow bs hbs hs rfl, hsame]

end PayFi.Library.Noninterference
