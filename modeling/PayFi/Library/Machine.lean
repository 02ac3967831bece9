import Mathlib.Data.List.Basic
import Mathlib.Data.List.Induction
import Mathlib.Tactic.Common

namespace PayFi.Library.Machine

variable {σ α : Type}

/-- One step of a run, with the states around it. -/
structure Transition (σ α : Type) where
  before : σ
  action : α
  after : σ
  deriving DecidableEq

def run (step : σ → α → σ) (s : σ) (as : List α) : σ := as.foldl step s

def trace (step : σ → α → σ) (s : σ) : List α → List (Transition σ α)
  | [] => []
  | a :: as => ⟨s, a, step s a⟩ :: trace step (step s a) as

variable {step : σ → α → σ}

@[simp] theorem run_nil (s : σ) : run step s [] = s := rfl

@[simp] theorem run_cons (s : σ) (a : α) (as : List α) :
    run step s (a :: as) = run step (step s a) as := rfl

theorem run_append (s : σ) (as bs : List α) :
    run step s (as ++ bs) = run step (run step s as) bs := List.foldl_append

@[simp] theorem run_concat (s : σ) (as : List α) (a : α) :
    run step s (as ++ [a]) = step (run step s as) a := by
  rw [run_append]
  rfl

theorem trace_append (s : σ) (as bs : List α) :
    trace step s (as ++ bs) = trace step s as ++ trace step (run step s as) bs := by
  induction as generalizing s with
  | nil => rfl
  | cons a as ih => simp only [List.cons_append, trace, ih, run_cons]

@[simp] theorem trace_concat (s : σ) (as : List α) (a : α) :
    trace step s (as ++ [a]) =
      trace step s as ++ [⟨run step s as, a, step (run step s as) a⟩] := by
  rw [trace_append]
  rfl

theorem mem_trace {s : σ} {as : List α} {t : Transition σ α} (ht : t ∈ trace step s as) :
    ∃ pre post, as = pre ++ t.action :: post ∧ t.before = run step s pre ∧
      t.after = step (run step s pre) t.action := by
  induction as generalizing s with
  | nil => simp [trace] at ht
  | cons a as ih =>
    obtain rfl | ht := List.mem_cons.mp ht
    · exact ⟨[], as, rfl, rfl, rfl⟩
    · obtain ⟨pre, post, has, hb, ha⟩ := ih ht
      exact ⟨a :: pre, post, by rw [has]; rfl, hb, ha⟩

theorem action_mem {s : σ} {as : List α} {t : Transition σ α} (ht : t ∈ trace step s as) :
    t.action ∈ as := by
  obtain ⟨pre, post, rfl, -, -⟩ := mem_trace ht
  simp

theorem run_induction {s : σ} {R : List (Transition σ α) → σ → Prop} (h0 : R [] s)
    (hstep : ∀ ts t a, R ts t → R (ts ++ [⟨t, a, step t a⟩]) (step t a)) (as : List α) :
    R (trace step s as) (run step s as) := by
  induction as using List.reverseRecOn with
  | nil => exact h0
  | append_singleton as a ih =>
    rw [trace_concat, run_concat]
    exact hstep _ _ a ih

theorem run_invariant {s : σ} {I : σ → Prop} (h0 : I s) (hstep : ∀ t a, I t → I (step t a))
    (as : List α) : I (run step s as) :=
  run_induction (R := fun _ t => I t) h0 (fun _ t a => hstep t a) as

theorem run_invariant_of {s : σ} {I : σ → Prop} {C : Transition σ α → Prop} (h0 : I s)
    (hstep : ∀ t a, C ⟨t, a, step t a⟩ → I t → I (step t a)) (as : List α)
    (hC : ∀ t ∈ trace step s as, C t) : I (run step s as) := by
  have h : (∀ u ∈ trace step s as, C u) → I (run step s as) :=
    run_induction (R := fun ts t => (∀ u ∈ ts, C u) → I t) (fun _ => h0)
      (fun ts t a ih hts => hstep t a (hts _ (by simp)) (ih fun u hu => hts u (by simp [hu]))) as
  exact h hC

theorem trace_invariant_of {s : σ} {I : σ → Prop} {C P : Transition σ α → Prop} (h0 : I s)
    (hstep : ∀ t a, C ⟨t, a, step t a⟩ → I t → I (step t a))
    (hP : ∀ t a, C ⟨t, a, step t a⟩ → I t → P ⟨t, a, step t a⟩) (as : List α)
    (hC : ∀ u ∈ trace step s as, C u) : ∀ u ∈ trace step s as, P u := by
  induction as generalizing s with
  | nil => exact List.forall_mem_nil _
  | cons a as ih =>
    rw [trace, List.forall_mem_cons] at hC ⊢
    exact ⟨hP s a hC.1 h0, ih (hstep s a hC.1 h0) hC.2⟩

theorem trace_invariant {s : σ} {I : σ → Prop} {P : Transition σ α → Prop} (h0 : I s)
    (hstep : ∀ t a, I t → I (step t a)) (hP : ∀ t a, I t → P ⟨t, a, step t a⟩) (as : List α) :
    ∀ u ∈ trace step s as, P u :=
  trace_invariant_of (C := fun _ => True) h0 (fun t a _ => hstep t a) (fun t a _ => hP t a) as
    fun _ _ => trivial

/-- `u` belongs to the history, and everything after it is quiet. -/
def Since (Quiet : Transition σ α → Prop) (ts : List (Transition σ α)) (u : Transition σ α) :
    Prop := ∃ xs ys, ts = xs ++ u :: ys ∧ ∀ v ∈ ys, Quiet v

theorem Since.last (Quiet : Transition σ α → Prop) (ts : List (Transition σ α))
    (u : Transition σ α) : Since Quiet (ts ++ [u]) u :=
  ⟨ts, [], rfl, by simp⟩

theorem Since.concat {Quiet : Transition σ α → Prop} {ts : List (Transition σ α)}
    {u v : Transition σ α} (h : Since Quiet ts u) (hv : Quiet v) : Since Quiet (ts ++ [v]) u := by
  obtain ⟨xs, ys, rfl, hq⟩ := h
  exact ⟨xs, ys ++ [v], by simp,
    List.forall_mem_append.mpr ⟨hq, List.forall_mem_singleton.mpr hv⟩⟩

/-- Every entry of a journal stands in a relation to the entries before it. -/
def Preceded (P : List α → α → Prop) (es : List α) : Prop :=
  ∀ xs ys e, es = xs ++ e :: ys → P xs e

theorem Preceded.nil (P : List α → α → Prop) : Preceded P [] := by
  intro xs ys e h
  simp at h

theorem Preceded.concat {P : List α → α → Prop} {es : List α} (h : Preceded P es) {e : α}
    (he : P es e) : Preceded P (es ++ [e]) := by
  intro xs ys e' heq
  obtain rfl | ⟨zs, z, rfl⟩ := List.eq_nil_or_concat ys
  · obtain ⟨rfl, hlast⟩ := List.append_inj' heq rfl
    cases hlast
    exact he
  · rw [List.concat_eq_append, ← List.cons_append, ← List.append_assoc] at heq
    obtain ⟨rfl, -⟩ := List.append_inj' heq rfl
    exact h xs zs e' rfl

theorem Preceded.left {P : List α → α → Prop} {es fs : List α} (h : Preceded P (es ++ fs)) :
    Preceded P es := by
  intro xs ys e heq
  exact h xs (ys ++ fs) e (by rw [heq, List.append_assoc, List.cons_append])

/-- Forward simulation by a partial deterministic machine: if every concrete
step is matched by the abstract step of its label, so is every run. -/
theorem run_simulates {τ β : Type} {s : σ} {I : σ → Prop} {abs : σ → τ}
    {label : Transition σ α → β} {astep : τ → β → Option τ} (h0 : I s)
    (hstep : ∀ t a, I t → I (step t a))
    (hsim : ∀ t a, I t → astep (abs t) (label ⟨t, a, step t a⟩) = some (abs (step t a)))
    (as : List α) :
    ((trace step s as).map label).foldlM astep (abs s) = some (abs (run step s as)) := by
  have h : I (run step s as) ∧
      ((trace step s as).map label).foldlM astep (abs s) = some (abs (run step s as)) := by
    refine run_induction (R := fun ts t => I t ∧
      (ts.map label).foldlM astep (abs s) = some (abs t)) ⟨h0, rfl⟩ ?_ as
    intro ts t a ih
    refine ⟨hstep t a ih.1, ?_⟩
    rw [List.map_append, List.foldlM_append, ih.2]
    simpa using hsim t a ih.1
  exact h.2

/-- A machine with a journal: where the entries of every step take the view of the state
before it to that of the state after it, the journal of a run reconstructs the view. -/
theorem run_journal {τ β : Type} {s : σ} {I : σ → Prop} {journal : σ → List β} {view : σ → τ}
    {enter : τ → β → τ} {start : τ} (h0 : I s) (hs : (journal s).foldl enter start = view s)
    (hI : ∀ t a, I t → I (step t a))
    (hstep : ∀ t a, I t → ∃ es, journal (step t a) = journal t ++ es ∧
      es.foldl enter (view t) = view (step t a)) (as : List α) :
    (journal (run step s as)).foldl enter start = view (run step s as) := by
  have h : I (run step s as) ∧ (journal (run step s as)).foldl enter start =
      view (run step s as) := by
    refine run_invariant (I := fun t => I t ∧ (journal t).foldl enter start = view t) ⟨h0, hs⟩ ?_ as
    intro t a ih
    obtain ⟨es, hes, hview⟩ := hstep t a ih.1
    refine ⟨hI t a ih.1, ?_⟩
    rw [hes, List.foldl_append, ih.2, hview]
  exact h.2

end PayFi.Library.Machine
