import PayFi.Agent.Middlewares
import PayFi.Library.Machine

namespace PayFi.Agent.Audit

open Library.Programs Library.Machine Middlewares
open Execution (Environment)

variable {Payload Data Err : Type} (stringify : Data → Option String)

/-- What has become of the tasks executed so far, and the table `agent_results`; every row
carries the number of the execution that has written it. -/
structure World (Data Err : Type) where
  outcomes : List (Except Err (Execution.AgentResult Data))
  agentResults : List (ℕ × Row)

def step (w : World Data Err) (q : Request Payload Data Err) : World Data Err where
  outcomes := w.outcomes ++ [(q.execute stringify).1]
  agentResults := w.agentResults ++ (q.execute stringify).2.map (w.outcomes.length, ·)

def idle : World Data Err := ⟨[], []⟩

/-- The row is one that `saveResult` writes for this result. -/
def records (result : Execution.AgentResult Data) (r : Row) : Bool :=
  r = row stringify r.timestamp result

/-- Every result that `run` has returned is in the table exactly once. -/
def Complete (w : World Data Err) : Prop :=
  ∀ k result, w.outcomes[k]? = some (.ok result) →
    w.agentResults.countP (fun e => e.1 = k ∧ records stringify result e.2) = 1

/-- The pass is completed and saved (the tool resolves, and neither a listener nor the
database throws) with what the result says. -/
def completes (q : Request Payload Data Err) (result : Execution.AgentResult Data)
    (pass : Execution.AgentTask Payload × ℕ) : Bool :=
  match perform (q.env pass.2) q.correlationId pass.1 with
  | .ok completed => row stringify "" completed = row stringify "" result
  | .error _ => false

/-- The middlewares return what exactly one pass has been completed with; or they throw, and
so does the report of that, so that nothing is returned. -/
def Accounted (q : Request Payload Data Err) : Prop :=
  match q.outcome with
  | ((.ok result, _), _) => q.passes.countP (completes stringify q result) = 1
  | ((.error err, task), n) => Throws (q.env n) q.correlationId task err true

variable {stringify} {env : ℕ → Environment Payload Data Err} {correlationId : String}
  {task : Execution.AgentTask Payload} {result : Execution.AgentResult Data}
  {q : Request Payload Data Err} {w : World Data Err}

theorem perform_success {e : Environment Payload Data Err}
    (h : perform e correlationId task = .ok result) : result.success = true := by
  obtain ⟨data, -, rfl, -, -⟩ := perform_eq_ok.mp h
  rfl

theorem countP_rows (stringify : Data → Option String) (q : Request Payload Data Err)
    (passes : List (Execution.AgentTask Payload × ℕ)) (result : Execution.AgentResult Data) :
    (passes.flatMap fun pass => rows stringify (q.env pass.2) q.correlationId pass.1).countP
        (records stringify result) = passes.countP (completes stringify q result) := by
  induction passes with
  | nil => rfl
  | cons pass passes ih =>
    rw [List.flatMap_cons, List.countP_append, List.countP_cons, ih, Nat.add_comm]
    congr 1
    cases hperform : perform (q.env pass.2) q.correlationId pass.1 with
    | error err => simp [rows, completes, hperform]
    | ok completed => simp [rows, completes, records, hperform, row]

theorem countP_failure (stringify : Data → Option String) (q : Request Payload Data Err)
    (passes : List (Execution.AgentTask Payload × ℕ)) (hresult : result.success = false) :
    passes.countP (completes stringify q result) = 0 := by
  rw [List.countP_eq_zero]
  intro pass _ hcompletes
  cases hperform : perform (q.env pass.2) q.correlationId pass.1 with
  | error err => simp [completes, hperform] at hcompletes
  | ok completed =>
    have hsuccess := perform_success hperform
    simp [completes, hperform, row, hsuccess, hresult] at hcompletes

theorem execute_accounted : (∀ result, (q.execute stringify).1 = .ok result →
      (q.execute stringify).2.countP (records stringify result) = 1) ↔
    Accounted stringify q := by
  have hcount := countP_rows stringify q q.passes
  obtain ⟨⟨⟨out, task⟩, n⟩, houtcome⟩ : ∃ o, q.outcome = o := ⟨_, rfl⟩
  cases out with
  | ok result =>
    simp only [execute_of_ok houtcome, Accounted, houtcome, Except.ok.injEq, forall_eq', hcount]
  | error err =>
    simp only [execute_of_error houtcome, Accounted, houtcome, hcount, ← fail_throws_iff]
    cases hfail : fail (q.env n) q.correlationId task err true with
    | error e => simp
    | ok result =>
      have hzero := countP_failure stringify q q.passes (fail_success hfail)
      refine iff_of_false (fun h => ?_) fun ⟨e, he⟩ => ?_
      · have hone := h result rfl
        omega
      · cases he

theorem countP_tagged (rows : List Row) (n k : ℕ) (result : Execution.AgentResult Data) :
    (rows.map (n, ·)).countP (fun e => e.1 = k ∧ records stringify result e.2) =
      if n = k then rows.countP (records stringify result) else 0 := by
  rw [List.countP_map]
  split
  · rename_i hn
    congr 1
    funext r
    simp [hn]
  · rename_i hn
    rw [List.countP_eq_zero]
    simp [hn]

def Numbered (w : World Data Err) : Prop := ∀ e ∈ w.agentResults, e.1 < w.outcomes.length

theorem step_numbered (h : Numbered w) : Numbered (step stringify w q) := by
  intro e he
  simp only [step, List.length_append, List.length_singleton]
  simp only [step, List.mem_append, List.mem_map] at he
  obtain he | ⟨r, -, rfl⟩ := he
  · exact Nat.lt_succ_of_lt (h e he)
  · exact Nat.lt_succ_self _

theorem step_complete_iff (h : Numbered w) :
    Complete stringify (step stringify w q) ↔ Complete stringify w ∧ Accounted stringify q := by
  rw [← execute_accounted]
  have hnew : ∀ k result, (step stringify w q).agentResults.countP
      (fun e => e.1 = k ∧ records stringify result e.2) =
      w.agentResults.countP (fun e => e.1 = k ∧ records stringify result e.2) +
        if w.outcomes.length = k then (q.execute stringify).2.countP (records stringify result)
          else 0 := by
    intro k result
    rw [step, List.countP_append, countP_tagged]
  have hfresh : ∀ result, w.agentResults.countP
      (fun e => e.1 = w.outcomes.length ∧ records stringify result e.2) = 0 := by
    intro result
    rw [List.countP_eq_zero]
    intro e he
    have hlt := h e he
    simp only [decide_eq_true_eq, not_and]
    intro heq
    omega
  refine ⟨fun hc => ⟨fun k result hk => ?_, fun result hr => ?_⟩, fun ⟨hc, ha⟩ k result hk => ?_⟩
  · have hlt : k < w.outcomes.length := (List.getElem?_eq_some_iff.mp hk).1
    have hone := hc k result (by rw [step, List.getElem?_append_left hlt, hk])
    rw [hnew, if_neg (by omega)] at hone
    exact hone
  · have hone := hc w.outcomes.length result (by simp [step, hr])
    rw [hnew, hfresh, if_pos rfl, Nat.zero_add] at hone
    exact hone
  · rw [hnew]
    by_cases hlt : k < w.outcomes.length
    · rw [step, List.getElem?_append_left hlt] at hk
      rw [if_neg (by omega)]
      exact hc k result hk
    · have hlen := (List.getElem?_eq_some_iff.mp hk).1
      simp only [step, List.length_append, List.length_singleton] at hlen
      have hkeq : k = w.outcomes.length := by omega
      subst hkeq
      simp only [step, List.getElem?_concat_length, Option.some.injEq] at hk
      rw [hfresh, if_pos rfl, Nat.zero_add]
      exact ha result hk

/-- After every sequence of tasks the table is complete exactly when every one of them has
been accounted for. -/
theorem audit_complete_iff (stringify : Data → Option String)
    (qs : List (Request Payload Data Err)) :
    Complete stringify (run (step stringify) idle qs) ↔ ∀ q ∈ qs, Accounted stringify q := by
  have h : Numbered (run (step stringify) idle qs) ∧
      (Complete stringify (run (step stringify) idle qs) ↔ ∀ q ∈ qs, Accounted stringify q) := by
    induction qs using List.reverseRecOn with
    | nil => exact ⟨by simp [Numbered, idle], by simp [Complete, idle]⟩
    | append_singleton qs q ih =>
      rw [run_concat]
      refine ⟨step_numbered ih.1, ?_⟩
      rw [step_complete_iff ih.1, ih.2, List.forall_mem_append, List.forall_mem_singleton]
  exact h.2

/-- A failed payment, which leaves no row; and a middleware that makes a query twice, which
leaves two. -/
theorem audit_incomplete :
    let env (tool : Except String String) : Environment Unit String String :=
      ⟨fun _ => .ok (), fun _ _ => tool, id, fun _ => .ok (), id, id, fun _ => "UNKNOWN_ERROR",
        fun _ => false, 3, 7, fun _ => .ok (), fun _ _ => .ok (), "2026-01-01T00:00:00.000Z"⟩
    let twice : Middleware Unit String String := fun task => .ask task fun _ => .ask task .done
    ¬ Complete some (run (step some) idle
        [⟨⟨.stellarPayment, ()⟩, "id", [], fun _ => env (.error "op_underfunded")⟩]) ∧
      ¬ Complete some (run (step some) idle
        [⟨⟨.accountInfo, ()⟩, "id", [twice], fun _ => env (.ok "balance")⟩]) := by
  refine ⟨fun h => ?_, fun h => ?_⟩
  · exact absurd (h 0 _ rfl) (by decide)
  · exact absurd (h 0 _ rfl) (by decide)

end PayFi.Agent.Audit
