import PayFi.Agent.Middlewares
import PayFi.Agent.Queue

namespace PayFi.Agent.Queueing

open Library.Machine Library.Parties Middlewares

variable {Payload Data Err : Type}

inductive Status where
  | refused
  | waiting
  | executing
  | ended
  deriving DecidableEq

/-- A call of `run` and the promise it has returned. -/
structure Call (Payload Data Err : Type) where
  request : Request Payload Data Err
  queued : Bool
  status : Status
  promise : Option (Except Err (Execution.AgentResult Data))

/-- The agent with all the calls so far, by whose numbers the queue refers to them. -/
structure PayFiAgent (Payload Data Err : Type) where
  activeTasks : ℕ
  isDraining : Bool
  taskQueue : List ℕ
  calls : List (Call Payload Data Err)

inductive Action (Payload Data Err : Type) where
  | run (q : Request Payload Data Err)
  | finish (i : ℕ)
  | drain

def refuse (w : PayFiAgent Payload Data Err) (q : Request Payload Data Err) (error : String) :
    PayFiAgent Payload Data Err :=
  let rejection := Queue.rejection q.task q.correlationId error
  { w with calls := w.calls ++ [⟨q, false, .refused, some (.ok rejection)⟩] }

def Call.start (c : Call Payload Data Err) : Call Payload Data Err :=
  { c with status := .executing }

def executeTask (w : PayFiAgent Payload Data Err) (i : ℕ) : PayFiAgent Payload Data Err :=
  { w with activeTasks := w.activeTasks + 1, calls := w.calls.modify i Call.start }

variable (cfg : Queue.Config) (stringify : Data → Option String)

/-- What `run` does with a call. -/
inductive Admission where
  | starts
  | waits
  | refused (error : String)

def admission (isDraining : Bool) (activeTasks queued : ℕ) : Admission :=
  if isDraining then .refused "Agent is shutting down — task rejected"
  else if cfg.maxConcurrentTasks ≤ activeTasks then
    if 0 < cfg.queueCapacity ∧ queued < cfg.queueCapacity then .waits
    else .refused ("Agent is at capacity — " ++ toString activeTasks ++ "/" ++
      toString cfg.maxConcurrentTasks ++ " concurrent tasks in flight; task rejected")
  else .starts

def shift (activeTasks : ℕ) : List ℕ → Option (ℕ × List ℕ)
  | [] => none
  | next :: rest => if cfg.maxConcurrentTasks ≤ activeTasks then none else some (next, rest)

def Call.settle (c : Call Payload Data Err) : Call Payload Data Err :=
  { c with status := .ended, promise := Queue.settlement c.queued (c.request.execute stringify).1 }

def dispatchQueued (w : PayFiAgent Payload Data Err) : PayFiAgent Payload Data Err :=
  match shift cfg w.activeTasks w.taskQueue with
  | none => w
  | some (next, rest) => executeTask { w with taskQueue := rest } next

def run (w : PayFiAgent Payload Data Err) (q : Request Payload Data Err) :
    PayFiAgent Payload Data Err :=
  match admission cfg w.isDraining w.activeTasks w.taskQueue.length with
  | .refused error => refuse w q error
  | .waits => { w with
      taskQueue := w.taskQueue ++ [w.calls.length]
      calls := w.calls ++ [⟨q, true, .waiting, none⟩] }
  | .starts =>
    executeTask { w with calls := w.calls ++ [⟨q, false, .waiting, none⟩] } w.calls.length

def finish (w : PayFiAgent Payload Data Err) (i : ℕ) : PayFiAgent Payload Data Err :=
  if (w.calls[i]?.map Call.status) = some .executing then
    dispatchQueued cfg { w with
      activeTasks := w.activeTasks - 1
      calls := w.calls.modify i (Call.settle stringify) }
  else w

def step (w : PayFiAgent Payload Data Err) : Action Payload Data Err → PayFiAgent Payload Data Err
  | .run q => run cfg w q
  | .finish i => finish cfg stringify w i
  | .drain => { w with isDraining := true }

def idle : PayFiAgent Payload Data Err := ⟨0, false, [], []⟩

/-- What becomes of the promise when a slot is free and the task starts at once. -/
def atOnce (q : Request Payload Data Err) : Option (Except Err (Execution.AgentResult Data)) :=
  (Library.Machine.run (step cfg stringify) idle [.run q, .finish 0]).calls.head?.bind Call.promise

variable {cfg stringify} {w : PayFiAgent Payload Data Err} {q : Request Payload Data Err}

theorem atOnce_eq : atOnce cfg stringify q = some (q.execute stringify).1 := by
  have hfree : ¬ cfg.maxConcurrentTasks ≤ 0 := by
    have hconcurrent := cfg.concurrent
    omega
  have hadmission : admission cfg false 0 0 = .starts := by
    simp only [admission, hfree, if_false, Bool.false_eq_true]
  have hrun : run cfg idle q = ⟨1, false, [], [⟨q, false, .executing, none⟩]⟩ := by
    simp [run, idle, hadmission, executeTask, Call.start]
  have hfinish : finish cfg stringify ⟨1, false, [], [⟨q, false, .executing, none⟩]⟩ 0 =
      ⟨0, false, [], [⟨q, false, .ended, some (q.execute stringify).1⟩]⟩ := by
    simp [finish, dispatchQueued, shift, Call.settle, Queue.settlement]
  simp only [atOnce, run_cons, run_nil, step, hrun, hfinish]
  rfl

def Call.Settled (stringify : Data → Option String) (c : Call Payload Data Err) : Prop :=
  c.status = .ended → c.promise = Queue.settlement c.queued (c.request.execute stringify).1

theorem executeTask_settled (h : ∀ c ∈ w.calls, c.Settled stringify) (i : ℕ) :
    ∀ c ∈ (executeTask w i).calls, c.Settled stringify := by
  apply forall_mem_modify h
  intro c _ _ hended
  cases hended

theorem dispatchQueued_settled (h : ∀ c ∈ w.calls, c.Settled stringify) :
    ∀ c ∈ (dispatchQueued cfg w).calls, c.Settled stringify := by
  rw [dispatchQueued]
  split
  · exact h
  · exact executeTask_settled h _

theorem run_settled (h : ∀ c ∈ w.calls, c.Settled stringify) (q : Request Payload Data Err) :
    ∀ c ∈ (run cfg w q).calls, c.Settled stringify := by
  have hwaiting : ∀ queued, ∀ c ∈ w.calls ++ [⟨q, queued, .waiting, none⟩],
      c.Settled stringify := by
    intro queued
    apply forall_mem_concat h
    intro hended
    cases hended
  rw [run]
  cases admission cfg w.isDraining w.activeTasks w.taskQueue.length with
  | refused error =>
    apply forall_mem_concat h
    intro hended
    cases hended
  | waits => exact hwaiting true
  | starts => exact executeTask_settled (hwaiting false) _

theorem finish_settled (h : ∀ c ∈ w.calls, c.Settled stringify) (i : ℕ) :
    ∀ c ∈ (finish cfg stringify w i).calls, c.Settled stringify := by
  rw [finish]
  split
  · apply dispatchQueued_settled
    apply forall_mem_modify h
    intro c _ _ _
    rfl
  · exact h

theorem step_settled (a : Action Payload Data Err) (h : ∀ c ∈ w.calls, c.Settled stringify) :
    ∀ c ∈ (step cfg stringify w a).calls, c.Settled stringify := by
  cases a with
  | run q => exact run_settled h q
  | finish i => exact finish_settled h i
  | drain => exact h

theorem settlement_eq_iff (queued : Bool) (out : Except Err (Execution.AgentResult Data)) :
    Queue.settlement queued out = some out ↔ (queued = true → ¬ ∃ e, out = .error e) := by
  cases queued <;> cases out <;> simp [Queue.settlement]

/-- In every run the promise of a call whose execution has ended is settled as if the call
had started at once, unless it was queued and its execution ends with a throw. -/
theorem queueing_transparent_iff (cfg : Queue.Config) (stringify : Data → Option String)
    (as : List (Action Payload Data Err)) :
    ∀ c ∈ (Library.Machine.run (step cfg stringify) idle as).calls, c.status = .ended →
      (c.promise = atOnce cfg stringify c.request ↔ (c.queued = true → ¬ Escapes c.request)) := by
  intro c hc hended
  have hsettled : ∀ c ∈ (Library.Machine.run (step cfg stringify) idle as).calls,
      c.Settled stringify :=
    run_invariant (I := fun w : PayFiAgent Payload Data Err => ∀ c ∈ w.calls, c.Settled stringify)
      (by simp [idle])
      (fun _ a h => step_settled a h) as
  rw [hsettled c hc hended, atOnce_eq, settlement_eq_iff, execute_fst, result_rejects_iff]

/-- A query whose tool ends like this, with a listener of failures that throws. -/
def query (tool : Except String String) : Request Unit String String where
  task := ⟨.sorobanQuery, ()⟩
  correlationId := "id"
  middlewares := []
  env := fun _ => {
    assertWithinSpendingLimit := fun _ => .ok (), tool := fun _ _ => tool, withNetwork := id
    saveResult := fun _ => .ok (), newError := id, describeError := id
    getErrorType := fun _ => "UNKNOWN_ERROR", isStellarRPCError := fun _ => false
    maxRetries := 3, durationMs := 7
    emit := fun
      | .taskFailed _ => .error "listener failed"
      | _ => .ok ()
    describes := fun _ _ => .ok (), timestamp := "2026-01-01T00:00:00.000Z" }

/-- A query that waits for another one to end, and the promise of its call. -/
def second (tool : Except String String) : Option (Call Unit String String) :=
  (Library.Machine.run (step ⟨1, 1, Nat.le_refl 1⟩ some) idle
    [.run (query (.ok "first")), .run (query tool), .finish 0, .finish 1]).calls[1]?

theorem queueing_transparent_of_ok : (second (.ok "second")).bind Call.promise =
    atOnce ⟨1, 1, Nat.le_refl 1⟩ some (query (.ok "second")) := by
  have hsecond : second (.ok "second") = some ⟨query (.ok "second"), true, .ended, _⟩ := rfl
  rw [hsecond]
  exact (queueing_transparent_iff ⟨1, 1, Nat.le_refl 1⟩ some
    [.run (query (.ok "first")), .run (query (.ok "second")), .finish 0, .finish 1] _
    (List.mem_of_getElem? hsecond) rfl).mpr fun _ h => h

/-- The tool of the queued query throws, and so does the listener of that: the promise is
never settled, where at once it would have been rejected. -/
theorem queueing_not_transparent : ∃ c ∈ second (.error "timeout"), c.queued = true ∧
    c.status = .ended ∧ c.promise = none ∧
    atOnce ⟨1, 1, Nat.le_refl 1⟩ some c.request = some (.error "listener failed") :=
  ⟨_, rfl, rfl, rfl, rfl, rfl⟩

end PayFi.Agent.Queueing
