import PayFi.Agent.Execution
import PayFi.Library.Programs
import PayFi.Library.Results

namespace PayFi.Agent.Middlewares

open Library.Programs Library.Results
open Execution (Environment)

/-- What `saveResult` writes. -/
structure Row where
  timestamp : String
  taskType : Execution.TaskType
  success : Bool
  data : Option String
  error : Option String
  correlationId : Option String
  deriving DecidableEq

/-- What a middleware or `next` comes to, with the task as it has been left. -/
abbrev Outcome (Payload Data Err : Type) : Type :=
  Except Err (Execution.AgentResult Data) × Execution.AgentTask Payload

/-- A middleware calls `next`, with the task as it has left it, as often as it likes, and
returns or throws in the end. -/
abbrev Middleware (Payload Data Err : Type) : Type :=
  Execution.AgentTask Payload → Program (Execution.AgentTask Payload)
    (fun _ => Outcome Payload Data Err) (Outcome Payload Data Err)

/-- The passes so far, the rows they have written and what they have done for others to see. -/
structure Log (Data : Type) where
  passes : ℕ
  rows : List Row
  events : List (Execution.Event Data)

variable {Payload Data Err : Type}

/-- `undefined` has no text, and there may be no data. -/
def row (stringify : Data → Option String) (timestamp : String)
    (result : Execution.AgentResult Data) : Row :=
  ⟨timestamp, result.taskType, result.success, result.data.bind stringify, result.error,
    some result.correlationId⟩

def perform (env : Environment Payload Data Err) (correlationId : String)
    (task : Execution.AgentTask Payload) : Except Err (Execution.AgentResult Data) := do
  let data ← Execution.perform env task
  let result := Execution.completed correlationId task data
  env.emit (.taskComplete result)
  env.saveResult result
  return result

def retryExhausted (env : Environment Payload Data Err) (task : Execution.AgentTask Payload)
    (err : Err) (outer : Bool) : Except Err Unit :=
  if outer ∧ env.isStellarRPCError err then
    env.emit (.retryExhausted task.type env.maxRetries)
  else .ok ()

def fail (env : Environment Payload Data Err) (correlationId : String)
    (task : Execution.AgentTask Payload) (err : Err) (outer : Bool) :
    Except Err (Execution.AgentResult Data) := do
  env.describes task err
  retryExhausted env task err outer
  let result := Execution.failure env correlationId task err
    (if outer then some env.durationMs else none)
  env.emit (.taskFailed result)
  return result

/-- What a pass through the inner `executeTask` comes to. -/
def attempt (env : Environment Payload Data Err) (correlationId : String)
    (task : Execution.AgentTask Payload) : Except Err (Execution.AgentResult Data) :=
  match perform env correlationId task with
  | .ok result => .ok result
  | .error err => fail env correlationId task err false

def rows (stringify : Data → Option String) (env : Environment Payload Data Err)
    (correlationId : String) (task : Execution.AgentTask Payload) : List Row :=
  match perform env correlationId task with
  | .ok result => [row stringify env.timestamp result]
  | .error _ => []

/-- What the try block does for others to see: an event is emitted even when one of its
listeners throws. -/
def performEvents (env : Environment Payload Data Err) (correlationId : String)
    (task : Execution.AgentTask Payload) : List (Execution.Event Data) :=
  match Execution.perform env task with
  | .error _ => [.tool false]
  | .ok data =>
    let result := Execution.completed correlationId task data
    match perform env correlationId task with
    | .ok _ => [.tool true, .taskComplete result, .webhook result]
    | .error _ => [.tool true, .taskComplete result]

def failEvents (env : Environment Payload Data Err) (correlationId : String)
    (task : Execution.AgentTask Payload) (err : Err) (outer : Bool) :
    List (Execution.Event Data) :=
  match env.describes task err with
  | .error _ => []
  | .ok () =>
    let exhausted := if outer ∧ env.isStellarRPCError err then
      [.retryExhausted task.type env.maxRetries] else []
    let result := Execution.failure env correlationId task err
      (if outer then some env.durationMs else none)
    match retryExhausted env task err outer, env.emit (.taskFailed result) with
    | .error _, _ => exhausted
    | .ok (), .error _ => exhausted ++ [.taskFailed result]
    | .ok (), .ok () => exhausted ++ [.taskFailed result, .webhook result]

def events (env : Environment Payload Data Err) (correlationId : String)
    (task : Execution.AgentTask Payload) : List (Execution.Event Data) :=
  performEvents env correlationId task ++
    match perform env correlationId task with
    | .ok _ => []
    | .error err => failEvents env correlationId task err false

def chain : List (Middleware Payload Data Err) → Middleware Payload Data Err
  | [], task => .ask task .done
  | m :: ms, task => substitute (chain ms) (m task)

/-- The inner `executeTask` as it is called from the chain. -/
def next (stringify : Data → Option String) (env : ℕ → Environment Payload Data Err)
    (correlationId : String) (task : Execution.AgentTask Payload) (log : Log Data) :
    Outcome Payload Data Err × Log Data :=
  ((attempt (env log.passes) correlationId task, task),
    ⟨log.passes + 1, log.rows ++ rows stringify (env log.passes) correlationId task,
      log.events ++ events (env log.passes) correlationId task⟩)

/-- `executeTask`, each pass of which meets its own environment. -/
def executeTask (stringify : Data → Option String) (env : ℕ → Environment Payload Data Err)
    (correlationId : String) (middlewares : List (Middleware Payload Data Err))
    (task : Execution.AgentTask Payload) :
    Except Err (Execution.AgentResult Data) × Log Data :=
  match follow (next stringify env correlationId) (chain middlewares task) ⟨0, [], []⟩ with
  | ((.ok result, _), log) => (.ok result, log)
  | ((.error err, task), log) =>
    (fail (env log.passes) correlationId task err true,
      { log with events :=
          log.events ++ failEvents (env log.passes) correlationId task err true })

/-- A task as it is executed: with its middlewares, and with what each pass meets. -/
structure Request (Payload Data Err : Type) where
  task : Execution.AgentTask Payload
  correlationId : String
  middlewares : List (Middleware Payload Data Err)
  env : ℕ → Environment Payload Data Err

/-- What the promise of the execution settles to, and the rows that have been written. -/
def Request.execute (stringify : Data → Option String) (q : Request Payload Data Err) :
    Except Err (Execution.AgentResult Data) × List Row :=
  let (out, log) := executeTask stringify q.env q.correlationId q.middlewares q.task
  (out, log.rows)

theorem perform_eq_ok {env : Environment Payload Data Err} {correlationId : String}
    {task : Execution.AgentTask Payload} {result : Execution.AgentResult Data} :
    perform env correlationId task = .ok result ↔
      ∃ data, Execution.perform env task = .ok data ∧
        result = Execution.completed correlationId task data ∧
        env.emit (.taskComplete result) = .ok () ∧ env.saveResult result = .ok () := by
  simp only [perform, bind_eq_ok]
  refine ⟨?_, ?_⟩
  · rintro ⟨data, hdata, ⟨⟩, hemit, ⟨⟩, hsave, hresult⟩
    cases hresult
    exact ⟨data, hdata, rfl, hemit, hsave⟩
  · rintro ⟨data, hdata, rfl, hemit, hsave⟩
    exact ⟨data, hdata, (), hemit, (), hsave, rfl⟩

theorem fail_eq_ok {env : Environment Payload Data Err} {correlationId : String}
    {task : Execution.AgentTask Payload} {err : Err} {outer : Bool}
    {result : Execution.AgentResult Data}
    (h : fail env correlationId task err outer = .ok result) :
    result = Execution.failure env correlationId task err
      (if outer then some env.durationMs else none) := by
  simp only [fail, bind_eq_ok] at h
  obtain ⟨-, -, -, -, -, -, hresult⟩ := h
  cases hresult
  rfl

theorem fail_success {env : Environment Payload Data Err} {correlationId : String}
    {task : Execution.AgentTask Payload} {err : Err} {outer : Bool}
    {result : Execution.AgentResult Data}
    (h : fail env correlationId task err outer = .ok result) : result.success = false := by
  rw [fail_eq_ok h]
  rfl

/-- What makes a catch block throw: describing the error, or one of its listeners. -/
def Throws (env : Environment Payload Data Err) (correlationId : String)
    (task : Execution.AgentTask Payload) (err : Err) (outer : Bool) : Prop :=
  env.describes task err ≠ .ok () ∨ retryExhausted env task err outer ≠ .ok () ∨
    env.emit (.taskFailed (Execution.failure env correlationId task err
      (if outer then some env.durationMs else none))) ≠ .ok ()

theorem fail_throws_iff {env : Environment Payload Data Err} {correlationId : String}
    {task : Execution.AgentTask Payload} {err : Err} {outer : Bool} :
    (∃ e, fail env correlationId task err outer = .error e) ↔
      Throws env correlationId task err outer := by
  simp only [fail, bind_unit_eq_error, Throws]
  simp [pure, Except.pure]

/-- The inner `executeTask`, but for what it writes. -/
def answer (env : ℕ → Environment Payload Data Err) (correlationId : String)
    (task : Execution.AgentTask Payload) (n : ℕ) : Outcome Payload Data Err × ℕ :=
  ((attempt (env n) correlationId task, task), n + 1)

theorem follow_next (stringify : Data → Option String) (env : ℕ → Environment Payload Data Err)
    (correlationId : String) (p : Program (Execution.AgentTask Payload)
      (fun _ => Outcome Payload Data Err) (Outcome Payload Data Err)) (log : Log Data) :
    let passes := (asked (answer env correlationId) p log.passes).zipIdx log.passes
    follow (next stringify env correlationId) p log =
      ((follow (answer env correlationId) p log.passes).1,
        ⟨(follow (answer env correlationId) p log.passes).2,
          log.rows ++ passes.flatMap fun pass => rows stringify (env pass.2) correlationId pass.1,
          log.events ++ passes.flatMap fun pass => events (env pass.2) correlationId pass.1⟩) := by
  induction p generalizing log with
  | done r => simp [follow, asked]
  | ask t rest ih =>
    simp only [follow, asked, next, answer, List.zipIdx_cons, List.flatMap_cons]
    rw [ih, List.append_assoc, List.append_assoc]

def Request.outcome (q : Request Payload Data Err) : Outcome Payload Data Err × ℕ :=
  follow (answer q.env q.correlationId) (chain q.middlewares q.task) 0

def Request.passes (q : Request Payload Data Err) : List (Execution.AgentTask Payload × ℕ) :=
  (asked (answer q.env q.correlationId) (chain q.middlewares q.task) 0).zipIdx

theorem execute_of_ok {stringify : Data → Option String} {q : Request Payload Data Err}
    {result : Execution.AgentResult Data} {task : Execution.AgentTask Payload} {n : ℕ}
    (h : q.outcome = ((.ok result, task), n)) : q.execute stringify = (.ok result,
      q.passes.flatMap fun pass => rows stringify (q.env pass.2) q.correlationId pass.1) := by
  rw [Request.outcome] at h
  simp only [Request.execute, executeTask, follow_next, h, List.nil_append]
  rfl

theorem execute_of_error {stringify : Data → Option String} {q : Request Payload Data Err}
    {err : Err} {task : Execution.AgentTask Payload} {n : ℕ}
    (h : q.outcome = ((.error err, task), n)) : q.execute stringify =
      (fail (q.env n) q.correlationId task err true,
        q.passes.flatMap fun pass => rows stringify (q.env pass.2) q.correlationId pass.1) := by
  rw [Request.outcome] at h
  simp only [Request.execute, executeTask, follow_next, h, List.nil_append]
  rfl

def Request.result (q : Request Payload Data Err) : Except Err (Execution.AgentResult Data) :=
  match q.outcome with
  | ((.ok result, _), _) => .ok result
  | ((.error err, task), n) => fail (q.env n) q.correlationId task err true

/-- A throw gets out of the middlewares, and another one out of the catch block for it. -/
def Escapes (q : Request Payload Data Err) : Prop :=
  match q.outcome with
  | ((.ok _, _), _) => False
  | ((.error err, task), n) => Throws (q.env n) q.correlationId task err true

theorem execute_fst (stringify : Data → Option String) (q : Request Payload Data Err) :
    (q.execute stringify).1 = q.result := by
  obtain ⟨⟨⟨out, task⟩, n⟩, houtcome⟩ : ∃ o, q.outcome = o := ⟨_, rfl⟩
  cases out with
  | ok result => simp only [execute_of_ok houtcome, Request.result, houtcome]
  | error err => simp only [execute_of_error houtcome, Request.result, houtcome]

theorem result_rejects_iff {q : Request Payload Data Err} :
    (∃ e, q.result = .error e) ↔ Escapes q := by
  obtain ⟨⟨⟨out, task⟩, n⟩, houtcome⟩ : ∃ o, q.outcome = o := ⟨_, rfl⟩
  cases out with
  | ok result => simp [Request.result, Escapes, houtcome]
  | error err => simp only [Request.result, Escapes, houtcome, fail_throws_iff]

end PayFi.Agent.Middlewares
