import PayFi.Agent.Middlewares

namespace PayFi.Agent.Reporting

open Library.Programs Middlewares
open Execution (AgentTask AgentResult Environment Event)

variable {Payload Data Err : Type}

/-- A middleware that calls `next` at most once, and returns its result when it returns at
all: it may throw before `next`, or when `next` has come back. -/
structure Once (Payload Data Err : Type) where
  before : AgentTask Payload → Option Err × AgentTask Payload
  after : AgentTask Payload → AgentResult Data → Option Err × AgentTask Payload
  rethrow : AgentTask Payload → Err → Err × AgentTask Payload

/-- What the middleware makes of what `next` has come to. -/
def Once.leave (m : Once Payload Data Err) : Outcome Payload Data Err → Outcome Payload Data Err
  | (.ok result, task) =>
    match m.after task result with
    | (some err, task) => (.error err, task)
    | (none, task) => (.ok result, task)
  | (.error err, task) => (.error (m.rethrow task err).1, (m.rethrow task err).2)

def Once.toMiddleware (m : Once Payload Data Err) : Middleware Payload Data Err := fun task =>
  match m.before task with
  | (some err, task) => .done (.error err, task)
  | (none, task) => .ask task fun out => .done (m.leave out)

def entered : List (Once Payload Data Err) → AgentTask Payload →
    Except (Err × AgentTask Payload) (AgentTask Payload)
  | [], task => .ok task
  | m :: ms, task =>
    match m.before task with
    | (some err, task) => .error (err, task)
    | (none, task) => (entered ms task).mapError fun (err, task) => m.rethrow task err

/-- What the middlewares make of what the tool has come to, the last registered one first. -/
def leave : List (Once Payload Data Err) → Outcome Payload Data Err → Outcome Payload Data Err
  | [], out => out
  | m :: ms, out => m.leave (leave ms out)

def rethrown : List (Once Payload Data Err) → Err × AgentTask Payload → Err × AgentTask Payload
  | [], thrown => thrown
  | m :: ms, thrown => m.rethrow (rethrown ms thrown).2 (rethrown ms thrown).1

/-- One terminal event, and a result that says success exactly when the tool call has
resolved. -/
def Faithful (out : Except Err (AgentResult Data)) (events : List (Event Data)) : Prop :=
  match out with
  | .ok result => events.countP Event.terminal = 1 ∧ result.success = events.any Event.resolved
  | .error _ => False

instance (out : Except Err (AgentResult Data)) (events : List (Event Data)) :
    Decidable (Faithful out events) :=
  match out with
  | .ok _ => inferInstanceAs (Decidable (_ ∧ _))
  | .error _ => .isFalse id

/-- No middleware throws once `next` has returned. -/
def Returns (ms : List (Once Payload Data Err)) (task : AgentTask Payload)
    (result : AgentResult Data) : Prop :=
  (leave ms (.ok result, task)).1 = .ok result

/-- Where the tool resolves, nothing throws after it: no listener, not the database, and no
middleware. Where it does not, the catch block for that reports it and no middleware throws
after; or the catch block cannot even describe the error, and the outer one reports that. Where
a middleware throws before the tool is called, the outer catch block reports it. -/
def Undisturbed (env : ℕ → Environment Payload Data Err) (correlationId : String)
    (ms : List (Once Payload Data Err)) (task : AgentTask Payload) : Prop :=
  match entered ms task with
  | .error (err, t) => ¬Throws (env 0) correlationId t err true
  | .ok t =>
    match Execution.perform (env 0) t with
    | .ok data =>
      let result := Execution.completed correlationId t data
      (env 0).emit (.taskComplete result) = .ok () ∧ (env 0).saveResult result = .ok () ∧
        Returns ms t result
    | .error err =>
      match (env 0).describes t err with
      | .ok () =>
        let result := Execution.failure (env 0) correlationId t err none
        (env 0).emit (.taskFailed result) = .ok () ∧ Returns ms t result
      | .error err' =>
        ¬Throws (env 1) correlationId (rethrown ms (err', t)).2 (rethrown ms (err', t)).1 true

variable {ms : List (Once Payload Data Err)} {task t : AgentTask Payload}
  {env : ℕ → Environment Payload Data Err} {e : Environment Payload Data Err}
  {correlationId : String} {stringify : Data → Option String} {result : AgentResult Data}

theorem leave_error (ms : List (Once Payload Data Err)) (err : Err) (t : AgentTask Payload) :
    leave ms (.error err, t) = (.error (rethrown ms (err, t)).1, (rethrown ms (err, t)).2) := by
  induction ms with
  | nil => rfl
  | cons m ms ih =>
    rw [leave, ih]
    rfl

theorem leave_ok (ms : List (Once Payload Data Err)) (t : AgentTask Payload)
    (result : AgentResult Data) :
    (leave ms (.ok result, t)).1 = .ok result ∨
      ∃ err, (leave ms (.ok result, t)).1 = .error err := by
  induction ms with
  | nil => exact .inl rfl
  | cons m ms ih =>
    obtain ⟨⟨out, t'⟩, hleave⟩ : ∃ o, leave ms (.ok result, t) = o := ⟨_, rfl⟩
    rw [leave, hleave]
    rw [hleave] at ih
    cases out with
    | error err => exact .inr ⟨_, rfl⟩
    | ok result' =>
      obtain hok | ⟨err, herror⟩ := ih
      · cases hok
        simp only [Once.leave]
        split
        · exact .inr ⟨_, rfl⟩
        · exact .inl rfl
      · cases herror

theorem follow_once {S : Type} (handler : AgentTask Payload → S → Outcome Payload Data Err × S)
    (ms : List (Once Payload Data Err)) (task : AgentTask Payload) (s : S) :
    follow handler (chain (ms.map Once.toMiddleware) task) s =
      match entered ms task with
      | .error (err, t) => ((.error err, t), s)
      | .ok t => (leave ms (handler t s).1, (handler t s).2) := by
  induction ms generalizing task with
  | nil => rfl
  | cons m ms ih =>
    rw [List.map_cons, chain, follow_substitute, entered, Once.toMiddleware]
    obtain ⟨thrown, t⟩ := m.before task
    cases thrown with
    | some err => rfl
    | none =>
      simp only [follow, ih]
      cases entered ms t with
      | error thrown => rfl
      | ok t => rfl

theorem executeTask_once (stringify : Data → Option String)
    (env : ℕ → Environment Payload Data Err) (correlationId : String)
    (ms : List (Once Payload Data Err)) (task : AgentTask Payload) :
    executeTask stringify env correlationId (ms.map Once.toMiddleware) task =
      match entered ms task with
      | .error (err, t) => (fail (env 0) correlationId t err true,
          ⟨0, [], failEvents (env 0) correlationId t err true⟩)
      | .ok t =>
        let rows := rows stringify (env 0) correlationId t
        let events := events (env 0) correlationId t
        match leave ms (attempt (env 0) correlationId t, t) with
        | (.ok result, _) => (.ok result, ⟨1, rows, events⟩)
        | (.error err, t) => (fail (env 1) correlationId t err true,
            ⟨1, rows, events ++ failEvents (env 1) correlationId t err true⟩) := by
  rw [executeTask, follow_once]
  cases entered ms task with
  | error thrown => rfl
  | ok t =>
    simp only [next, List.nil_append, Nat.zero_add]
    cases leave ms (attempt (env 0) correlationId t, t) with
    | mk out t' => cases out <;> rfl

theorem fail_of_not_throws {err : Err} {outer : Bool} (h : ¬Throws e correlationId t err outer) :
    fail e correlationId t err outer = .ok (Execution.failure e correlationId t err
      (if outer then some e.durationMs else none)) := by
  cases hfail : fail e correlationId t err outer with
  | error err' => exact absurd (fail_throws_iff.mp ⟨err', hfail⟩) h
  | ok result => rw [fail_eq_ok hfail]

theorem any_failEvents (e : Environment Payload Data Err) (correlationId : String)
    (t : AgentTask Payload) (err : Err) (outer : Bool) :
    (failEvents e correlationId t err outer).any Event.resolved = false := by
  unfold failEvents
  dsimp only
  split
  · rfl
  · split <;> split <;> rfl

theorem countP_failEvents {err : Err} {outer : Bool} (hdescribes : e.describes t err = .ok ())
    (hexhausted : retryExhausted e t err outer = .ok ()) :
    (failEvents e correlationId t err outer).countP Event.terminal = 1 := by
  unfold failEvents
  simp only [hdescribes, hexhausted]
  generalize Execution.failure e correlationId t err (if outer then some e.durationMs else none) =
    failed
  have hquiet : (if outer ∧ e.isStellarRPCError err then
      [Event.retryExhausted t.type e.maxRetries] else []).countP
        (Event.terminal : Event Data → Bool) = 0 := by
    split <;> rfl
  cases e.emit (.taskFailed failed) with
  | error err' =>
    simp only [List.countP_append, hquiet]
    rfl
  | ok =>
    simp only [List.countP_append, hquiet]
    rfl

/-- The outer catch block makes a faithful report where nothing has been reported and the tool
has not resolved. -/
theorem faithful_fail_iff {err : Err} {events : List (Event Data)} :
    Faithful (fail e correlationId t err true)
        (events ++ failEvents e correlationId t err true) ↔
      ¬Throws e correlationId t err true ∧ events.countP Event.terminal = 0 ∧
        events.any Event.resolved = false := by
  by_cases hthrows : Throws e correlationId t err true
  · obtain ⟨err', hfail⟩ := fail_throws_iff.mpr hthrows
    rw [hfail]
    exact iff_of_false id fun h => h.1 hthrows
  · have hnot := hthrows
    simp only [Throws, not_or, not_not] at hnot
    rw [fail_of_not_throws hthrows, Faithful, List.countP_append, List.any_append,
      countP_failEvents hnot.1 hnot.2.1, any_failEvents, Bool.or_false]
    refine ⟨fun h => ⟨hthrows, by omega, h.2.symm⟩, fun h => ⟨by omega, h.2.2.symm⟩⟩

theorem faithful_of_ok (hentered : entered ms task = .ok t)
    (hattempt : attempt (env 0) correlationId t = .ok result)
    (hreported : (events (env 0) correlationId t).countP Event.terminal ≠ 0) :
    Faithful (executeTask stringify env correlationId (ms.map Once.toMiddleware) task).1
        (executeTask stringify env correlationId (ms.map Once.toMiddleware) task).2.events ↔
      Faithful (.ok result : Except Err (AgentResult Data)) (events (env 0) correlationId t) ∧
        Returns ms t result := by
  have hleave := leave_ok ms t result
  simp only [executeTask_once, hentered, hattempt, Returns]
  obtain ⟨⟨out, t'⟩, heq⟩ : ∃ o, leave ms (.ok result, t) = o := ⟨_, rfl⟩
  rw [heq] at hleave ⊢
  obtain rfl | ⟨err, rfl⟩ := hleave
  · exact (and_iff_left rfl).symm
  · simp only [faithful_fail_iff]
    exact iff_of_false (fun h => hreported h.2.1) fun h => by cases h.2

theorem faithful_of_error (hentered : entered ms task = .ok t) {err : Err}
    (hattempt : attempt (env 0) correlationId t = .error err) :
    Faithful (executeTask stringify env correlationId (ms.map Once.toMiddleware) task).1
        (executeTask stringify env correlationId (ms.map Once.toMiddleware) task).2.events ↔
      ¬Throws (env 1) correlationId (rethrown ms (err, t)).2 (rethrown ms (err, t)).1 true ∧
        (events (env 0) correlationId t).countP Event.terminal = 0 ∧
        (events (env 0) correlationId t).any Event.resolved = false := by
  simp only [executeTask_once, hentered, hattempt, leave_error]
  exact faithful_fail_iff

theorem faithful_of_resolved (hentered : entered ms task = .ok t) {data : Data}
    (htool : Execution.perform (env 0) t = .ok data) :
    Faithful (executeTask stringify env correlationId (ms.map Once.toMiddleware) task).1
        (executeTask stringify env correlationId (ms.map Once.toMiddleware) task).2.events ↔
      (env 0).emit (.taskComplete (Execution.completed correlationId t data)) = .ok () ∧
        (env 0).saveResult (Execution.completed correlationId t data) = .ok () ∧
        Returns ms t (Execution.completed correlationId t data) := by
  cases hperform : perform (env 0) correlationId t with
  | ok result =>
    obtain ⟨data', hdata, rfl, hemit, hsave⟩ := perform_eq_ok.mp hperform
    rw [htool] at hdata
    cases hdata
    have hattempt : attempt (env 0) correlationId t =
        .ok (Execution.completed correlationId t data) := by
      simp only [attempt, hperform]
    have hevents : events (env 0) correlationId t =
        [.tool true, .taskComplete (Execution.completed correlationId t data),
          .webhook (Execution.completed correlationId t data)] := by
      simp only [events, performEvents, htool, hperform, List.append_nil]
    rw [faithful_of_ok hentered hattempt (by rw [hevents]; simp [Event.terminal]), hevents]
    exact ⟨fun h => ⟨hemit, hsave, h.2⟩, fun h => ⟨⟨rfl, rfl⟩, h.2.2⟩⟩
  | error err =>
    -- after a tool that has resolved, a catch block says that the task has failed
    have hevents : events (env 0) correlationId t =
        [.tool true, .taskComplete (Execution.completed correlationId t data)] ++
          failEvents (env 0) correlationId t err false := by
      simp only [events, performEvents, htool, hperform]
    have hnot : ¬((env 0).emit (.taskComplete (Execution.completed correlationId t data)) = .ok () ∧
        (env 0).saveResult (Execution.completed correlationId t data) = .ok () ∧
        Returns ms t (Execution.completed correlationId t data)) := by
      rintro ⟨hemit, hsave, -⟩
      rw [perform_eq_ok.mpr ⟨data, htool, rfl, hemit, hsave⟩] at hperform
      cases hperform
    have hcount : (events (env 0) correlationId t).countP Event.terminal ≠ 0 := by
      rw [hevents]
      simp [Event.terminal]
    refine iff_of_false (fun hfaithful => ?_) hnot
    cases hattempt : attempt (env 0) correlationId t with
    | ok result =>
      have hresult : fail (env 0) correlationId t err false = .ok result := by
        simpa only [attempt, hperform] using hattempt
      obtain ⟨⟨-, hsuccess⟩, -⟩ := (faithful_of_ok hentered hattempt hcount).mp hfaithful
      rw [fail_success hresult, hevents] at hsuccess
      simp [Event.resolved] at hsuccess
    | error err' => exact hcount ((faithful_of_error hentered hattempt).mp hfaithful).2.1

theorem faithful_of_thrown (hentered : entered ms task = .ok t) {err : Err}
    (htool : Execution.perform (env 0) t = .error err) :
    Faithful (executeTask stringify env correlationId (ms.map Once.toMiddleware) task).1
        (executeTask stringify env correlationId (ms.map Once.toMiddleware) task).2.events ↔
      match (env 0).describes t err with
      | .ok () =>
        let result := Execution.failure (env 0) correlationId t err none
        (env 0).emit (.taskFailed result) = .ok () ∧ Returns ms t result
      | .error err' =>
        ¬Throws (env 1) correlationId (rethrown ms (err', t)).2 (rethrown ms (err', t)).1 true := by
  have hperform : perform (env 0) correlationId t = .error err := by
    simp only [perform, htool]
    rfl
  have hevents : events (env 0) correlationId t =
      .tool false :: failEvents (env 0) correlationId t err false := by
    simp only [events, performEvents, htool, hperform, List.singleton_append]
  have hexhausted : retryExhausted (env 0) t err false = .ok () := if_neg (by simp)
  cases hdescribes : (env 0).describes t err with
  | ok =>
    have hcount : (events (env 0) correlationId t).countP Event.terminal = 1 := by
      rw [hevents, List.countP_cons, countP_failEvents hdescribes hexhausted]
      rfl
    have hany : (events (env 0) correlationId t).any Event.resolved = false := by
      rw [hevents, List.any_cons, any_failEvents]
      rfl
    by_cases hemit :
        (env 0).emit (.taskFailed (Execution.failure (env 0) correlationId t err none)) = .ok ()
    · have hthrows : ¬Throws (env 0) correlationId t err false := by
        simp [Throws, hdescribes, hexhausted, hemit]
      have hattempt : attempt (env 0) correlationId t =
          .ok (Execution.failure (env 0) correlationId t err none) := by
        simp only [attempt, hperform]
        exact fail_of_not_throws hthrows
      rw [faithful_of_ok hentered hattempt (by omega)]
      exact ⟨fun h => ⟨hemit, h.2⟩, fun h => ⟨⟨hcount, hany.symm⟩, h.2⟩⟩
    · have hthrows : Throws (env 0) correlationId t err false := .inr (.inr hemit)
      obtain ⟨err', hfail⟩ := fail_throws_iff.mpr hthrows
      have hattempt : attempt (env 0) correlationId t = .error err' := by
        simp only [attempt, hperform, hfail]
      rw [faithful_of_error hentered hattempt, hcount]
      exact iff_of_false (fun h => Nat.one_ne_zero h.2.1) fun h => hemit h.1
  | error err' =>
    have hattempt : attempt (env 0) correlationId t = .error err' := by
      simp only [attempt, hperform, fail, hdescribes]
      rfl
    have hnone : events (env 0) correlationId t = [.tool false] := by
      simp only [hevents, failEvents, hdescribes]
    rw [faithful_of_error hentered hattempt, hnone]
    exact and_iff_left ⟨rfl, rfl⟩

/-- A task is reported faithfully exactly when nothing goes wrong with the report of what its
tool has come to. -/
theorem success_reporting_iff (stringify : Data → Option String)
    (env : ℕ → Environment Payload Data Err) (correlationId : String)
    (ms : List (Once Payload Data Err)) (task : AgentTask Payload) :
    Faithful (executeTask stringify env correlationId (ms.map Once.toMiddleware) task).1
        (executeTask stringify env correlationId (ms.map Once.toMiddleware) task).2.events ↔
      Undisturbed env correlationId ms task := by
  cases hentered : entered ms task with
  | error thrown =>
    obtain ⟨err, t⟩ := thrown
    simp only [executeTask_once, Undisturbed, hentered]
    have hnothing : ([] : List (Event Data)).countP Event.terminal = 0 ∧
        ([] : List (Event Data)).any Event.resolved = false := ⟨rfl, rfl⟩
    rw [← List.nil_append (failEvents _ _ _ _ _), faithful_fail_iff]
    exact and_iff_left hnothing
  | ok t =>
    simp only [Undisturbed, hentered]
    cases htool : Execution.perform (env 0) t with
    | ok data => exact faithful_of_resolved hentered htool
    | error err => exact faithful_of_thrown hentered htool

/-- A payment whose tool resolves, with a database that is full; with a middleware that throws
after `next`; and with a listener of the event that throws. -/
theorem success_reporting_unfaithful :
    let env : Environment Unit String String := ⟨fun _ => .ok (), fun _ _ => .ok "hash", id,
      fun _ => .ok (), id, id, fun _ => "UNKNOWN_ERROR", fun _ => false, 3, 7, fun _ => .ok (),
      fun _ _ => .ok (), "2026-01-01T00:00:00.000Z"⟩
    let full : Environment Unit String String :=
      { env with saveResult := fun _ => .error "database or disk is full" }
    let listened : Environment Unit String String :=
      { env with emit := fun
          | .taskComplete _ => .error "listener failed"
          | _ => .ok () }
    let audit : Once Unit String String :=
      ⟨fun task => (none, task), fun task _ => (some "audit log unavailable", task),
        fun task err => (err, task)⟩
    let report env ms :=
      executeTask some (fun _ => env) "id" (ms.map Once.toMiddleware) ⟨.stellarPayment, ()⟩
    ¬Faithful (report full []).1 (report full []).2.events ∧
      ¬Faithful (report env [audit]).1 (report env [audit]).2.events ∧
      ¬Faithful (report listened []).1 (report listened []).2.events := by
  decide

end PayFi.Agent.Reporting
