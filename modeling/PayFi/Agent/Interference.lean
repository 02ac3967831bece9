import PayFi.Agent.Queueing
import PayFi.Agent.Webhook
import PayFi.Library.Noninterference
import PayFi.Network.Backoff

namespace PayFi.Agent.Interference

open Library.Programs Library.Machine Library.Parties Library.Noninterference Network
  Network.Submission Execution Calls Webhook

inductive Thread (I : Interface) where
  | task (call : ℕ) (p : Routine I (Except Fault (AgentResult I.Data)))
  | detached (p : Routine I Unit)
  | webhook (p : Routine I Unit)

structure Call (I : Interface) where
  task : AgentTask I.Payload
  correlationId : String
  queued : Bool
  promise : Option (Except Fault (AgentResult I.Data))

/-- What the threads share: the agent, the backoff lock, and a memory of the tasks' own (the
account cache, the spending window, the database). -/
structure Core (I : Interface) where
  activeTasks : ℕ
  isDraining : Bool
  taskQueue : List ℕ
  calls : List (Call I)
  throttle : Backoff.Throttle
  memory : I.Memory

structure World (I : Interface) where
  core : Core I
  threads : List (Thread I)

/-- The agent's settings, and the programs that its tasks are. -/
structure Setup (I : Interface) where
  queue : Queue.Config
  webhook : Webhook.Config I
  executeTask : AgentTask I.Payload → String → Routine I (Except Fault (AgentResult I.Data))
  detached : I.Detached → Routine I Unit

/-- Whatever the webhook endpoint has a part in is an action of its own. -/
inductive Action (I : Interface) where
  | run (task : AgentTask I.Payload) (correlationId : String)
  | drain
  | advance (i : ℕ) (now : ℤ)
  | respond (i : ℕ) (response : I.Response)
  | wake (i : ℕ)
  | proceed (now : ℤ)
  | fire (i : ℕ) (now : ℤ)
  | advanceWebhook (i : ℕ) (now : ℤ)
  | wakeWebhook (i : ℕ)
  | reply (i : ℕ) (reply : Reply)

variable {I : Interface} {R : Type} (su : Setup I)

def start (c : Core I) (id : ℕ) : Core I × List (Thread I) :=
  match c.calls[id]? with
  | none => (c, [])
  | some call => ({ c with activeTasks := c.activeTasks + 1 },
      [.task id (su.executeTask call.task call.correlationId)])

def refuse (c : Core I) (task : AgentTask I.Payload) (correlationId error : String) : Core I :=
  let rejection := Queue.rejection task correlationId error
  { c with calls := c.calls ++ [⟨task, correlationId, false, some (.ok rejection)⟩] }

def run (c : Core I) (task : AgentTask I.Payload) (correlationId : String) :
    Core I × List (Thread I) :=
  match Queueing.admission su.queue c.isDraining c.activeTasks c.taskQueue.length with
  | .refused error => (refuse c task correlationId error, [])
  | .waits => ({ c with
      taskQueue := c.taskQueue ++ [c.calls.length]
      calls := c.calls ++ [⟨task, correlationId, true, none⟩] }, [])
  | .starts =>
    start su { c with calls := c.calls ++ [⟨task, correlationId, false, none⟩] } c.calls.length

def dispatchQueued (c : Core I) : Core I × List (Thread I) :=
  match Queueing.shift su.queue c.activeTasks c.taskQueue with
  | none => (c, [])
  | some (next, rest) => start su { c with taskQueue := rest } next

def finish (c : Core I) (id : ℕ) (out : Except Fault (AgentResult I.Data)) :
    Core I × List (Thread I) :=
  dispatchQueued su { c with
    activeTasks := c.activeTasks - 1
    calls := c.calls.modify id fun call =>
      { call with promise := Queue.settlement call.queued out } }

def Core.lock (c : Core I) (a : Backoff.Action) : Core I :=
  { c with throttle := Backoff.step c.throttle a }

def admitted (s : Backoff.Throttle) (id : ℕ) : Option Bool :=
  s.events.findSome? fun
    | .started n _ => if n = id then some true else none
    | .ran _ n _ => if n = id then some true else none
    | .superseded _ n => if n = id then some false else none
    | _ => none

def advance (c : Core I) (now : ℤ) : Routine I R → Routine I R × Core I × List (Thread I)
  | .ask .isThrottled rest =>
    (rest (Backoff.isThrottled c.throttle now).1, c.lock (.isThrottled now), [])
  | .ask .withBackoffGuard rest =>
    (.ask (.guarded c.throttle.calls) rest, c.lock (.withBackoffGuard now), [])
  | .ask (.guarded id) rest =>
    match admitted c.throttle id with
    | none => (.ask (.guarded id) rest, c, [])
    | some b => (rest b, c, [])
  | .ask (.handleRateLimitResponse header) rest =>
    (rest (), c.lock (.handleRateLimitResponse header now now), [])
  | .ask .now rest => (rest now, c, [])
  | .ask (.update f) rest => (rest c.memory, { c with memory := f c.memory }, [])
  | .ask (.fork d) rest => (rest (), c, [.detached (su.detached d)])
  | .ask (.dispatchWebhook result) rest =>
    (rest (), c, [.webhook (dispatchWebhook su.webhook result ⟨none, none⟩)])
  | p => (p, c, [])

def respond (response : I.Response) : Routine I R → Routine I R
  | .ask (.request _) rest => rest response
  | p => p

def wake : Routine I R → Routine I R
  | .ask (.sleep _) rest => rest ()
  | p => p

def reply (r : Reply) : Routine I R → Routine I R
  | .ask (.post ..) rest => rest r
  | p => p

/-- What an action does with the thread it is about: what becomes of the thread, and of the
core, and which threads it starts. -/
abbrev Move (I : Interface) : Type :=
  Core I → Thread I → Thread I × Core I × List (Thread I)

def move (f : Move I) (w : World I) (i : ℕ) : World I :=
  match w.threads[i]? with
  | none => w
  | some t => ⟨(f w.core t).2.1, w.threads.set i (f w.core t).1 ++ (f w.core t).2.2⟩

def advanceThread (now : ℤ) : Move I := fun c t =>
  match t with
  | .task id (.done out) => (.detached (.done ()), finish su c id out)
  | .task id p =>
    let (p, next) := advance su c now p
    (.task id p, next)
  | .detached p =>
    let (p, next) := advance su c now p
    (.detached p, next)
  | .webhook p => (.webhook p, c, [])

def answerThread (f : {R : Type} → Routine I R → Routine I R) : Move I := fun c t =>
  match t with
  | .task id p => (.task id (f p), c, [])
  | .detached p => (.detached (f p), c, [])
  | .webhook p => (.webhook p, c, [])

def advanceDelivery (now : ℤ) : Move I := fun c t =>
  match t with
  | .webhook p =>
    let (p, next) := advance su c now p
    (.webhook p, next)
  | t => (t, c, [])

def answerDelivery (f : Routine I Unit → Routine I Unit) : Move I := fun c t =>
  match t with
  | .webhook p => (.webhook (f p), c, [])
  | t => (t, c, [])

def World.spawn (w : World I) (next : Core I × List (Thread I)) : World I :=
  ⟨next.1, w.threads ++ next.2⟩

def step (w : World I) : Action I → World I
  | .run task correlationId => w.spawn (run su w.core task correlationId)
  | .drain => w.spawn ({ w.core with isDraining := true }, [])
  | .advance i now => move (advanceThread su now) w i
  | .respond i response => move (answerThread (respond response)) w i
  | .wake i => move (answerThread wake) w i
  | .proceed now => w.spawn (w.core.lock (.proceed now), [])
  | .fire i now => w.spawn (w.core.lock (.fire i now), [])
  | .advanceWebhook i now => move (advanceDelivery su now) w i
  | .wakeWebhook i => move (answerDelivery wake) w i
  | .reply i r => move (answerDelivery (reply r)) w i

def idle (memory : I.Memory) : World I := ⟨⟨0, false, [], [], Backoff.idle, memory⟩, []⟩

def Action.webhook : Action I → Bool
  | .advanceWebhook .. => true
  | .wakeWebhook _ => true
  | .reply .. => true
  | _ => false

/-- The action is a reply that reports a rate limit. -/
def Action.limits : Action I → Bool
  | .reply _ r => r.status == some 429
  | _ => false

def Thread.mute : Thread I → Thread I
  | .webhook _ => .webhook (.done ())
  | t => t

def World.mute (w : World I) : World I := ⟨w.core, w.threads.map Thread.mute⟩

def Thread.Quiet : Thread I → Prop
  | .webhook p => Webhook.Quiet p
  | _ => True

variable {su} {w v : World I} {f : Move I} {c : Core I}

theorem mute_eq_mute {t u : Thread I} (h : t.mute = u.mute) :
    t = u ∨ ∃ p q, t = .webhook p ∧ u = .webhook q := by
  cases t with
  | webhook p =>
    cases u with
    | webhook q => exact .inr ⟨p, q, rfl, rfl⟩
    | task _ _ | detached _ => cases h
  | task _ _ | detached _ =>
    cases u with
    | webhook q => cases h
    | task _ _ | detached _ => exact .inl h

theorem set_mute {ts : List (Thread I)} {i : ℕ} {t u : Thread I} (ht : ts[i]? = some t)
    (hu : u.mute = t.mute) : (ts.set i u).map Thread.mute = ts.map Thread.mute := by
  obtain ⟨hi, rfl⟩ := List.getElem?_eq_some_iff.mp ht
  rw [List.map_set, hu]
  apply List.ext_getElem?
  intro j
  by_cases hj : i = j
  · subst hj
    simp [hi]
  · rw [List.getElem?_set_ne hj]

theorem move_mute (hf : ∀ c p, f c (.webhook p) = (.webhook p, c, [])) (h : w.mute = v.mute)
    (i : ℕ) : (move f w i).mute = (move f v i).mute := by
  obtain ⟨hcore, hthreads⟩ := World.mk.inj h
  have hi := congrArg (fun ts => ts[i]?) hthreads
  simp only [List.getElem?_map] at hi
  cases ht : w.threads[i]? with
  | none =>
    cases hu : v.threads[i]? with
    | none => simpa only [move, ht, hu] using h
    | some u => simp [ht, hu] at hi
  | some t =>
    cases hu : v.threads[i]? with
    | none => simp [ht, hu] at hi
    | some u =>
      simp only [ht, hu, Option.map_some, Option.some.injEq] at hi
      obtain rfl | ⟨p, q, rfl, rfl⟩ := mute_eq_mute hi
      · simp only [move, ht, hu, World.mute, List.map_append, List.map_set, hcore, hthreads]
      · simp only [move, ht, hu, hf, World.mute, List.append_nil, set_mute ht rfl, set_mute hu rfl,
          hcore, hthreads]

theorem move_confined (hf : ∀ c t, t.Quiet → (f c t).1.mute = t.mute ∧ (f c t).2 = (c, []))
    (h : ∀ t ∈ w.threads, t.Quiet) (i : ℕ) : (move f w i).mute = w.mute := by
  cases ht : w.threads[i]? with
  | none => simp only [move, ht]
  | some t =>
    obtain ⟨hmute, hrest⟩ := hf w.core t (h t (List.mem_of_getElem? ht))
    simp only [move, ht, hrest, World.mute, List.append_nil, set_mute ht hmute]

theorem move_quiet (hf : ∀ c t, t.Quiet → (f c t).1.Quiet ∧ ∀ s ∈ (f c t).2.2, s.Quiet)
    (h : ∀ t ∈ w.threads, t.Quiet) (i : ℕ) : ∀ t ∈ (move f w i).threads, t.Quiet := by
  rw [move]
  split
  · exact h
  · rename_i t ht
    obtain ⟨hquiet, hstarted⟩ := hf w.core t (h t (List.mem_of_getElem? ht))
    refine List.forall_mem_append.mpr ⟨fun s hs => ?_, hstarted⟩
    obtain hs | rfl := List.mem_or_eq_of_mem_set hs
    · exact h s hs
    · exact hquiet

theorem start_quiet (c : Core I) (id : ℕ) : ∀ s ∈ (start su c id).2, s.Quiet := by
  rw [start]
  split
  · simp
  · exact List.forall_mem_singleton.mpr trivial

theorem dispatchQueued_quiet (c : Core I) : ∀ s ∈ (dispatchQueued su c).2, s.Quiet := by
  rw [dispatchQueued]
  split
  · simp
  · exact start_quiet _ _

theorem run_quiet (c : Core I) (task : AgentTask I.Payload) (correlationId : String) :
    ∀ s ∈ (run su c task correlationId).2, s.Quiet := by
  rw [run]
  cases Queueing.admission su.queue c.isDraining c.activeTasks c.taskQueue.length with
  | refused error => simp
  | waits => simp
  | starts => exact start_quiet _ _

theorem advance_started (c : Core I) (now : ℤ) (p : Routine I R) :
    ∀ s ∈ (advance su c now p).2.2, s.Quiet := by
  cases p with
  | done r => simp [advance]
  | ask q rest =>
    cases q with
    | fork d => exact List.forall_mem_singleton.mpr trivial
    | dispatchWebhook result => exact List.forall_mem_singleton.mpr (dispatchWebhook_quiet ..)
    | guarded id =>
      rw [advance]
      split
      · simp
      · simp
    | _ => simp [advance]

theorem advanceThread_quiet (now : ℤ) (c : Core I) {t : Thread I} (h : t.Quiet) :
    (advanceThread su now c t).1.Quiet ∧ ∀ s ∈ (advanceThread su now c t).2.2, s.Quiet := by
  cases t with
  | task id p =>
    cases p with
    | done out => exact ⟨trivial, dispatchQueued_quiet _⟩
    | ask q rest => exact ⟨trivial, advance_started c now _⟩
  | detached p => exact ⟨trivial, advance_started c now _⟩
  | webhook p => exact ⟨h, by simp [advanceThread]⟩

theorem answerThread_quiet (f : {R : Type} → Routine I R → Routine I R) (c : Core I)
    {t : Thread I} (h : t.Quiet) :
    (answerThread f c t).1.Quiet ∧ ∀ s ∈ (answerThread f c t).2.2, s.Quiet := by
  cases t with
  | task id p | detached p => exact ⟨trivial, by simp [answerThread]⟩
  | webhook p => exact ⟨h, by simp [answerThread]⟩

theorem advance_quiet {p : Routine I Unit} (h : Webhook.Quiet p) (c : Core I) (now : ℤ) :
    advance su c now p = (p, c, []) := by
  cases h with
  | done | post h | sleep h => rfl

theorem wake_quiet {p : Routine I Unit} (h : Webhook.Quiet p) : Webhook.Quiet (wake p) := by
  cases h with
  | done => exact .done
  | post h => exact .post h
  | sleep h => exact h

theorem reply_quiet {p : Routine I Unit} {i : ℕ} {r : Reply}
    (hr : (Action.reply (I := I) i r).limits = false) (h : Webhook.Quiet p) :
    Webhook.Quiet (reply r p) := by
  have hstatus : r.status ≠ some 429 := by simpa [Action.limits] using hr
  cases h with
  | done => exact .done
  | post h => exact h r hstatus
  | sleep h => exact .sleep h

def Confined (f : Move I) : Prop :=
  ∀ c t, t.Quiet → (f c t).1.Quiet ∧ (f c t).1.mute = t.mute ∧ (f c t).2 = (c, [])

theorem advanceDelivery_confined (now : ℤ) : Confined (advanceDelivery su now) := by
  intro c t h
  cases t with
  | webhook p =>
    have hadvance : advanceDelivery su now c (.webhook p) = (.webhook p, c, []) := by
      simp only [advanceDelivery, advance_quiet h]
    rw [hadvance]
    exact ⟨h, rfl, rfl⟩
  | task _ _ | detached _ => exact ⟨trivial, rfl, rfl⟩

theorem answerDelivery_confined {f : Routine I Unit → Routine I Unit}
    (hf : ∀ p, Webhook.Quiet p → Webhook.Quiet (f p)) : Confined (answerDelivery f) := by
  intro c t h
  cases t with
  | webhook p => exact ⟨hf p h, rfl, rfl⟩
  | task _ _ | detached _ => exact ⟨trivial, rfl, rfl⟩

theorem Confined.quiet (hf : Confined f) (h : ∀ t ∈ w.threads, t.Quiet) (i : ℕ) :
    ∀ t ∈ (move f w i).threads, t.Quiet := by
  apply move_quiet _ h
  intro c t ht
  obtain ⟨hquiet, -, hrest⟩ := hf c t ht
  exact ⟨hquiet, by simp [hrest]⟩

theorem Confined.mute (hf : Confined f) (h : ∀ t ∈ w.threads, t.Quiet) (i : ℕ) :
    (move f w i).mute = w.mute :=
  move_confined (fun c t ht => (hf c t ht).2) h i

theorem spawn_quiet (h : ∀ t ∈ w.threads, t.Quiet) {next : Core I × List (Thread I)}
    (hnext : ∀ t ∈ next.2, t.Quiet) : ∀ t ∈ (w.spawn next).threads, t.Quiet :=
  List.forall_mem_append.mpr ⟨h, hnext⟩

theorem spawn_mute (h : w.mute = v.mute) (next : Core I × List (Thread I)) :
    (w.spawn next).mute = (v.spawn next).mute := by
  obtain ⟨-, hthreads⟩ := World.mk.inj h
  simp only [World.spawn, World.mute, List.map_append, hthreads]

theorem step_quiet (a : Action I) (ha : a.limits = false) (h : ∀ t ∈ w.threads, t.Quiet) :
    ∀ t ∈ (step su w a).threads, t.Quiet := by
  cases a with
  | run task correlationId => exact spawn_quiet h (run_quiet _ _ _)
  | drain | proceed now | fire i now => exact spawn_quiet h (by simp)
  | advance i now => exact move_quiet (fun c t => advanceThread_quiet now c) h i
  | respond i response => exact move_quiet (fun c t => answerThread_quiet _ c) h i
  | wake i => exact move_quiet (fun c t => answerThread_quiet _ c) h i
  | advanceWebhook i now => exact (advanceDelivery_confined now).quiet h i
  | wakeWebhook i => exact (answerDelivery_confined fun p => wake_quiet).quiet h i
  | reply i r => exact (answerDelivery_confined fun p => reply_quiet ha).quiet h i

theorem step_webhook (a : Action I) (hw : a.webhook = true) (ha : a.limits = false)
    (h : ∀ t ∈ w.threads, t.Quiet) : (step su w a).mute = w.mute := by
  cases a with
  | advanceWebhook i now => exact (advanceDelivery_confined now).mute h i
  | wakeWebhook i => exact (answerDelivery_confined fun p => wake_quiet).mute h i
  | reply i r => exact (answerDelivery_confined fun p => reply_quiet ha).mute h i
  | _ => cases hw

theorem step_mute (a : Action I) (ha : a.webhook = false) (h : w.mute = v.mute) :
    (step su w a).mute = (step su v a).mute := by
  have hcore : w.core = v.core := (World.mk.inj h).1
  cases a with
  | run task correlationId | drain | proceed now | fire i now =>
    simp only [step, hcore]
    exact spawn_mute h _
  | advance i now => exact move_mute (fun c p => rfl) h i
  | respond i response => exact move_mute (fun c p => rfl) h i
  | wake i => exact move_mute (fun c p => rfl) h i
  | _ => cases ha

/-- Two runs that differ only in what the webhook endpoint does: where it reports no rate
limit, every call of `run` comes to the same, whatever the tasks are. -/
theorem webhook_noninterference (su : Setup I) (memory : I.Memory) (as bs : List (Action I))
    (hsame : as.filter (!·.webhook) = bs.filter (!·.webhook)) (has : ∀ a ∈ as, a.limits = false)
    (hbs : ∀ b ∈ bs, b.limits = false) :
    (Library.Machine.run (step su) (idle memory) as).core.calls =
      (Library.Machine.run (step su) (idle memory) bs).core.calls := by
  have hmute : (Library.Machine.run (step su) (idle memory) as).mute =
      (Library.Machine.run (step su) (idle memory) bs).mute := by
    refine noninterference (I := fun w : World I => ∀ t ∈ w.threads, t.Quiet)
      (C := fun a : Action I => a.limits = false) ?_ ?_ ?_ hsame has hbs (by simp [idle])
    · intro w a ha h
      exact step_quiet a ha h
    · intro w a hw ha h
      exact step_webhook a (by simpa using hw) ha h
    · intro w v a hw h
      exact step_mute a (by simpa using hw) h
  exact congrArg Core.calls (World.mk.inj hmute).1

/-- Requests that are answered with a text or an error. -/
def lookups : Interface := ⟨Unit, String, Unit, Unit, Except (Fault × Option String) String, Unit⟩

def lookUp : Routine lookups (Except Fault String) :=
  withBackoffGuard (withRetry (.ask (.request ()) .done) 3 1000 30000)

def agent : Setup lookups where
  queue := ⟨2, 0, by decide⟩
  webhook := ⟨some "https://example.com/webhook", none, fun _ => "", fun _ _ => ""⟩
  executeTask := fun task correlationId => lookUp.bind fun out =>
    let result : AgentResult String := match out with
      | .ok data => ⟨true, task.type, some data, none, none, correlationId, none⟩
      | .error e => ⟨false, task.type, none, some e.message, none, correlationId, none⟩
    .ask (.dispatchWebhook result) fun _ => .done (.ok result)
  detached := fun _ => .done ()

/-- The first lookup succeeds, and its delivery is replied to while the second one, whose
first attempt has failed, waits for its next attempt. -/
def schedule (r : Reply) : List (Action lookups) :=
  [.run ⟨.accountInfo, ()⟩ "first", .run ⟨.accountInfo, ()⟩ "second",
    .advance 0 0, .advance 0 0, .advance 0 0, .respond 0 (.ok "balances"), .advance 0 100,
    .advance 0 100, .advance 1 0, .advance 1 0, .advance 1 0,
    .respond 1 (.error (.error "socket hang up", none)),
    .reply 2 r, .advanceWebhook 2 600,
    .wake 1, .advance 1 1100, .respond 1 (.ok "balances"), .advance 1 1200, .advance 1 1200,
    .wake 1, .advance 1 3300, .advance 1 3300, .advance 1 3300]

def afterReply (r : Reply) : World lookups :=
  Library.Machine.run (step agent) (idle ()) (schedule r)

/-- Whether the calls have succeeded. -/
def successes (r : Reply) : List (Option Bool) :=
  (afterReply r).core.calls.map fun call =>
    match call.promise with
    | some (.ok result) => some result.success
    | _ => none

theorem webhook_noninterference_of_failure :
    (afterReply (.response ⟨some 200, none⟩)).core.calls =
      (afterReply (.error none none)).core.calls :=
  webhook_noninterference agent () _ _ rfl (by decide) (by decide)

/-- A rate limit of the webhook's endpoint fails the second lookup. -/
theorem webhook_interference :
    successes (.response ⟨some 200, none⟩) = [some true, some true] ∧
      successes (.response ⟨some 429, some "60"⟩) = [some true, some false] := by
  decide +kernel

end PayFi.Agent.Interference
