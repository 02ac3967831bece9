import PayFi.Agent.Queue

namespace PayFi.Agent.Shutdown

open Library.Machine Queue Middlewares

variable {Payload Data Err : Type}

def hardKillMs : ℕ := 10000

def pollMs : ℕ := 100

/-- What the process waits for. -/
inductive Phase where
  | running
  | pendingTasks (interval : ℕ)
  | serverClose
  | databaseClose
  | telemetryShutdown
  | exited (code : ℕ)
  deriving DecidableEq

inductive Event where
  | initiated (clock : ℕ)
  | serverStopped
  | databaseClosed
  | telemetryDown
  | allReleased
  | failed
  | hardKill (clock : ℕ)
  | unhandled
  deriving DecidableEq

structure Process (Payload Data Err : Type) where
  world : World Payload Data Err
  clock : ℕ
  isShuttingDown : Bool
  hardKill : Option ℕ
  phase : Phase
  isOpen : Bool
  sdk : Bool
  journal : List Event

inductive Action (Payload Data Err : Type) where
  | agent (a : Queue.Action Payload Data Err)
  | pass (ms : ℕ)
  | signal
  | poll
  | serverClosed (err : Bool)
  | databaseClosed
  | telemetryDown (err : Bool)
  | hardKill
  | unhandled

def log (s : Process Payload Data Err) (e : Event) : Process Payload Data Err :=
  { s with journal := s.journal ++ [e] }

def exit (s : Process Payload Data Err) (code : ℕ) : Process Payload Data Err :=
  { s with hardKill := none, phase := .exited code }

def crash (s : Process Payload Data Err) : Process Payload Data Err := exit (log s .unhandled) 1

/-- The catch block of `shutdown`. -/
def fail (s : Process Payload Data Err) : Process Payload Data Err := exit (log s .failed) 1

/-- `waitForPendingTasks` resolves at once, or polls the agent at intervals. -/
def waitForPendingTasks (s : Process Payload Data Err) : Process Payload Data Err :=
  if s.world.agent.activeTasks = 0 ∧ s.world.agent.taskQueue = [] then
    { s with phase := .serverClose }
  else { s with phase := .pendingTasks (s.clock + pollMs) }

def shutdown (s : Process Payload Data Err) : Process Payload Data Err :=
  if s.isShuttingDown then s
  else waitForPendingTasks (log { s with
    isShuttingDown := true
    hardKill := some (s.clock + hardKillMs)
    world := drain s.world } (.initiated s.clock))

def closeDatabase (s : Process Payload Data Err) : Process Payload Data Err :=
  log { s with isOpen := false, phase := .databaseClose } .databaseClosed

def exitCleanly (s : Process Payload Data Err) : Process Payload Data Err :=
  exit (log s .allReleased) 0

def shutdownTelemetry (s : Process Payload Data Err) : Process Payload Data Err :=
  if s.sdk then { s with phase := .telemetryShutdown } else exitCleanly s

variable (cfg : Queue.Config)

/-- The agent moves on. A queued call that rejects is lost: nothing handles its rejection. -/
def advance (s : Process Payload Data Err) (a : Queue.Action Payload Data Err) :
    Process Payload Data Err :=
  let w := Queue.step cfg s.world a
  if w.lost.length = s.world.lost.length then { s with world := w } else crash { s with world := w }

/-- A callback runs when the process waits for it, a timer not before its time. -/
def step (s : Process Payload Data Err) (a : Action Payload Data Err) : Process Payload Data Err :=
  match s.phase, a with
  | .exited _, _ => s
  | _, .agent a => advance cfg s a
  | _, .pass ms => { s with clock := s.clock + ms }
  | _, .signal => shutdown s
  | _, .unhandled => crash s
  | .pendingTasks interval, .poll => if interval ≤ s.clock then waitForPendingTasks s else s
  | .serverClose, .serverClosed err => if err then fail s else closeDatabase (log s .serverStopped)
  | .databaseClose, .databaseClosed => shutdownTelemetry s
  | .telemetryShutdown, .telemetryDown err =>
    if err then fail s else exitCleanly (log { s with sdk := false } .telemetryDown)
  | _, .hardKill =>
    match s.hardKill with
    | some due => if due ≤ s.clock then exit (log s (.hardKill s.clock)) 1 else s
    | none => s
  | _, _ => s

/-- The agent process with a server, a database and, where it is configured, telemetry. -/
def start (telemetry : Bool) : Process Payload Data Err :=
  ⟨idle, 0, false, none, .running, true, telemetry, []⟩

def released (telemetry : Bool) : List Event :=
  [.serverStopped, .databaseClosed] ++ if telemetry then [.telemetryDown] else []

/-- A shutdown that has released `rs` so far and has its hard kill armed. -/
structure Underway (rs : List Event) (s : Process Payload Data Err) : Prop where
  shutting : s.isShuttingDown = true
  draining : s.world.agent.isDraining = true
  armed : ∃ t, s.journal = .initiated t :: rs ∧ s.hardKill = some (t + hardKillMs)
  isOpen : s.isOpen = !rs.contains .databaseClosed

/-- What may end a shutdown before it is complete: an error, which comes only when no task is
open, the hard kill, or what nothing handles. -/
def Ends (t : ℕ) (s : Process Payload Data Err) (e : Event) : Prop :=
  (e = .failed ∧ Drained s.world) ∨ (∃ t', e = .hardKill t' ∧ t + hardKillMs ≤ t') ∨ e = .unhandled

def GivenUp (telemetry : Bool) (s : Process Payload Data Err) : Prop :=
  (s.isShuttingDown = false ∧ s.journal = [.unhandled] ∧ s.isOpen = true) ∨
    ∃ t rs e, s.isShuttingDown = true ∧ s.journal = .initiated t :: rs ++ [e] ∧
      rs <+: released telemetry ∧ s.isOpen = !rs.contains .databaseClosed ∧
      (rs ≠ [] → Drained s.world) ∧ Ends t s e

def Stage (telemetry : Bool) (s : Process Payload Data Err) : Prop :=
  match s.phase with
  | .running => s.isShuttingDown = false ∧ s.journal = [] ∧ s.hardKill = none ∧
    s.isOpen = true ∧ s.sdk = telemetry
  | .pendingTasks interval =>
    Underway [] s ∧ interval ≤ s.clock + pollMs ∧ s.sdk = telemetry
  | .serverClose => Underway [] s ∧ Drained s.world ∧ s.sdk = telemetry
  | .databaseClose =>
    Underway [.serverStopped, .databaseClosed] s ∧ Drained s.world ∧ s.sdk = telemetry
  | .telemetryShutdown =>
    Underway [.serverStopped, .databaseClosed] s ∧ Drained s.world ∧ telemetry = true
  | .exited 0 => s.isShuttingDown = true ∧ Drained s.world ∧ s.isOpen = false ∧
    ∃ t, s.journal = .initiated t :: released telemetry ++ [.allReleased]
  | .exited _ => GivenUp telemetry s

structure Sound (telemetry : Bool) (s : Process Payload Data Err) : Prop where
  slots : Slots cfg 0 s.world
  calls : Calls s.world
  stage : Stage telemetry s
  lost : s.world.lost ≠ [] → s.phase = .exited 1

variable {cfg} {telemetry : Bool} {s : Process Payload Data Err}

theorem start_sound (cfg : Queue.Config) (telemetry : Bool) :
    Sound cfg telemetry (start telemetry : Process Payload Data Err) :=
  ⟨idle_slots cfg, idle_calls, ⟨rfl, rfl, rfl, rfl, rfl⟩, absurd rfl⟩

theorem step_draining (cfg : Queue.Config) {w : World Payload Data Err}
    (h : w.agent.isDraining = true) (a : Queue.Action Payload Data Err) :
    (Queue.step cfg w a).agent.isDraining = true ∧
      (Queue.step cfg w a).accepted = w.accepted := by
  cases a with
  | run q =>
    simp only [Queue.step, Queue.run, h, if_true, refuse, and_self]
  | finish k =>
    simp only [Queue.step, finish]
    split
    · exact ⟨h, rfl⟩
    · rename_i c hc
      obtain ⟨hagent, -, haccepted, -⟩ := leave_agent (release w k) c
      refine ⟨?_, (dispatchQueued_work cfg _).2.trans haccepted⟩
      have hleft : (leave (release w k) c).agent.isDraining = true := by
        rw [hagent]
        exact h
      simp only [dispatchQueued]
      split
      · exact hleft
      · split <;> exact hleft
  | settle k =>
    simp only [Queue.step, settle]
    split <;> exact ⟨h, rfl⟩
  | drain => exact ⟨rfl, rfl⟩

theorem Underway.move {rs : List Event} {w : World Payload Data Err} (h : Underway rs s) (ms : ℕ)
    (hdraining : s.world.agent.isDraining = true → w.agent.isDraining = true) :
    Underway rs { s with world := w, clock := s.clock + ms } :=
  ⟨h.shutting, hdraining h.draining, h.armed, h.isOpen⟩

theorem Stage.move {w : World Payload Data Err} (ms : ℕ) (h : Stage telemetry s)
    (hexited : ∀ code, s.phase ≠ .exited code)
    (hdraining : s.world.agent.isDraining = true → w.agent.isDraining = true)
    (hdrained : Drained s.world → Drained w) :
    Stage telemetry { s with world := w, clock := s.clock + ms } := by
  obtain ⟨world, clock, isShuttingDown, hardKill, phase, isOpen, sdk, journal⟩ := s
  cases phase with
  | running => exact h
  | pendingTasks interval =>
    obtain ⟨hu, hinterval, hsdk⟩ := h
    refine ⟨hu.move ms hdraining, ?_, hsdk⟩
    simp only at hinterval ⊢
    omega
  | serverClose => exact ⟨h.1.move ms hdraining, hdrained h.2.1, h.2.2⟩
  | databaseClose => exact ⟨h.1.move ms hdraining, hdrained h.2.1, h.2.2⟩
  | telemetryShutdown => exact ⟨h.1.move ms hdraining, hdrained h.2.1, h.2.2⟩
  | exited code => exact absurd rfl (hexited code)

theorem waitForPendingTasks_stage (h : Underway [] s) (hs : s.sdk = telemetry) :
    Stage telemetry (waitForPendingTasks s) := by
  rw [waitForPendingTasks]
  split
  · rename_i hidle
    exact ⟨⟨h.shutting, h.draining, h.armed, h.isOpen⟩, ⟨h.draining, hidle⟩, hs⟩
  · exact ⟨⟨h.shutting, h.draining, h.armed, h.isOpen⟩, Nat.le_refl _, hs⟩

theorem waitForPendingTasks_world (s : Process Payload Data Err) :
    (waitForPendingTasks s).world = s.world := by
  rw [waitForPendingTasks]
  split <;> rfl

theorem shutdown_world (s : Process Payload Data Err) :
    (shutdown s).world = s.world ∨ (shutdown s).world = drain s.world := by
  rw [shutdown]
  split
  · exact .inl rfl
  · exact .inr (waitForPendingTasks_world _)

theorem Underway.givenUp {rs : List Event} {e : Event} {t : ℕ} (h : Underway rs s)
    (hrs : rs <+: released telemetry) (hdrained : rs ≠ [] → Drained s.world)
    (hjournal : s.journal = .initiated t :: rs) (hends : Ends t s e) :
    Stage telemetry (exit (log s e) 1) := by
  refine .inr ⟨t, rs, e, h.shutting, ?_, hrs, h.isOpen, hdrained, hends⟩
  simp only [exit, log, hjournal]

theorem Underway.fail {rs : List Event} (h : Underway rs s) (hrs : rs <+: released telemetry)
    (hdrained : Drained s.world) : Stage telemetry (fail s) := by
  obtain ⟨t, hjournal, -⟩ := h.armed
  exact h.givenUp hrs (fun _ => hdrained) hjournal (.inl ⟨rfl, hdrained⟩)

theorem Underway.kill {rs : List Event} {due : ℕ} (h : Underway rs s)
    (hrs : rs <+: released telemetry) (hdrained : rs ≠ [] → Drained s.world)
    (hdue : s.hardKill = some due) (hclock : due ≤ s.clock) :
    Stage telemetry (exit (log s (.hardKill s.clock)) 1) := by
  obtain ⟨t, hjournal, harmed⟩ := h.armed
  rw [hdue] at harmed
  cases harmed
  exact h.givenUp hrs hdrained hjournal (.inr (.inl ⟨s.clock, rfl, hclock⟩))

theorem Underway.exitCleanly (h : Underway (released telemetry) s) (hdrained : Drained s.world) :
    Stage telemetry (exitCleanly s) := by
  obtain ⟨t, hjournal, -⟩ := h.armed
  refine ⟨h.shutting, hdrained, ?_, t, ?_⟩
  · have hopen := h.isOpen
    simpa [released, Shutdown.exitCleanly, exit, log] using hopen
  · simp only [Shutdown.exitCleanly, exit, log, hjournal]

theorem Stage.shutting (h : Stage telemetry s) (hphase : s.phase ≠ .running)
    (hexited : ∀ code, s.phase ≠ .exited code) : s.isShuttingDown = true := by
  obtain ⟨world, clock, isShuttingDown, hardKill, phase, isOpen, sdk, journal⟩ := s
  cases phase with
  | running => exact absurd rfl hphase
  | exited code => exact absurd rfl (hexited code)
  | pendingTasks interval => exact h.1.shutting
  | serverClose => exact h.1.shutting
  | databaseClose => exact h.1.shutting
  | telemetryShutdown => exact h.1.shutting

theorem shutdown_stage (h : Stage telemetry s) (hexited : ∀ code, s.phase ≠ .exited code) :
    Stage telemetry (shutdown s) := by
  by_cases hphase : s.phase = .running
  · obtain ⟨hnot, hjournal, -, hopen, hsdk⟩ := (by simpa only [Stage, hphase] using h)
    rw [shutdown, if_neg (by simp [hnot])]
    refine waitForPendingTasks_stage ⟨rfl, rfl, ⟨s.clock, ?_, rfl⟩, hopen⟩ hsdk
    simp only [log, hjournal, List.nil_append]
  · rw [shutdown, if_pos (h.shutting hphase hexited)]
    exact h

theorem Stage.underway (h : Stage telemetry s) (hrunning : s.phase ≠ .running)
    (hexited : ∀ code, s.phase ≠ .exited code) :
    ∃ rs, Underway rs s ∧ rs <+: released telemetry ∧ (rs ≠ [] → Drained s.world) := by
  rw [Stage] at h
  split at h
  · exact absurd ‹_› hrunning
  · exact ⟨_, h.1, List.nil_prefix, absurd rfl⟩
  · exact ⟨_, h.1, List.nil_prefix, absurd rfl⟩
  · exact ⟨_, h.1, List.prefix_append _ _, fun _ => h.2.1⟩
  · exact ⟨_, h.1, List.prefix_append _ _, fun _ => h.2.1⟩
  · exact absurd ‹_› (hexited _)
  · exact absurd ‹_› (hexited _)

theorem Stage.killed {due : ℕ} (h : Stage telemetry s) (hexited : ∀ code, s.phase ≠ .exited code)
    (hdue : s.hardKill = some due) (hclock : due ≤ s.clock) :
    Stage telemetry (exit (log s (.hardKill s.clock)) 1) := by
  have hrunning : s.phase ≠ .running := by
    intro hphase
    simp [Stage, hphase, hdue] at h
  obtain ⟨rs, hunderway, hrs, hdrained⟩ := h.underway hrunning hexited
  exact hunderway.kill hrs hdrained hdue hclock

theorem Stage.crash (h : Stage telemetry s) (hexited : ∀ code, s.phase ≠ .exited code) :
    Stage telemetry (crash s) := by
  by_cases hrunning : s.phase = .running
  · obtain ⟨hnot, hjournal, -, hopen, -⟩ := (by simpa only [Stage, hrunning] using h)
    refine .inl ⟨hnot, ?_, hopen⟩
    simp only [Shutdown.crash, exit, log, hjournal, List.nil_append]
  · obtain ⟨rs, hunderway, hrs, hdrained⟩ := h.underway hrunning hexited
    obtain ⟨t, hjournal, -⟩ := hunderway.armed
    exact hunderway.givenUp hrs hdrained hjournal (.inr (.inr rfl))

theorem advance_stage (hs : Slots cfg 0 s.world) (h : Stage telemetry s)
    (hexited : ∀ code, s.phase ≠ .exited code) (a : Queue.Action Payload Data Err) :
    Stage telemetry (advance cfg s a) := by
  have hmoved := h.move 0 hexited (fun hd => (step_draining cfg hd a).1)
    fun hd => step_drained hs hd a
  rw [advance]
  split
  · exact hmoved
  · exact hmoved.crash hexited

theorem step_stage (hs : Slots cfg 0 s.world) (h : Stage telemetry s)
    (a : Action Payload Data Err) :
    Stage telemetry (step cfg s a) := by
  rw [step.eq_def]
  split
  · exact h
  · rename_i a hexited
    exact advance_stage hs h hexited a
  · rename_i hexited
    exact h.move _ hexited id id
  · rename_i hexited
    exact shutdown_stage h hexited
  · rename_i hexited
    exact h.crash hexited
  · rename_i interval hphase
    simp only [Stage, hphase] at h
    split
    · exact waitForPendingTasks_stage h.1 h.2.2
    · simpa only [Stage, hphase] using h
  · rename_i err hphase
    simp only [Stage, hphase] at h
    obtain ⟨hunderway, hdrained, hsdk⟩ := h
    split
    · exact hunderway.fail List.nil_prefix hdrained
    · obtain ⟨t, hjournal, harmed⟩ := hunderway.armed
      refine ⟨⟨hunderway.shutting, hunderway.draining, ⟨t, ?_, harmed⟩, rfl⟩, hdrained, hsdk⟩
      simp only [closeDatabase, log, hjournal, List.cons_append, List.nil_append]
  · rename_i hphase
    simp only [Stage, hphase] at h
    obtain ⟨hunderway, hdrained, hsdk⟩ := h
    rw [shutdownTelemetry]
    split
    · rename_i htelemetry
      exact ⟨⟨hunderway.shutting, hunderway.draining, hunderway.armed, hunderway.isOpen⟩, hdrained,
        hsdk.symm.trans htelemetry⟩
    · rename_i hnot
      have hnone : telemetry = false := by simpa [hsdk] using hnot
      subst hnone
      exact Underway.exitCleanly hunderway hdrained
  · rename_i err hphase
    simp only [Stage, hphase] at h
    obtain ⟨hunderway, hdrained, rfl⟩ := h
    split
    · exact hunderway.fail (List.prefix_append _ _) hdrained
    · obtain ⟨t, hjournal, harmed⟩ := hunderway.armed
      refine Underway.exitCleanly
        ⟨hunderway.shutting, hunderway.draining, ⟨t, ?_, harmed⟩, hunderway.isOpen⟩ hdrained
      simp only [log, hjournal, List.cons_append, List.nil_append, released, if_true]
  · rename_i hphase
    split
    · rename_i due hdue
      split
      · rename_i hclock
        exact h.killed hphase hdue hclock
      · exact h
    · exact h
  · exact h

@[simp] theorem advance_world (cfg : Queue.Config) (s : Process Payload Data Err)
    (a : Queue.Action Payload Data Err) :
    (advance cfg s a).world = Queue.step cfg s.world a := by
  rw [advance]
  split <;> rfl

theorem step_moves (cfg : Queue.Config) (s : Process Payload Data Err)
    (a : Action Payload Data Err) :
    (step cfg s a).world = s.world ∨ (step cfg s a).world = drain s.world ∨
      ∃ b, step cfg s a = advance cfg s b := by
  rw [step.eq_def]
  split
  · exact .inl rfl
  · exact .inr (.inr ⟨_, rfl⟩)
  · exact .inl rfl
  · obtain hsame | hdrain := shutdown_world s
    · exact .inl hsame
    · exact .inr (.inl hdrain)
  · exact .inl rfl
  · split
    · exact .inl (waitForPendingTasks_world s)
    · exact .inl rfl
  · split <;> exact .inl rfl
  · rw [shutdownTelemetry]
    split <;> exact .inl rfl
  · split <;> exact .inl rfl
  · split
    · split <;> exact .inl rfl
    · exact .inl rfl
  · exact .inl rfl

theorem step_world (cfg : Queue.Config) (s : Process Payload Data Err)
    (a : Action Payload Data Err) :
    (step cfg s a).world = s.world ∨ ∃ b, (step cfg s a).world = Queue.step cfg s.world b := by
  obtain hsame | hdrain | ⟨b, hb⟩ := step_moves cfg s a
  · exact .inl hsame
  · exact .inr ⟨.drain, hdrain⟩
  · exact .inr ⟨b, by rw [hb, advance_world]⟩

theorem step_exited {code : ℕ} (h : s.phase = .exited code) (a : Action Payload Data Err) :
    step cfg s a = s := by
  simp only [step, h]

theorem step_lost (h : s.world.lost ≠ [] → s.phase = .exited 1) (a : Action Payload Data Err)
    (hlost : (step cfg s a).world.lost ≠ []) : (step cfg s a).phase = .exited 1 := by
  by_cases hbefore : s.world.lost = []
  · obtain hsame | hdrain | ⟨b, hb⟩ := step_moves cfg s a
    · rw [hsame] at hlost
      exact absurd hbefore hlost
    · rw [hdrain] at hlost
      exact absurd hbefore hlost
    · rw [hb, advance_world] at hlost
      rw [hb, advance, if_neg]
      · rfl
      · rw [hbefore, List.length_nil, List.length_eq_zero_iff]
        exact hlost
  · have hphase := h hbefore
    rw [step_exited hphase]
    exact hphase

theorem step_sound (h : Sound cfg telemetry s) (a : Action Payload Data Err) :
    Sound cfg telemetry (step cfg s a) := by
  have hworld : Slots cfg 0 (step cfg s a).world ∧ Calls (step cfg s a).world := by
    obtain hsame | ⟨b, hb⟩ := step_world cfg s a
    · rw [hsame]
      exact ⟨h.slots, h.calls⟩
    · rw [hb]
      exact step_keeps b ⟨h.slots, h.calls⟩
  exact ⟨hworld.1, hworld.2, step_stage h.slots h.stage a, step_lost h.lost a⟩

theorem run_sound (h : Sound cfg telemetry s) (as : List (Action Payload Data Err)) :
    Sound cfg telemetry (run (step cfg) s as) :=
  run_invariant (I := Sound cfg telemetry) h (fun _ a h => step_sound h a) as

/-- Every accepted task has ended, each once and in its own way, and no other will start. -/
structure Served (w : World Payload Data Err) : Prop where
  drained : Drained w
  executing : w.executing = []
  once : (w.finished.map Prod.fst).Perm (ids w.accepted)
  own : w.finished ⊆ w.accepted.map Call.ending

theorem served (hs : Slots cfg 0 s.world) (hc : Calls s.world) (h : Drained s.world) :
    Served s.world := by
  obtain ⟨-, hactive, hqueue⟩ := id h
  have hexecuting : s.world.executing = [] := by
    apply List.eq_nil_of_length_eq_zero
    rw [← hs.active, hactive]
  have hstarted : s.world.accepted = s.world.started := by
    rw [hc.order, hqueue, List.append_nil]
  refine ⟨h, hexecuting, ?_, hstarted ▸ hc.own⟩
  have hexecuted := hc.executed
  rw [hexecuting] at hexecuted
  rw [hstarted]
  exact hexecuted

theorem run_accepted (h : s.world.agent.isDraining = true) (bs : List (Action Payload Data Err)) :
    (run (step cfg) s bs).world.accepted = s.world.accepted := by
  have hrun : (run (step cfg) s bs).world.agent.isDraining = true ∧
      (run (step cfg) s bs).world.accepted = s.world.accepted := by
    refine run_invariant (I := fun u : Process Payload Data Err =>
      u.world.agent.isDraining = true ∧ u.world.accepted = s.world.accepted)
      ⟨h, rfl⟩ (fun u b hu => ?_) bs
    obtain hsame | ⟨b', hb⟩ := step_world cfg u b
    · rw [hsame]
      exact hu
    · rw [hb]
      obtain ⟨hdraining, haccepted⟩ := step_draining cfg hu.1 b'
      exact ⟨hdraining, haccepted.trans hu.2⟩
  exact hrun.2

theorem Stage.shut (h : Stage telemetry s) (hs : s.isShuttingDown = true)
    (hexited : ∀ code, s.phase ≠ .exited code) : ∃ rs, Underway rs s := by
  have hrunning : s.phase ≠ .running := by
    intro hphase
    simp [Stage, hphase, hs] at h
  obtain ⟨rs, hunderway, -⟩ := h.underway hrunning hexited
  exact ⟨rs, hunderway⟩

theorem run_exited {code : ℕ} (h : s.phase = .exited code) (bs : List (Action Payload Data Err)) :
    run (step cfg) s bs = s :=
  run_invariant (I := fun u => u = s) rfl (fun u b hu => by rw [hu, step_exited h]) bs

def Event.releases : Event → Bool
  | .serverStopped | .databaseClosed | .telemetryDown => true
  | _ => false

def releases (s : Process Payload Data Err) : List Event := s.journal.filter Event.releases

/-- A shutdown after any run: resources go in order, and only when every accepted task
has ended; an exit with 0 has released them all, any other has an error, a full hard-kill
delay or what nothing handles behind it. A queued call whose execution rejects is never answered:
nothing handles its rejection, and the process ends there and then. -/
structure Graceful (cfg : Queue.Config) (telemetry : Bool) (s : Process Payload Data Err) :
    Prop where
  ordered : releases s <+: released telemetry
  served : releases s ≠ [] → Served s.world
  isOpen : s.isOpen = !(releases s).contains .databaseClosed
  clean : s.phase = .exited 0 → releases s = released telemetry ∧ Served s.world
  forced : ∀ code, s.phase = .exited (code + 1) → .failed ∈ s.journal ∨ .unhandled ∈ s.journal ∨
    ∃ t t', .initiated t ∈ s.journal ∧ .hardKill t' ∈ s.journal ∧ t + hardKillMs ≤ t'
  lost : s.world.lost ≠ [] → s.phase = .exited 1
  armed : s.isShuttingDown = true → (∀ code, s.phase ≠ .exited code) →
    ∃ t, .initiated t ∈ s.journal ∧ s.hardKill = some (t + hardKillMs)
  rejecting : s.isShuttingDown = true → ∀ bs,
    (run (step cfg) s bs).world.accepted = s.world.accepted

theorem releases_of_prefix {rs : List Event} (h : rs <+: released telemetry) :
    rs.filter Event.releases = rs := by
  rw [List.filter_eq_self]
  intro e he
  have hmem := h.subset he
  simp only [released, List.mem_append, List.mem_cons, List.not_mem_nil, or_false] at hmem
  obtain (rfl | rfl) | htelemetry := hmem
  · rfl
  · rfl
  · split at htelemetry
    · rw [List.mem_singleton.mp htelemetry]
      rfl
    · cases htelemetry

theorem releases_eq {t : ℕ} {rs : List Event} (last : List Event)
    (h : s.journal = .initiated t :: rs ++ last) (hrs : rs <+: released telemetry)
    (hlast : ∀ e ∈ last, e.releases = false) : releases s = rs := by
  have hnone : last.filter Event.releases = [] := by
    rw [List.filter_eq_nil_iff]
    intro e he
    simp [hlast e he]
  rw [releases, h, List.filter_append, hnone, List.append_nil]
  exact releases_of_prefix hrs

theorem Stage.releases (h : Stage telemetry s) : ∃ rs, releases s = rs ∧
    rs <+: released telemetry ∧ (rs ≠ [] → Drained s.world) ∧
    s.isOpen = !rs.contains .databaseClosed := by
  have hunderway : ∀ rs, Underway rs s → rs <+: released telemetry →
      Shutdown.releases s = rs := by
    intro rs hu hrs
    obtain ⟨t, hjournal, -⟩ := hu.armed
    exact releases_eq [] (by simpa using hjournal) hrs (by simp)
  rw [Stage] at h
  split at h
  · obtain ⟨-, hjournal, -, hopen, -⟩ := h
    exact ⟨[], by simp [Shutdown.releases, hjournal], List.nil_prefix, absurd rfl, hopen⟩
  · exact ⟨[], hunderway _ h.1 List.nil_prefix, List.nil_prefix, absurd rfl, h.1.isOpen⟩
  · exact ⟨[], hunderway _ h.1 List.nil_prefix, List.nil_prefix, absurd rfl, h.1.isOpen⟩
  · have hrs := List.prefix_append [Event.serverStopped, .databaseClosed]
      (if telemetry then [.telemetryDown] else [])
    exact ⟨_, hunderway _ h.1 hrs, hrs, fun _ => h.2.1, h.1.isOpen⟩
  · have hrs := List.prefix_append [Event.serverStopped, .databaseClosed]
      (if telemetry then [.telemetryDown] else [])
    exact ⟨_, hunderway _ h.1 hrs, hrs, fun _ => h.2.1, h.1.isOpen⟩
  · obtain ⟨-, hdrained, hopen, t, hjournal⟩ := h
    refine ⟨_, releases_eq _ hjournal (List.prefix_refl _) ?_, List.prefix_refl _,
      fun _ => hdrained, ?_⟩
    · simp [Event.releases]
    · simpa [released] using hopen
  · obtain ⟨-, hjournal, hopen⟩ | ⟨t, rs, e, -, hjournal, hrs, hopen, hdrained, hends⟩ := h
    · refine ⟨[], ?_, List.nil_prefix, absurd rfl, hopen⟩
      simp [Shutdown.releases, hjournal, Event.releases]
    · refine ⟨rs, releases_eq _ hjournal hrs ?_, hrs, hdrained, hopen⟩
      obtain ⟨rfl, -⟩ | ⟨t', rfl, -⟩ | rfl := hends
      · simp [Event.releases]
      · simp [Event.releases]
      · simp [Event.releases]

theorem Sound.graceful (h : Sound cfg telemetry s) : Graceful cfg telemetry s := by
  obtain ⟨hs, hc, hstage, hlost⟩ := h
  obtain ⟨rs, hreleases, hprefix, hdrained, hopen⟩ := hstage.releases
  refine ⟨?_, fun hne => ?_, ?_, fun hphase => ?_, fun code hphase => ?_, hlost,
    fun hshut hphase => ?_, fun hshut bs => ?_⟩
  · rwa [hreleases]
  · exact served hs hc (hdrained (hreleases ▸ hne))
  · rwa [hreleases]
  · simp only [Stage, hphase] at hstage
    obtain ⟨-, hdone, -, t, hjournal⟩ := hstage
    refine ⟨releases_eq _ hjournal (List.prefix_refl _) ?_, served hs hc hdone⟩
    simp [Event.releases]
  · simp only [Stage, hphase] at hstage
    obtain ⟨-, hjournal, -⟩ | ⟨t, rs, e, -, hjournal, -, -, -, hends⟩ := hstage
    · exact .inr (.inl (by simp [hjournal]))
    · obtain ⟨rfl, -⟩ | ⟨t', rfl, ht⟩ | rfl := hends
      · exact .inl (by simp [hjournal])
      · exact .inr (.inr ⟨t, t', by simp [hjournal], by simp [hjournal], ht⟩)
      · exact .inr (.inl (by simp [hjournal]))
  · obtain ⟨rs, hunderway⟩ := hstage.shut hshut hphase
    obtain ⟨t, hjournal, harmed⟩ := hunderway.armed
    exact ⟨t, by simp [hjournal], harmed⟩
  · by_cases hphase : ∃ code, s.phase = .exited code
    · obtain ⟨code, hcode⟩ := hphase
      rw [run_exited hcode]
    · obtain ⟨rs, hunderway⟩ := hstage.shut hshut fun code hcode => hphase ⟨code, hcode⟩
      exact run_accepted hunderway.draining bs

def Action.completes : Action Payload Data Err → Bool
  | .agent b => b.completes
  | .pass _ | .poll | .databaseClosed => true
  | .serverClosed err => !err
  | .telemetryDown err => !err
  | .signal | .hardKill | .unhandled => false

def CanComplete (cfg : Queue.Config) (s : Process Payload Data Err) (ms : ℕ) : Prop :=
  ∃ bs : List (Action Payload Data Err), (∀ b ∈ bs, b.completes = true) ∧
    (run (step cfg) s bs).phase = .exited 0 ∧ (run (step cfg) s bs).clock ≤ s.clock + ms

theorem CanComplete.cons {ms : ℕ} {a : Action Payload Data Err} (ha : a.completes = true)
    (hclock : (step cfg s a).clock = s.clock) (h : CanComplete cfg (step cfg s a) ms) :
    CanComplete cfg s ms := by
  obtain ⟨bs, hbs, hphase, hms⟩ := h
  refine ⟨a :: bs, List.forall_mem_cons.mpr ⟨ha, hbs⟩, hphase, ?_⟩
  rwa [hclock] at hms

theorem exitCleanly_completes (s : Process Payload Data Err) :
    CanComplete cfg (exitCleanly s) 0 :=
  ⟨[], List.forall_mem_nil _, rfl, Nat.le_refl _⟩

theorem telemetryShutdown_completes (h : s.phase = .telemetryShutdown) : CanComplete cfg s 0 := by
  have hstep : step cfg s (.telemetryDown false) =
      exitCleanly (log { s with sdk := false } .telemetryDown) := by
    simp [step, h]
  refine CanComplete.cons (a := .telemetryDown false) rfl ?_ ?_
  · rw [hstep]; rfl
  · rw [hstep]
    exact exitCleanly_completes _

theorem databaseClose_completes (h : s.phase = .databaseClose) : CanComplete cfg s 0 := by
  have hstep : step cfg s .databaseClosed = shutdownTelemetry s := by
    simp [step, h]
  refine CanComplete.cons (a := .databaseClosed) rfl ?_ ?_
  all_goals
    rw [hstep, shutdownTelemetry]
    split
  · rfl
  · rfl
  · exact telemetryShutdown_completes rfl
  · exact exitCleanly_completes s

theorem serverClose_completes (h : s.phase = .serverClose) : CanComplete cfg s 0 := by
  have hstep : step cfg s (.serverClosed false) = closeDatabase (log s .serverStopped) := by
    simp [step, h]
  refine CanComplete.cons (a := .serverClosed false) rfl ?_ ?_
  · rw [hstep]; rfl
  · rw [hstep]
    exact databaseClose_completes rfl

theorem Served.quiet {w : World Payload Data Err} (h : Served w) (hc : Calls w)
    (hlost : w.lost = []) : Quiet w := by
  intro c haccepted hqueued hescapes
  obtain ⟨r, hr, hid⟩ := List.mem_map.mp (h.once.symm.subset (List.mem_map_of_mem haccepted))
  have hendings := hc.endings
  rw [hlost, List.append_nil] at hendings
  obtain ⟨c', hstarted, rfl, hnot⟩ := hc.answered r (hendings.symm.subset hr)
  have haccepted' : c' ∈ w.accepted := by
    rw [hc.order]
    exact List.mem_append_left _ hstarted
  have honce : (ids w.accepted).Nodup := (List.nodup_append.mp hc.nodup).1
  have hsame : c' = c := List.inj_on_of_nodup_map honce haccepted' haccepted hid
  exact hnot (hsame ▸ ⟨hqueued, hescapes⟩)

theorem run_agent {interval : ℕ} (h : s.phase = .pendingTasks interval)
    (hslots : Slots cfg 0 s.world) (hcalls : Calls s.world)
    (hdraining : s.world.agent.isDraining = true) (hquiet : Quiet s.world)
    (bs : List (Queue.Action Payload Data Err)) :
    run (step cfg) s (bs.map .agent) =
      { s with world := Library.Machine.run (Queue.step cfg) s.world bs } := by
  induction bs generalizing s with
  | nil => rfl
  | cons b bs ih =>
    obtain ⟨hslots', hcalls'⟩ := step_keeps b ⟨hslots, hcalls⟩
    obtain ⟨hdraining', haccepted⟩ := step_draining cfg hdraining b
    have hquiet' : Quiet (Queue.step cfg s.world b) := by
      rw [Quiet, haccepted]
      exact hquiet
    have hstep : step cfg s (.agent b) = { s with world := Queue.step cfg s.world b } := by
      simp only [step, h]
      rw [advance, if_pos (by rw [hquiet'.lost hcalls', hquiet.lost hcalls]), h]
    rw [List.map_cons, run_cons, hstep]
    exact ih h hslots' hcalls' hdraining' hquiet'

theorem pendingTasks_completes {interval : ℕ} (hsound : Sound cfg telemetry s)
    (h : s.phase = .pendingTasks interval) (hquiet : Quiet s.world) :
    CanComplete cfg s pollMs := by
  obtain ⟨bs, hbs, ⟨hexecuting, -⟩, -⟩ := exists_completion cfg s.world
  obtain ⟨hslots, -⟩ := run_keeps_of ⟨hsound.slots, hsound.calls⟩ bs
  obtain ⟨hunderway, hinterval, -⟩ : Underway [] s ∧ interval ≤ s.clock + pollMs ∧
      s.sdk = telemetry := by
    have hstage := hsound.stage
    simpa only [Stage, h] using hstage
  have hactive := hslots.active
  rw [hexecuting, List.length_nil] at hactive
  have hqueue := hslots.empty hexecuting
  have hpolled : run (step cfg) s (bs.map .agent ++ [.pass pollMs, .poll]) =
      { s with
        world := Library.Machine.run (Queue.step cfg) s.world bs
        clock := s.clock + pollMs
        phase := .serverClose } := by
    rw [run_append, run_agent h hsound.slots hsound.calls hunderway.draining hquiet]
    simp [step, h, hinterval, waitForPendingTasks, hactive, hqueue]
  obtain ⟨cs, hcs, hphase, hclock⟩ :
      CanComplete cfg (run (step cfg) s (bs.map .agent ++ [.pass pollMs, .poll])) 0 :=
    serverClose_completes (by rw [hpolled])
  refine ⟨bs.map .agent ++ [.pass pollMs, .poll] ++ cs, ?_, ?_, ?_⟩
  · simp only [List.forall_mem_append, List.forall_mem_map, List.forall_mem_cons]
    exact ⟨⟨hbs, rfl, rfl, List.forall_mem_nil _⟩, hcs⟩
  · rw [run_append]
    exact hphase
  · rw [run_append]
    rw [hpolled] at hclock ⊢
    exact hclock

theorem CanComplete.mono {m n : ℕ} (h : CanComplete cfg s m) (hmn : m ≤ n) :
    CanComplete cfg s n := by
  obtain ⟨bs, hbs, hphase, hclock⟩ := h
  exact ⟨bs, hbs, hphase, Nat.le_trans hclock (Nat.add_le_add_left hmn _)⟩

theorem Sound.completes (h : Sound cfg telemetry s) (hrunning : s.phase ≠ .running)
    (hexited : ∀ code, s.phase ≠ .exited code) (hquiet : Quiet s.world) :
    CanComplete cfg s pollMs := by
  cases hphase : s.phase with
  | running => exact absurd hphase hrunning
  | exited code => exact absurd hphase (hexited code)
  | pendingTasks interval => exact pendingTasks_completes h hphase hquiet
  | serverClose => exact (serverClose_completes hphase).mono (Nat.zero_le _)
  | databaseClose => exact (databaseClose_completes hphase).mono (Nat.zero_le _)
  | telemetryShutdown => exact (telemetryShutdown_completes hphase).mono (Nat.zero_le _)

theorem shutdown_spec (h : Stage telemetry s) (hexited : ∀ code, s.phase ≠ .exited code) :
    (shutdown s).phase ≠ .running ∧ (∀ code, (shutdown s).phase ≠ .exited code) ∧
      (shutdown s).clock = s.clock := by
  rw [shutdown]
  split
  · rename_i hshut
    refine ⟨fun hphase => ?_, hexited, rfl⟩
    simp [Stage, hphase, hshut] at h
  · rw [waitForPendingTasks]
    split
    · exact ⟨by simp, by simp, rfl⟩
    · exact ⟨by simp, by simp, rfl⟩

theorem Sound.quiet (h : Sound cfg telemetry s) (hphase : s.phase = .exited 0) : Quiet s.world := by
  have hserved := (h.graceful.clean hphase).2
  refine hserved.quiet h.calls ?_
  by_contra hlost
  have hcode := h.lost hlost
  rw [hphase] at hcode
  cases hcode

/-- As long as the process has not exited, a signal can be answered by a clean exit, no later
than one poll after the open executions, exactly when no call that was queued comes to an
execution that rejects. -/
theorem shutdown_completes (cfg : Queue.Config) (telemetry : Bool)
    (as : List (Action Payload Data Err)) :
    let s := run (step cfg) (start telemetry) as
    (∀ code, s.phase ≠ .exited code) →
      (Quiet s.world → ∃ bs : List (Action Payload Data Err), (∀ b ∈ bs, b.completes = true) ∧
        let u := run (step cfg) s (.signal :: bs)
        u.phase = .exited 0 ∧ u.clock ≤ s.clock + pollMs ∧ Served u.world ∧
          u.world.accepted = s.world.accepted) ∧
      ∀ bs : List (Action Payload Data Err),
        (run (step cfg) s (.signal :: bs)).phase = .exited 0 → Quiet s.world := by
  intro s hexited
  have hs : Sound cfg telemetry s := run_sound (start_sound cfg telemetry) as
  have hsignal : step cfg s .signal = shutdown s := by
    cases hphase : s.phase with
    | exited code => exact absurd hphase (hexited code)
    | _ => simp only [step, hphase]
  obtain ⟨hrunning, hexited', hclock⟩ := shutdown_spec hs.stage hexited
  have hsound : Sound cfg telemetry (shutdown s) := hsignal ▸ step_sound hs .signal
  have hworld : (shutdown s).world.accepted = s.world.accepted := by
    obtain hsame | hdrain := shutdown_world s
    · rw [hsame]
    · rw [hdrain]; rfl
  obtain ⟨rs, hunderway⟩ := hsound.stage.shut (hsound.stage.shutting hrunning hexited') hexited'
  have haccepted : ∀ bs, (run (step cfg) (shutdown s) bs).world.accepted = s.world.accepted :=
    fun bs => (run_accepted hunderway.draining bs).trans hworld
  simp only [run_cons, hsignal]
  refine ⟨fun hquiet => ?_, fun bs hphase => ?_⟩
  · have hquiet' : Quiet (shutdown s).world := by
      rw [Quiet, hworld]
      exact hquiet
    obtain ⟨bs, hbs, hphase, hms⟩ := hsound.completes hrunning hexited' hquiet'
    have hgraceful := (run_sound hsound bs).graceful
    exact ⟨bs, hbs, hphase, hclock ▸ hms, (hgraceful.clean hphase).2, haccepted bs⟩
  · have hquiet := (run_sound hsound bs).quiet hphase
    rwa [Quiet, haccepted] at hquiet

/-- One task under way, whose execution will reject, and one queued when the signal comes. -/
theorem shutdown_completes_busy :
    let cfg : Queue.Config := ⟨1, 1, Nat.le_refl 1⟩
    let s : Process Unit String String := run (step cfg) (start true)
      [.agent (.run (query (.error "timeout") false)), .agent (.run (query (.ok "second") true)),
        .signal]
    ∃ bs : List (Action Unit String String), (run (step cfg) s (.signal :: bs)).phase = .exited 0 ∧
      Served (run (step cfg) s (.signal :: bs)).world := by
  intro cfg s
  have hquiet : Quiet s.world := by
    have haccepted : s.world.accepted = [⟨0, query (.error "timeout") false, false⟩,
        ⟨1, query (.ok "second") true, true⟩] := rfl
    rw [Quiet, haccepted, List.forall_mem_cons, List.forall_mem_singleton]
    refine ⟨fun hqueued => absurd hqueued Bool.false_ne_true, fun _ hescapes => ?_⟩
    obtain ⟨e, he⟩ := result_rejects_iff.mpr hescapes
    cases he
  obtain ⟨hcompletes, -⟩ := shutdown_completes cfg true
    [.agent (.run (query (.error "timeout") false)), .agent (.run (query (.ok "second") true)),
      .signal] (by intro code hcode; cases hcode)
  obtain ⟨bs, -, hphase, -, hserved, -⟩ := hcompletes hquiet
  exact ⟨bs, hphase, hserved⟩

end PayFi.Agent.Shutdown
