import PayFi.Library.Numbers

namespace PayFi.Network.Backoff

open Library.Numbers

/-- The callback of a guard call that has to wait, with the generation it waits in. -/
structure Callback where
  id : ℕ
  generation : ℕ
  deriving DecidableEq

structure BackoffState where
  active : Bool
  untilMs : ℤ
  retryAfterSeconds : ℤ
  queue : List Callback
  generation : ℕ
  deriving DecidableEq

structure Timer where
  generation : ℕ
  due : ℤ
  deriving DecidableEq

/-- What has to run before control is back with the event loop: the callbacks of a drain,
under its number, and the function of the guard call whose poll has started the drain. -/
inductive Frame where
  | callback (drain : ℕ) (cb : Callback)
  | start (id : ℕ)
  deriving DecidableEq

inductive Event where
  | limited (retryAfterHeader : Option String) (now : ℤ)
  | queued (id : ℕ)
  | started (id : ℕ) (now : ℤ)
  | ran (drain id : ℕ) (now : ℤ)
  | superseded (drain id : ℕ)
  deriving DecidableEq

/-- The lock and its timers, and what is still to run. Guard calls and drains are
numbered; the events are kept for the record. -/
structure Throttle where
  backoff : BackoffState
  timers : List Timer
  frames : List Frame
  calls : ℕ
  drains : ℕ
  events : List Event
  deriving DecidableEq

def waitSeconds : Option String → ℤ
  | none => 30
  | some retryAfterHeader =>
    match parseInt retryAfterHeader with
    | none => 30
    | some parsed => if 0 < parsed then parsed else 30

def timerDelay (ms : ℤ) : ℤ := if 1 ≤ ms ∧ ms ≤ 2147483647 then ms else 1

/-- `now` is the clock of the deadline, `now'` that of the timer. -/
def handleRateLimitResponse (s : Throttle) (retryAfterHeader : Option String) (now now' : ℤ) :
    Throttle :=
  let untilMs := now + waitSeconds retryAfterHeader * 1000
  let generation := s.backoff.generation + 1
  { s with
    backoff := ⟨true, untilMs, waitSeconds retryAfterHeader, s.backoff.queue, generation⟩
    timers := s.timers ++ [⟨generation, now' + timerDelay (untilMs - now')⟩]
    events := s.events ++ [.limited retryAfterHeader now] }

def clearBackoff (s : Throttle) (generation : Option ℕ) : List Frame × Throttle :=
  if generation.any (· ≠ s.backoff.generation) then ([], s)
  else
    let pending := s.backoff.queue.map (.callback s.drains)
    (pending, { s with
      backoff := ⟨false, 0, 0, [], s.backoff.generation⟩
      drains := s.drains + 1 })

def isThrottled (s : Throttle) (now : ℤ) : Bool × List Frame × Throttle :=
  if !s.backoff.active then (false, [], s)
  else if s.backoff.untilMs ≤ now then (false, clearBackoff s none)
  else (true, [], s)

def withBackoffGuard (s : Throttle) (now : ℤ) : Throttle :=
  let id := s.calls
  match isThrottled { s with calls := s.calls + 1 } now with
  | (true, _, s) => { s with
      backoff := { s.backoff with queue := s.backoff.queue ++ [⟨id, s.backoff.generation⟩] }
      events := s.events ++ [.queued id] }
  | (false, [], s) => { s with events := s.events ++ [.started id now] }
  | (false, pending, s) => { s with frames := pending ++ .start id :: s.frames }

def proceed (s : Throttle) (now : ℤ) : Throttle :=
  match s.frames with
  | [] => s
  | .start id :: frames => { s with frames := frames, events := s.events ++ [.started id now] }
  | .callback drain cb :: frames =>
    if s.backoff.generation ≠ cb.generation then
      { s with frames := frames, events := s.events ++ [.superseded drain cb.id] }
    else { s with frames := frames, events := s.events ++ [.ran drain cb.id now] }

def fire (s : Throttle) (i : ℕ) (now : ℤ) : Throttle :=
  match s.frames, s.timers[i]? with
  | [], some timer =>
    if timer.due ≤ now then
      let (pending, s) := clearBackoff { s with timers := s.timers.eraseIdx i } timer.generation
      { s with frames := pending }
    else s
  | _, _ => s

/-- A call of the module, a timer or the next function on the stack. A function that runs
may itself call the module before it suspends. -/
inductive Action where
  | handleRateLimitResponse (retryAfterHeader : Option String) (now now' : ℤ)
  | withBackoffGuard (now : ℤ)
  | isThrottled (now : ℤ)
  | proceed (now : ℤ)
  | fire (i : ℕ) (now : ℤ)

def step (s : Throttle) : Action → Throttle
  | .handleRateLimitResponse header now now' => handleRateLimitResponse s header now now'
  | .withBackoffGuard now => withBackoffGuard s now
  | .isThrottled now =>
    let (_, pending, s) := isThrottled s now
    { s with frames := pending ++ s.frames }
  | .proceed now => proceed s now
  | .fire i now => fire s i now

def idle : Throttle := ⟨⟨false, 0, 0, [], 0⟩, [], [], 0, 0, []⟩

def Event.limits : Event → Bool
  | .limited .. => true
  | _ => false

def Event.queuedId : Event → Option ℕ
  | .queued id => some id
  | _ => none

def Event.settledId : Event → Option ℕ
  | .ran _ id _ => some id
  | .superseded _ id => some id
  | _ => none

def Event.settledIn (drain : ℕ) : Event → Option ℕ
  | .ran n id _ => if n = drain then some id else none
  | .superseded n id => if n = drain then some id else none
  | _ => none

def Frame.id? : Frame → Option ℕ
  | .callback _ cb => some cb.id
  | .start _ => none

def Frame.idIn (drain : ℕ) : Frame → Option ℕ
  | .callback n cb => if n = drain then some cb.id else none
  | .start _ => none

def cleared (s : Throttle) (timers : List Timer) : Throttle :=
  { s with
    backoff := ⟨false, 0, 0, [], s.backoff.generation⟩
    timers := timers
    frames := s.backoff.queue.map (.callback s.drains) ++ s.frames
    drains := s.drains + 1 }

def Throttle.call (s : Throttle) : Throttle := { s with calls := s.calls + 1 }

def Throttle.push (s : Throttle) (f : Frame) : Throttle := { s with frames := f :: s.frames }

def Throttle.note (s : Throttle) (e : Event) : Throttle := { s with events := s.events ++ [e] }

def Throttle.enqueue (s : Throttle) : Throttle :=
  { s with
    backoff := { s.backoff with
      queue := s.backoff.queue ++ [⟨s.calls, s.backoff.generation⟩] }
    calls := s.calls + 1
    events := s.events ++ [.queued s.calls] }

inductive Outcome (s : Throttle) : Action → Throttle → Prop
  | limited (header : Option String) (now now' : ℤ) :
      Outcome s (.handleRateLimitResponse header now now')
        (handleRateLimitResponse s header now now')
  | waits {now : ℤ} (ha : s.backoff.active = true) : Outcome s (.withBackoffGuard now) s.enqueue
  | starts {now : ℤ} (ha : s.backoff.active = false) :
      Outcome s (.withBackoffGuard now) (s.call.note (.started s.calls now))
  | clears {now : ℤ} (ha : s.backoff.active = true) (hu : s.backoff.untilMs ≤ now) :
      Outcome s (.withBackoffGuard now)
        ((cleared s.call s.timers).note (.started s.calls now))
  | drains {now : ℤ} (ha : s.backoff.active = true) (hu : s.backoff.untilMs ≤ now) :
      Outcome s (.withBackoffGuard now) (cleared (s.call.push (.start s.calls)) s.timers)
  | polled {now : ℤ} (ha : s.backoff.active = true) (hu : s.backoff.untilMs ≤ now) :
      Outcome s (.isThrottled now) (cleared s s.timers)
  | fired {i : ℕ} {now : ℤ} {t : Timer} (ht : s.timers[i]? = some t) (hdue : t.due ≤ now)
      (hg : t.generation = s.backoff.generation) :
      Outcome s (.fire i now) (cleared s (s.timers.eraseIdx i))
  | stale {i : ℕ} {now : ℤ} {t : Timer} (ht : s.timers[i]? = some t)
      (hg : t.generation ≠ s.backoff.generation) :
      Outcome s (.fire i now) { s with timers := s.timers.eraseIdx i }
  | resumed {now : ℤ} {id : ℕ} {fs : List Frame} (hf : s.frames = .start id :: fs) :
      Outcome s (.proceed now) ({ s with frames := fs }.note (.started id now))
  | superseded {now : ℤ} {drain : ℕ} {cb : Callback} {fs : List Frame}
      (hf : s.frames = .callback drain cb :: fs) :
      Outcome s (.proceed now) ({ s with frames := fs }.note (.superseded drain cb.id))
  | ran {now : ℤ} {drain : ℕ} {cb : Callback} {fs : List Frame}
      (hf : s.frames = .callback drain cb :: fs) (hg : cb.generation = s.backoff.generation) :
      Outcome s (.proceed now) ({ s with frames := fs }.note (.ran drain cb.id now))
  | nothing (a : Action) : Outcome s a s

variable {s : Throttle}

theorem poll_outcome (s : Throttle) (now : ℤ) :
    Outcome s (.isThrottled now) (step s (.isThrottled now)) := by
  by_cases ha : s.backoff.active = true
  · by_cases hu : s.backoff.untilMs ≤ now
    · have hstep : step s (.isThrottled now) = cleared s s.timers := by
        simp [step, isThrottled, clearBackoff, cleared, ha, hu]
      rw [hstep]
      exact .polled ha hu
    · have hstep : step s (.isThrottled now) = s := by simp [step, isThrottled, ha, hu]
      rw [hstep]
      exact .nothing _
  · have hstep : step s (.isThrottled now) = s := by simp [step, isThrottled, ha]
    rw [hstep]
    exact .nothing _

theorem guard_outcome (s : Throttle) (now : ℤ) :
    Outcome s (.withBackoffGuard now) (withBackoffGuard s now) := by
  by_cases ha : s.backoff.active = true
  · by_cases hu : s.backoff.untilMs ≤ now
    · cases hqueue : s.backoff.queue with
      | nil =>
        have hstep : withBackoffGuard s now =
            (cleared s.call s.timers).note (.started s.calls now) := by
          simp [withBackoffGuard, isThrottled, clearBackoff, cleared, Throttle.call,
            Throttle.note, ha, hu, hqueue]
        rw [hstep]
        exact .clears ha hu
      | cons cb cbs =>
        have hstep : withBackoffGuard s now =
            cleared (s.call.push (.start s.calls)) s.timers := by
          simp [withBackoffGuard, isThrottled, clearBackoff, cleared, Throttle.call,
            Throttle.push, ha, hu, hqueue]
        rw [hstep]
        exact .drains ha hu
    · have hstep : withBackoffGuard s now = s.enqueue := by
        simp [withBackoffGuard, isThrottled, Throttle.enqueue, ha, hu]
      rw [hstep]
      exact .waits ha
  · have hstep : withBackoffGuard s now = s.call.note (.started s.calls now) := by
      simp [withBackoffGuard, isThrottled, Throttle.call, Throttle.note, ha]
    rw [hstep]
    exact .starts (Bool.not_eq_true _ ▸ ha)

theorem proceed_outcome (s : Throttle) (now : ℤ) :
    Outcome s (.proceed now) (proceed s now) := by
  unfold proceed
  split
  · exact .nothing _
  · rename_i id fs hf
    exact .resumed hf
  · rename_i drain cb fs hf
    split
    · exact .superseded hf
    · rename_i hg
      exact .ran hf (not_not.mp hg).symm

theorem fire_outcome (s : Throttle) (i : ℕ) (now : ℤ) :
    Outcome s (.fire i now) (fire s i now) := by
  unfold fire
  split
  · rename_i timer hf ht
    split
    · rename_i hdue
      by_cases hg : timer.generation = s.backoff.generation
      · have hstep : cleared s (s.timers.eraseIdx i) = { s with
            backoff := ⟨false, 0, 0, [], s.backoff.generation⟩
            timers := s.timers.eraseIdx i
            frames := s.backoff.queue.map (.callback s.drains)
            drains := s.drains + 1 } := by
          simp [cleared, hf]
        have hfired := Outcome.fired ht hdue hg
        rw [hstep] at hfired
        simpa [clearBackoff, hg] using hfired
      · have hstale : Outcome s (.fire i now) _ := .stale ht hg
        simpa [clearBackoff, hg, ← hf] using hstale
    · exact .nothing _
  · exact .nothing _

theorem step_outcome (s : Throttle) (a : Action) : Outcome s a (step s a) := by
  cases a with
  | handleRateLimitResponse header now now' => exact .limited header now now'
  | withBackoffGuard now => exact guard_outcome s now
  | isThrottled now => exact poll_outcome s now
  | proceed now => exact proceed_outcome s now
  | fire i now => exact fire_outcome s i now

end PayFi.Network.Backoff
