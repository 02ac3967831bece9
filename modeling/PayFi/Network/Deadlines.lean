import PayFi.Library.Clock
import PayFi.Library.Parties
import PayFi.Network.Backoff

namespace PayFi.Network.Deadlines

open Library.Machine Library.Clock Library.Numbers Library.Parties Backoff

def startTime : Event → Option ℤ
  | .started _ now => some now
  | .ran _ _ now => some now
  | _ => none

def deadline : Event → Option ℤ
  | .limited retryAfterHeader now => some (now + waitSeconds retryAfterHeader * 1000)
  | _ => none

abbrev deadlines (es : List Event) : List ℤ := es.filterMap deadline

/-- No guarded function starts before the deadline of a rate limit received earlier. -/
def Respected (es : List Event) : Prop :=
  Preceded (fun before e => ∀ t ∈ startTime e, ∀ d ∈ deadlines before, d ≤ t) es

def readings : Action → List ℤ
  | .handleRateLimitResponse _ now now' => [now, now']
  | .withBackoffGuard now => [now]
  | .isThrottled now => [now]
  | .proceed now => [now]
  | .fire _ now => [now]

/-- The clock never goes back. -/
def Chronological (as : List Action) : Prop := (as.flatMap readings).Pairwise (· ≤ ·)

instance (as : List Action) : Decidable (Chronological as) :=
  inferInstanceAs (Decidable ((as.flatMap readings).Pairwise (· ≤ ·)))

/-- A rate limit that does not bring the deadline of an active lock forward, whose delay
a timer can wait, and that does not come in while a guard call, having found the lock
expired, still drains the queue before its own function. -/
def Orderly (u : Transition Throttle Action) : Prop :=
  match u.action with
  | .handleRateLimitResponse header now now' =>
    (u.before.backoff.active = true →
        u.before.backoff.untilMs ≤ now + waitSeconds header * 1000) ∧
      now + waitSeconds header * 1000 - now' ≤ 2147483647 ∧
      u.before.frames.all (fun f => f.id?.isSome) = true
  | _ => True

instance : (u : Transition Throttle Action) → Decidable (Orderly u)
  | ⟨_, .handleRateLimitResponse .., _⟩ => inferInstanceAs (Decidable (_ ∧ _ ∧ _))
  | ⟨_, .withBackoffGuard _, _⟩ => .isTrue trivial
  | ⟨_, .isThrottled _, _⟩ => .isTrue trivial
  | ⟨_, .proceed _, _⟩ => .isTrue trivial
  | ⟨_, .fire _ _, _⟩ => .isTrue trivial

/-- The lock is active until every deadline has passed. Only its present timer can clear
it, and whatever may still start of a drain has found it open. -/
structure Safe (clock : ℤ) (s : Throttle) : Prop where
  locked : s.backoff.active = true → ∀ d ∈ deadlines s.events, d ≤ s.backoff.untilMs
  passed : s.backoff.active = false → ∀ d ∈ deadlines s.events, d ≤ clock
  timers : ∀ t ∈ s.timers, t.generation ≤ s.backoff.generation ∧
    (t.generation = s.backoff.generation → s.backoff.active = true → s.backoff.untilMs ≤ t.due)
  queue : ∀ cb ∈ s.backoff.queue, cb.generation ≤ s.backoff.generation
  callbacks : ∀ drain cb, .callback drain cb ∈ s.frames → cb.generation ≤ s.backoff.generation ∧
    (cb.generation = s.backoff.generation → s.backoff.active = false)
  starts : ∀ id, .start id ∈ s.frames → s.backoff.active = false
  respected : Respected s.events

variable {s : Throttle} {clock now now' : ℤ} {e : Event}

theorem waitSeconds_pos (retryAfterHeader : Option String) : 0 < waitSeconds retryAfterHeader := by
  unfold waitSeconds
  split
  · decide
  · split
    · decide
    · split
      · assumption
      · decide

theorem waitSeconds_toString {r : ℕ} (h : 0 < r) : waitSeconds (some (toString r)) = r := by
  have hr : (0 : ℤ) < r := Int.natCast_pos.mpr h
  simp only [waitSeconds, parseInt_toString, hr, if_true]

theorem idle_safe (clock : ℤ) : Safe clock idle := by
  constructor <;> simp [idle, Respected, Preceded]

theorem Safe.later (h : Safe clock s) (hc : clock ≤ now) : Safe now s :=
  ⟨h.locked, fun ha d hd => (h.passed ha d hd).trans hc, h.timers, h.queue, h.callbacks,
    h.starts, h.respected⟩

theorem deadlines_note (es : List Event) (he : deadline e = none) :
    deadlines (es ++ [e]) = deadlines es := by
  simp [deadlines, he]

theorem Safe.limit (h : Safe clock s) (header : Option String) (hc : clock ≤ now)
    (hgood : Orderly ⟨s, .handleRateLimitResponse header now now',
      handleRateLimitResponse s header now now'⟩) :
    Safe now' (handleRateLimitResponse s header now now') := by
  obtain ⟨hlate, hdelay, hframes⟩ := hgood
  have hpos := waitSeconds_pos header
  have hdeadlines : deadlines (s.events ++ [.limited header now]) =
      deadlines s.events ++ [now + waitSeconds header * 1000] := by
    simp [deadlines, deadline]
  constructor
  · intro _
    simp only [handleRateLimitResponse, hdeadlines]
    apply forall_mem_concat
    · intro d hd
      by_cases ha : s.backoff.active = true
      · exact (h.locked ha d hd).trans (hlate ha)
      · have hle := h.passed (Bool.not_eq_true _ ▸ ha) d hd
        omega
    · exact le_rfl
  · intro hf
    cases hf
  · apply forall_mem_concat
    · intro t ht
      have hle := (h.timers t ht).1
      exact ⟨by simp only [handleRateLimitResponse]; omega,
        fun heq => by simp only [handleRateLimitResponse] at heq; omega⟩
    · refine ⟨le_rfl, fun _ _ => ?_⟩
      simp only [handleRateLimitResponse, timerDelay]
      split
      · omega
      · omega
  · intro cb hcb
    exact (h.queue cb hcb).trans (Nat.le_succ _)
  · intro drain cb hcb
    have hle := (h.callbacks drain cb hcb).1
    exact ⟨by simp only [handleRateLimitResponse]; omega,
      fun heq => by simp only [handleRateLimitResponse] at heq; omega⟩
  · intro id hid
    have hsome := List.all_eq_true.mp hframes _ hid
    cases hsome
  · apply h.respected.concat
    intro t ht
    cases ht

theorem Safe.clear (h : Safe clock s) (hc : clock ≤ now)
    (hu : s.backoff.active = true → s.backoff.untilMs ≤ now) {timers : List Timer}
    (ht : timers.Sublist s.timers) : Safe now (cleared s timers) := by
  constructor
  · intro hf
    cases hf
  · intro _ d hd
    by_cases ha : s.backoff.active = true
    · exact (h.locked ha d hd).trans (hu ha)
    · exact (h.passed (Bool.not_eq_true _ ▸ ha) d hd).trans hc
  · intro t hmem
    exact ⟨(h.timers t (ht.subset hmem)).1, fun _ hf => by cases hf⟩
  · exact List.forall_mem_nil _
  · intro drain cb hcb
    refine ⟨?_, fun _ => rfl⟩
    obtain hcb | hcb := List.mem_append.mp hcb
    · obtain ⟨cb', hcb', heq⟩ := List.mem_map.mp hcb
      cases heq
      exact h.queue cb hcb'
    · exact (h.callbacks drain cb hcb).1
  · intro _ _
    rfl
  · exact h.respected

theorem Safe.note (h : Safe now s) (hd : deadline e = none)
    (he : ∀ t ∈ startTime e, t = now ∧ s.backoff.active = false) : Safe now (s.note e) := by
  have hdeadlines := deadlines_note s.events hd
  refine ⟨fun ha => ?_, fun ha => ?_, h.timers, h.queue, h.callbacks, h.starts,
    h.respected.concat fun t ht => ?_⟩
  · rw [Throttle.note, hdeadlines]
    exact h.locked ha
  · rw [Throttle.note, hdeadlines]
    exact h.passed ha
  · obtain ⟨rfl, ha⟩ := he t ht
    exact h.passed ha

theorem Safe.call (h : Safe now s) : Safe now s.call :=
  ⟨h.locked, h.passed, h.timers, h.queue, h.callbacks, h.starts, h.respected⟩

theorem Safe.enqueue (h : Safe now s) : Safe now s.enqueue := by
  have hdeadlines : deadlines (s.events ++ [.queued s.calls]) = deadlines s.events :=
    deadlines_note _ rfl
  refine ⟨fun ha => ?_, fun ha => ?_, h.timers, forall_mem_concat h.queue le_rfl, h.callbacks,
    h.starts, h.respected.concat fun t ht => ?_⟩
  · rw [Throttle.enqueue, hdeadlines]
    exact h.locked ha
  · rw [Throttle.enqueue, hdeadlines]
    exact h.passed ha
  · cases ht

theorem Safe.drains (h : Safe clock s) (hc : clock ≤ now) (hu : s.backoff.untilMs ≤ now) :
    Safe now (cleared (s.call.push (.start s.calls)) s.timers) := by
  have hcleared := h.clear hc (fun _ => hu) (List.Sublist.refl s.timers)
  refine ⟨hcleared.locked, hcleared.passed, hcleared.timers, hcleared.queue, ?_, ?_,
    hcleared.respected⟩
  · intro drain cb hcb
    apply hcleared.callbacks drain cb
    simpa [cleared, Throttle.call, Throttle.push] using hcb
  · intro _ _
    rfl

theorem Safe.pop (h : Safe now s) {f : Frame} {fs : List Frame} (hf : s.frames = f :: fs) :
    Safe now { s with frames := fs } := by
  refine ⟨h.locked, h.passed, h.timers, h.queue, fun drain cb hcb => ?_, fun id hid => ?_,
    h.respected⟩
  · exact h.callbacks drain cb (hf ▸ List.mem_cons_of_mem f hcb)
  · exact h.starts id (hf ▸ List.mem_cons_of_mem f hid)

theorem step_safe (h : Safe clock s) (a : Action) (hclock : (clock :: readings a).Pairwise (· ≤ ·))
    (hgood : Orderly ⟨s, a, step s a⟩) : Safe ((readings a).getLastD clock) (step s a) := by
  have hfirst := (List.pairwise_cons.mp hclock).1
  have ho := step_outcome s a
  generalize step s a = t at ho hgood
  cases ho with
  | limited header now now' => exact h.limit header (hfirst now (by simp [readings])) hgood
  | @waits now => exact (h.later (hfirst now (by simp [readings]))).enqueue
  | @starts now ha =>
    have hnow := h.later (hfirst now (by simp [readings]))
    apply hnow.call.note rfl
    intro t ht
    cases ht
    exact ⟨rfl, ha⟩
  | @clears now ha hu =>
    apply (h.call.clear (hfirst now (by simp [readings])) (fun _ => hu) (.refl _)).note rfl
    intro t ht
    cases ht
    exact ⟨rfl, rfl⟩
  | @drains now ha hu => exact h.drains (hfirst now (by simp [readings])) hu
  | @polled now ha hu => exact h.clear (hfirst now (by simp [readings])) (fun _ => hu) (.refl _)
  | @fired i now t ht hdue hg =>
    refine h.clear (hfirst now (by simp [readings])) (fun ha => ?_) (List.eraseIdx_sublist ..)
    exact ((h.timers t (List.mem_of_getElem? ht)).2 hg ha).trans hdue
  | @stale i now t ht hg =>
    have hnow := h.later (hfirst now (by simp [readings]))
    exact ⟨hnow.locked, hnow.passed, fun t ht => hnow.timers t (List.mem_of_mem_eraseIdx ht),
      hnow.queue, hnow.callbacks, hnow.starts, hnow.respected⟩
  | @resumed now id fs hf =>
    have hnow := h.later (hfirst now (by simp [readings]))
    apply (hnow.pop hf).note rfl
    intro t ht
    cases ht
    exact ⟨rfl, h.starts id (hf ▸ List.mem_cons_self)⟩
  | @superseded now drain cb fs hf =>
    have hnow := h.later (hfirst now (by simp [readings]))
    apply (hnow.pop hf).note rfl
    intro t ht
    cases ht
  | @ran now drain cb fs hf hg =>
    have hnow := h.later (hfirst now (by simp [readings]))
    apply (hnow.pop hf).note rfl
    intro t ht
    cases ht
    exact ⟨rfl, (h.callbacks drain cb (hf ▸ List.mem_cons_self)).2 hg⟩
  | nothing a =>
    exact h.later (le_getLastD hclock)

/-- Where the rate limits come in order, no guarded function starts before the deadline of
one that has been received. -/
theorem deadlines_respected (as : List Action) (hclock : Chronological as)
    (hgood : ∀ u ∈ trace step idle as, Orderly u) :
    (∀ r : ℕ, 0 < r → waitSeconds (some (toString r)) = r) ∧
      Respected (run step idle as).events := by
  refine ⟨fun r hr => waitSeconds_toString hr, ?_⟩
  obtain ⟨-, _, hsafe⟩ := timed_invariant (fun a hs ha hu => step_safe hs a ha hu) as
    (idle_safe _) (pairwise_headD_cons hclock 0) hgood
  exact hsafe.respected

theorem deadlines_respected_of_two :
    Respected (run step idle [.handleRateLimitResponse (some "5") 0 0, .withBackoffGuard 1,
      .handleRateLimitResponse (some "10") 2000 2000, .withBackoffGuard 2001, .fire 0 5000,
      .fire 0 12000, .proceed 12000, .proceed 12000]).events :=
  (deadlines_respected _ (by decide) (by decide +kernel)).2

/-- A shorter delay replaces a longer one. A timer fires at once when its delay is out of
range. And a rate limit that a drained function reports does not stop the call whose
poll has started the drain. -/
theorem deadlines_missed :
    let shorter : List Action := [.handleRateLimitResponse (some "60") 0 0,
      .handleRateLimitResponse (some "1") 0 0, .withBackoffGuard 1000]
    let overflow : List Action := [.handleRateLimitResponse (some "2147484") 0 0,
      .withBackoffGuard 0, .fire 0 1, .proceed 1]
    let reported : List Action := [.handleRateLimitResponse (some "1") 0 0, .withBackoffGuard 0,
      .withBackoffGuard 1000, .proceed 1000, .handleRateLimitResponse (some "60") 1000 1000,
      .proceed 1000]
    (Chronological shorter ∧ ¬ Respected (run step idle shorter).events) ∧
      (Chronological overflow ∧ ¬ Respected (run step idle overflow).events) ∧
      (Chronological reported ∧ ¬ Respected (run step idle reported).events) := by
  intro shorter overflow reported
  have hshorter : (run step idle shorter).events = [.limited (some "60") 0,
      .limited (some "1") 0] ++ [.started 0 1000] := by decide +kernel
  have hoverflow : (run step idle overflow).events = [.limited (some "2147484") 0,
      .queued 0] ++ [.ran 0 0 1] := by decide +kernel
  have hreported : (run step idle reported).events = [.limited (some "1") 0, .queued 0,
      .ran 0 0 1000, .limited (some "60") 1000] ++ [.started 1 1000] := by decide +kernel
  refine ⟨⟨by decide, fun h => ?_⟩, ⟨by decide, fun h => ?_⟩, by decide, fun h => ?_⟩
  · have hle : (60000 : ℤ) ≤ 1000 := h _ _ _ hshorter 1000 rfl 60000 (by decide +kernel)
    omega
  · have hle : (2147484000 : ℤ) ≤ 1 := h _ _ _ hoverflow 1 rfl 2147484000 (by decide +kernel)
    omega
  · have hle : (61000 : ℤ) ≤ 1000 := h _ _ _ hreported 1000 rfl 61000 (by decide +kernel)
    omega

end PayFi.Network.Deadlines
