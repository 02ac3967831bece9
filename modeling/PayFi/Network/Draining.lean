import Mathlib.Data.List.Perm.Basic
import PayFi.Library.Machine
import PayFi.Library.Parties
import PayFi.Network.Backoff

namespace PayFi.Network.Draining

open Library.Machine Library.Parties Backoff

def Current (id : ℕ) (es : List Event) : Prop :=
  ∃ xs ys, es = xs ++ .queued id :: ys ∧ ∀ e ∈ ys, e.limits = false

/-- The integrity of the queue: while it holds a call, the lock is active and its timer
pending. Every call in the queue is settled at most once, in the order of arrival within
a drain, and is gone from the queue exactly when it has been; it runs only if it is
current. -/
structure Intact (s : Throttle) : Prop where
  armed : s.backoff.queue ≠ [] → s.backoff.active = true ∧
    ∃ t ∈ s.timers, t.generation = s.backoff.generation
  arrival : (s.events.filterMap Event.queuedId).Pairwise (· < ·)
  once : (s.events.filterMap Event.settledId).Nodup
  removed : ∀ id ∈ s.events.filterMap Event.queuedId,
    id ∈ s.backoff.queue.map Callback.id ++ s.frames.filterMap Frame.id? ↔
      id ∉ s.events.filterMap Event.settledId
  settled : ∀ id ∈ s.events.filterMap Event.settledId, id ∈ s.events.filterMap Event.queuedId
  ordered : ∀ drain, (s.events.filterMap (Event.settledIn drain)).Pairwise (· < ·)
  current : Preceded (fun before e => ∀ drain id now, e = .ran drain id now → Current id before)
    s.events

/-- A timer of an older generation clears nothing. -/
def Harmless (u : Transition Throttle Action) : Prop :=
  ∀ i now t, u.action = .fire i now → u.before.timers[i]? = some t →
    t.generation < u.before.backoff.generation →
      u.after.backoff = u.before.backoff ∧ u.after.frames = u.before.frames ∧
        u.after.events = u.before.events

example : (run step idle [.handleRateLimitResponse (some "5") 0 0, .withBackoffGuard 2000,
    .withBackoffGuard 2000, .fire 0 5000, .proceed 5000, .proceed 5000]).events =
    [.limited (some "5") 0, .queued 0, .queued 1, .ran 0 0 5000, .ran 0 1 5000] := by
  decide +kernel

abbrev queuedIds (es : List Event) : List ℕ := es.filterMap Event.queuedId

abbrev settledIds (es : List Event) : List ℕ := es.filterMap Event.settledId

abbrev frameIds (fs : List Frame) : List ℕ := fs.filterMap Frame.id?

abbrev queueIds (cbs : List Callback) : List ℕ := cbs.map Callback.id

/-- The calls of a drain in their order: those that it has settled, and those left. -/
def drainIds (drain : ℕ) (es : List Event) (fs : List Frame) : List ℕ :=
  es.filterMap (Event.settledIn drain) ++ fs.filterMap (Frame.idIn drain)

def RanCurrent (es : List Event) : Prop :=
  Preceded (fun before e => ∀ drain id now, e = .ran drain id now → Current id before) es

def Waiting (generation : ℕ) (es : List Event) (cb : Callback) : Prop :=
  cb.generation ≤ generation ∧ (cb.generation = generation → Current cb.id es)

/-- Every call that has been queued is settled, in a drain, or still in the queue. -/
structure Books (es : List Event) (fs : List Frame) (cbs : List Callback) (calls drains : ℕ) :
    Prop where
  account : (queuedIds es).Perm (settledIds es ++ (frameIds fs ++ queueIds cbs))
  arrival : (queuedIds es).Pairwise (· < ·)
  numbered : ∀ id ∈ queuedIds es, id < calls
  inOrder : (queueIds cbs).Pairwise (· < ·)
  drained : ∀ drain, (drainIds drain es fs).Pairwise (· < ·)
  undrained : ∀ drain, drains ≤ drain → drainIds drain es fs = []

structure Fresh (generation : ℕ) (es : List Event) (fs : List Frame) (cbs : List Callback) :
    Prop where
  queue : ∀ cb ∈ cbs, Waiting generation es cb
  frames : ∀ drain cb, .callback drain cb ∈ fs → Waiting generation es cb
  ran : RanCurrent es

structure Consistent (s : Throttle) : Prop where
  timer : s.backoff.active = true → ∃ t ∈ s.timers, t.generation = s.backoff.generation
  unlocked : s.backoff.active = false → s.backoff.queue = []
  books : Books s.events s.frames s.backoff.queue s.calls s.drains
  fresh : Fresh s.backoff.generation s.events s.frames s.backoff.queue

variable {s t : Throttle} {e : Event} {es : List Event} {fs : List Frame} {cb : Callback}
  {cbs : List Callback} {id drain calls drains generation : ℕ} {now now' : ℤ}

theorem Current.concat (h : Current id es) (he : e.limits = false) : Current id (es ++ [e]) := by
  obtain ⟨xs, ys, rfl, hys⟩ := h
  refine ⟨xs, ys ++ [e], by simp, ?_⟩
  exact List.forall_mem_append.mpr ⟨hys, List.forall_mem_singleton.mpr he⟩

theorem Waiting.concat (h : Waiting generation es cb)
    (he : e.limits = false) : Waiting generation (es ++ [e]) cb :=
  ⟨h.1, fun hg => (h.2 hg).concat he⟩

theorem Waiting.stale (h : Waiting generation es cb)
    (es' : List Event) : Waiting (generation + 1) es' cb := by
  have hle := h.1
  exact ⟨by omega, fun hg => absurd hg (by omega)⟩

theorem Books.call (h : Books es fs cbs calls drains) : Books es fs cbs (calls + 1) drains :=
  ⟨h.account, h.arrival, fun id hid => Nat.lt_succ_of_lt (h.numbered id hid), h.inOrder,
    h.drained, h.undrained⟩

theorem Books.note (h : Books es fs cbs calls drains) (hq : e.queuedId = none)
    (hs : e.settledId = none) (hd : ∀ drain, e.settledIn drain = none) :
    Books (es ++ [e]) fs cbs calls drains := by
  have hqueued : queuedIds (es ++ [e]) = queuedIds es := by simp [queuedIds, hq]
  have hsettled : settledIds (es ++ [e]) = settledIds es := by simp [settledIds, hs]
  have hdrain : ∀ drain, drainIds drain (es ++ [e]) fs = drainIds drain es fs := by
    intro drain
    simp [drainIds, hd]
  constructor
  · rw [hqueued, hsettled]
    exact h.account
  · rw [hqueued]
    exact h.arrival
  · rw [hqueued]
    exact h.numbered
  · exact h.inOrder
  · intro drain
    rw [hdrain]
    exact h.drained drain
  · intro drain hle
    rw [hdrain]
    exact h.undrained drain hle

theorem Books.enqueue (h : Books es fs cbs calls drains) (generation : ℕ) :
    Books (es ++ [.queued calls]) fs (cbs ++ [⟨calls, generation⟩]) (calls + 1) drains := by
  have hqueued : queuedIds (es ++ [.queued calls]) = queuedIds es ++ [calls] := by
    simp [queuedIds, Event.queuedId]
  have hsettled : settledIds (es ++ [.queued calls]) = settledIds es := by
    simp [settledIds, Event.settledId]
  have hqueue : queueIds (cbs ++ [⟨calls, generation⟩]) = queueIds cbs ++ [calls] := by
    simp [queueIds]
  have hdrain : ∀ drain, drainIds drain (es ++ [.queued calls]) fs = drainIds drain es fs := by
    intro drain
    simp [drainIds, Event.settledIn]
  have hwaiting : ∀ id ∈ queueIds cbs, id ∈ queuedIds es := by
    intro id hid
    exact h.account.symm.subset (by simp [hid])
  constructor
  · rw [hqueued, hsettled, hqueue, ← List.append_assoc (frameIds fs), ← List.append_assoc]
    exact h.account.append_right [calls]
  · rw [hqueued]
    exact pairwise_concat h.arrival h.numbered
  · rw [hqueued]
    apply forall_mem_concat
    · intro id hid
      exact Nat.lt_succ_of_lt (h.numbered id hid)
    · exact Nat.lt_succ_self calls
  · rw [hqueue]
    exact pairwise_concat h.inOrder fun id hid => h.numbered id (hwaiting id hid)
  · intro drain
    rw [hdrain]
    exact h.drained drain
  · intro drain hle
    rw [hdrain]
    exact h.undrained drain hle

theorem Books.start (h : Books es fs cbs calls drains) (id : ℕ) :
    Books es (.start id :: fs) cbs calls drains :=
  ⟨h.account, h.arrival, h.numbered, h.inOrder, h.drained, h.undrained⟩

theorem Books.clear (h : Books es fs cbs calls drains) :
    Books es (cbs.map (.callback drains) ++ fs) [] calls (drains + 1) := by
  have hids : frameIds (cbs.map (.callback drains) ++ fs) = queueIds cbs ++ frameIds fs := by
    simp [frameIds, queueIds, List.filterMap_append, List.filterMap_map, Function.comp_def,
      Frame.id?]
  have hown : drainIds drains es (cbs.map (.callback drains) ++ fs) = queueIds cbs := by
    have hnone := h.undrained drains le_rfl
    simp only [drainIds, List.append_eq_nil_iff] at hnone
    simp [drainIds, hnone, queueIds, List.filterMap_append, List.filterMap_map,
      Function.comp_def, Frame.idIn]
  have hother : ∀ drain, drain ≠ drains →
      drainIds drain es (cbs.map (.callback drains) ++ fs) = drainIds drain es fs := by
    intro drain hne
    simp [drainIds, List.filterMap_append, List.filterMap_map, Function.comp_def, Frame.idIn,
      hne.symm]
  constructor
  · rw [hids]
    simpa [queueIds] using h.account.trans (List.perm_append_comm.append_left _)
  · exact h.arrival
  · exact h.numbered
  · exact List.Pairwise.nil
  · intro drain
    by_cases heq : drain = drains
    · rw [heq, hown]
      exact h.inOrder
    · rw [hother drain heq]
      exact h.drained drain
  · intro drain hle
    rw [hother drain (by omega)]
    exact h.undrained drain (by omega)

theorem Books.settle (h : Books es (.callback drain cb :: fs) cbs calls drains)
    (hq : e.queuedId = none) (hs : e.settledId = some cb.id)
    (hd : ∀ n, e.settledIn n = (Frame.callback drain cb).idIn n) :
    Books (es ++ [e]) fs cbs calls drains := by
  have hqueued : queuedIds (es ++ [e]) = queuedIds es := by simp [queuedIds, hq]
  have hdrain : ∀ n, drainIds n (es ++ [e]) fs = drainIds n es (.callback drain cb :: fs) := by
    intro n
    cases hn : (Frame.callback drain cb).idIn n with
    | none => simp [drainIds, hd, hn]
    | some id => simp [drainIds, hd, hn]
  constructor
  · rw [hqueued]
    simpa [settledIds, frameIds, hs, Frame.id?] using h.account
  · rw [hqueued]
    exact h.arrival
  · rw [hqueued]
    exact h.numbered
  · exact h.inOrder
  · intro n
    rw [hdrain]
    exact h.drained n
  · intro n hle
    rw [hdrain]
    exact h.undrained n hle

theorem Fresh.note (h : Fresh generation es fs cbs) (he : e.limits = false)
    (hran : ∀ drain id now, e = .ran drain id now → Current id es) :
    Fresh generation (es ++ [e]) fs cbs where
  queue := fun cb hcb => (h.queue cb hcb).concat he
  frames := fun drain cb hcb => (h.frames drain cb hcb).concat he
  ran := h.ran.concat hran

theorem Fresh.limit (h : Fresh generation es fs cbs) (header : Option String) (now : ℤ) :
    Fresh (generation + 1) (es ++ [.limited header now]) fs cbs where
  queue := fun cb hcb => (h.queue cb hcb).stale _
  frames := fun drain cb hcb => (h.frames drain cb hcb).stale _
  ran := h.ran.concat fun _ _ _ heq => by cases heq

theorem Fresh.enqueue (h : Fresh generation es fs cbs) (id : ℕ) :
    Fresh generation (es ++ [.queued id]) fs (cbs ++ [⟨id, generation⟩]) := by
  have hnoted := h.note (e := .queued id) rfl fun _ _ _ heq => by cases heq
  refine ⟨forall_mem_concat hnoted.queue ?_, hnoted.frames, hnoted.ran⟩
  exact ⟨le_rfl, fun _ => ⟨es, [], rfl, List.forall_mem_nil _⟩⟩

theorem Fresh.start (h : Fresh generation es fs cbs) (id : ℕ) :
    Fresh generation es (.start id :: fs) cbs := by
  refine ⟨h.queue, fun drain cb hcb => h.frames drain cb ?_, h.ran⟩
  exact (List.mem_cons.mp hcb).resolve_left (by simp)

theorem Fresh.clear (h : Fresh generation es fs cbs) (drain : ℕ) :
    Fresh generation es (cbs.map (.callback drain) ++ fs) [] := by
  refine ⟨List.forall_mem_nil _, fun n cb hcb => ?_, h.ran⟩
  obtain hcb | hcb := List.mem_append.mp hcb
  · obtain ⟨cb', hcb', heq⟩ := List.mem_map.mp hcb
    cases heq
    exact h.queue cb hcb'
  · exact h.frames n cb hcb

theorem Fresh.pop {f : Frame} (h : Fresh generation es (f :: fs) cbs) :
    Fresh generation es fs cbs :=
  ⟨h.queue, fun drain cb hcb => h.frames drain cb (List.mem_cons_of_mem f hcb), h.ran⟩

theorem idle_consistent : Consistent idle where
  timer := by simp [idle]
  unlocked := fun _ => rfl
  books := ⟨List.Perm.nil, List.Pairwise.nil, by simp [idle], List.Pairwise.nil,
    fun _ => List.Pairwise.nil, fun _ _ => rfl⟩
  fresh := ⟨by simp [idle], by simp [idle], .nil _⟩

theorem Consistent.limit (h : Consistent s) (header : Option String) (now now' : ℤ) :
    Consistent (handleRateLimitResponse s header now now') where
  timer := fun _ => ⟨_, List.mem_append_right _ (List.mem_singleton_self _), rfl⟩
  unlocked := fun hf => by cases hf
  books := h.books.note rfl rfl fun _ => rfl
  fresh := h.fresh.limit header now

theorem Consistent.call (h : Consistent s) : Consistent s.call :=
  ⟨h.timer, h.unlocked, h.books.call, h.fresh⟩

theorem Consistent.push (h : Consistent s) (id : ℕ) : Consistent (s.push (.start id)) :=
  ⟨h.timer, h.unlocked, h.books.start id, h.fresh.start id⟩

theorem Consistent.started (h : Consistent s) (id : ℕ) (now : ℤ) :
    Consistent (s.note (.started id now)) :=
  ⟨h.timer, h.unlocked, h.books.note rfl rfl fun _ => rfl,
    h.fresh.note rfl fun _ _ _ heq => by cases heq⟩

theorem Consistent.enqueue (h : Consistent s) (ha : s.backoff.active = true) :
    Consistent s.enqueue := by
  refine ⟨h.timer, fun hf => ?_, h.books.enqueue _, h.fresh.enqueue _⟩
  cases ha.symm.trans hf

theorem Consistent.clear (h : Consistent s) (timers : List Timer) :
    Consistent (cleared s timers) where
  timer := fun hf => by cases hf
  unlocked := fun _ => rfl
  books := h.books.clear
  fresh := h.fresh.clear s.drains

theorem Consistent.erase (h : Consistent s) {i : ℕ} {t : Timer} (ht : s.timers[i]? = some t)
    (hg : t.generation ≠ s.backoff.generation) :
    Consistent { s with timers := s.timers.eraseIdx i } := by
  refine ⟨fun ha => ?_, h.unlocked, h.books, h.fresh⟩
  obtain ⟨t', ht', hg'⟩ := h.timer ha
  obtain ⟨j, hj⟩ := List.mem_iff_getElem?.mp ht'
  refine ⟨t', List.mem_eraseIdx_iff_getElem?.mpr ⟨j, ?_, hj⟩, hg'⟩
  rintro rfl
  cases hj.symm.trans ht
  exact hg hg'

theorem Consistent.pop (h : Consistent s) (hf : s.frames = .start id :: fs) :
    Consistent { s with frames := fs } := by
  obtain ⟨htimer, hunlocked, hbooks, hfresh⟩ := h
  rw [hf] at hbooks hfresh
  exact ⟨htimer, hunlocked, ⟨hbooks.account, hbooks.arrival, hbooks.numbered, hbooks.inOrder,
    hbooks.drained, hbooks.undrained⟩, hfresh.pop⟩

theorem Consistent.settle (h : Consistent s) (hf : s.frames = .callback drain cb :: fs)
    (he : e = .superseded drain cb.id ∨
      ∃ now, e = .ran drain cb.id now ∧ cb.generation = s.backoff.generation) :
    Consistent ({ s with frames := fs }.note e) := by
  obtain ⟨htimer, hunlocked, hbooks, hfresh⟩ := h
  rw [hf] at hbooks hfresh
  obtain rfl | ⟨now, rfl, hg⟩ := he
  · exact ⟨htimer, hunlocked, hbooks.settle rfl rfl fun _ => rfl,
      hfresh.pop.note rfl fun _ _ _ heq => by cases heq⟩
  · refine ⟨htimer, hunlocked, hbooks.settle rfl rfl fun _ => rfl,
      hfresh.pop.note rfl fun _ _ _ heq => ?_⟩
    cases heq
    exact (hfresh.frames drain cb List.mem_cons_self).2 hg

theorem step_consistent (h : Consistent s) (a : Action) : Consistent (step s a) := by
  have ho := step_outcome s a
  generalize step s a = t at ho
  cases ho with
  | limited header now now' => exact h.limit header now now'
  | waits ha => exact h.enqueue ha
  | starts => exact h.call.started _ _
  | clears => exact (h.call.clear _).started _ _
  | drains => exact (h.call.push _).clear _
  | polled => exact h.clear _
  | fired => exact h.clear _
  | stale ht hg => exact h.erase ht hg
  | resumed hf => exact (h.pop hf).started _ _
  | superseded hf => exact h.settle hf (.inl rfl)
  | ran hf hg => exact h.settle hf (.inr ⟨_, rfl, hg⟩)
  | nothing => exact h

theorem Consistent.intact (h : Consistent s) : Intact s := by
  have hnodup : (settledIds s.events ++ (frameIds s.frames ++ queueIds s.backoff.queue)).Nodup := by
    refine h.books.account.nodup_iff.mp ?_
    exact h.books.arrival.imp fun hlt => ne_of_lt hlt
  obtain ⟨honce, -, hdisjoint⟩ := List.nodup_append.mp hnodup
  constructor
  · intro hqueue
    have hactive : s.backoff.active = true := by
      by_contra hf
      exact hqueue (h.unlocked (Bool.not_eq_true _ ▸ hf))
    exact ⟨hactive, h.timer hactive⟩
  · exact h.books.arrival
  · exact honce
  · intro id hid
    have hmem := h.books.account.subset hid
    simp only [List.mem_append] at hmem ⊢
    constructor
    · intro hwaiting hsettled
      exact hdisjoint id hsettled id (List.mem_append.mpr hwaiting.symm) rfl
    · intro hsettled
      exact (hmem.resolve_left hsettled).symm
  · intro id hid
    exact h.books.account.symm.subset (List.mem_append_left _ hid)
  · intro drain
    exact (List.pairwise_append.mp (h.books.drained drain)).1
  · exact h.fresh.ran

theorem fire_harmless (s : Throttle) (i : ℕ) (now : ℤ) {t : Timer} (ht : s.timers[i]? = some t)
    (hlt : t.generation < s.backoff.generation) : (fire s i now).backoff = s.backoff ∧
      (fire s i now).frames = s.frames ∧ (fire s i now).events = s.events := by
  unfold fire
  split
  · rename_i timer hframes htimer
    cases ht.symm.trans htimer
    split
    · simp [clearBackoff, hlt.ne, hframes]
    · exact ⟨rfl, rfl, rfl⟩
  · exact ⟨rfl, rfl, rfl⟩

/-- For every order of calls, timers and running functions the queue stays intact, and no
timer of an older generation clears anything. -/
theorem backoff_queue_intact (as : List Action) :
    Intact (run step idle as) ∧ ∀ u ∈ trace step idle as, Harmless u := by
  have hstep : ∀ s a, Consistent s → Consistent (step s a) := fun _ a h => step_consistent h a
  refine ⟨Consistent.intact (run_invariant idle_consistent hstep as), ?_⟩
  refine trace_invariant idle_consistent hstep ?_ as
  rintro s a - i now t rfl htimer hlt
  exact fire_harmless s i now htimer hlt

end PayFi.Network.Draining
