import Mathlib.Data.List.Nodup
import Mathlib.Data.List.Perm.Basic
import PayFi.Agent.Middlewares
import PayFi.Library.Machine
import PayFi.Library.Parties

namespace PayFi.Agent.Queue

open Library.Machine Library.Parties Middlewares
open Execution (AgentResult AgentTask)

variable {Payload Data Err : Type}

structure Config where
  maxConcurrentTasks : ℕ
  queueCapacity : ℕ
  concurrent : 1 ≤ maxConcurrentTasks

/-- A call of `run`, by which its promise is known, with the task it was given and what its
execution meets. -/
structure Call (Payload Data Err : Type) where
  id : ℕ
  request : Request Payload Data Err
  queued : Bool

structure PayFiAgent (Payload Data Err : Type) where
  activeTasks : ℕ
  isDraining : Bool
  taskQueue : List (Call Payload Data Err)

/-- What an execution has come to, a result or a throw, by its call. -/
abbrev Ending (Data Err : Type) : Type := ℕ × Except Err (AgentResult Data)

/-- The agent, and what has become of the calls of `run` so far. A finished execution leaves its
ending pending until the promise of its call is settled; a queued call whose execution rejects
is lost, and its promise is never settled. -/
structure World (Payload Data Err : Type) where
  agent : PayFiAgent Payload Data Err
  calls : ℕ
  accepted : List (Call Payload Data Err)
  refused : List (ℕ × AgentResult Data)
  started : List (Call Payload Data Err)
  executing : List (Call Payload Data Err)
  finished : List (Ending Data Err)
  pending : List (Ending Data Err)
  settled : List (Ending Data Err)
  lost : List (Ending Data Err)

inductive Action (Payload Data Err : Type) where
  | run (q : Request Payload Data Err)
  | finish (k : ℕ)
  | settle (k : ℕ)
  | drain

/-- The result of a task that `run` turns down. -/
def rejection (task : AgentTask Payload) (correlationId error : String) : AgentResult Data :=
  ⟨false, task.type, none, some error, none, correlationId, none⟩

def refusal (id : ℕ) (q : Request Payload Data Err) (error : String) : ℕ × AgentResult Data :=
  (id, rejection q.task q.correlationId error)

def refuse (w : World Payload Data Err) (q : Request Payload Data Err) (error : String) :
    World Payload Data Err :=
  { w with calls := w.calls + 1, refused := w.refused ++ [refusal w.calls q error] }

def accept (w : World Payload Data Err) (c : Call Payload Data Err) : World Payload Data Err :=
  { w with calls := w.calls + 1, accepted := w.accepted ++ [c] }

def enqueue (w : World Payload Data Err) (c : Call Payload Data Err) : World Payload Data Err :=
  { w with agent := { w.agent with taskQueue := w.agent.taskQueue ++ [c] } }

def executeTask (w : World Payload Data Err) (c : Call Payload Data Err) :
    World Payload Data Err :=
  { w with
    agent := { w.agent with activeTasks := w.agent.activeTasks + 1 }
    started := w.started ++ [c]
    executing := w.executing ++ [c] }

/-- The promise of a call that has started at once is that of its execution; a queued call's
is resolved by `then`, which passes a result on but no rejection. -/
def settlement (queued : Bool) (out : Except Err (AgentResult Data)) :
    Option (Except Err (AgentResult Data)) :=
  match queued, out with
  | false, out => some out
  | true, .ok result => some (.ok result)
  | true, .error _ => none

variable (cfg : Config)

def dispatchQueued (w : World Payload Data Err) : World Payload Data Err :=
  match w.agent.taskQueue with
  | [] => w
  | next :: rest =>
    if cfg.maxConcurrentTasks ≤ w.agent.activeTasks then w
    else executeTask { w with agent := { w.agent with taskQueue := rest } } next

def run (w : World Payload Data Err) (q : Request Payload Data Err) : World Payload Data Err :=
  if w.agent.isDraining then refuse w q "Agent is shutting down — task rejected"
  else if cfg.maxConcurrentTasks ≤ w.agent.activeTasks then
    if 0 < cfg.queueCapacity ∧ w.agent.taskQueue.length < cfg.queueCapacity then
      enqueue (accept w ⟨w.calls, q, true⟩) ⟨w.calls, q, true⟩
    else
      refuse w q ("Agent is at capacity — " ++ toString w.agent.activeTasks ++ "/" ++
        toString cfg.maxConcurrentTasks ++ " concurrent tasks in flight; task rejected")
  else executeTask (accept w ⟨w.calls, q, false⟩) ⟨w.calls, q, false⟩

def leave (w : World Payload Data Err) (c : Call Payload Data Err) : World Payload Data Err :=
  let w := { w with finished := w.finished ++ [(c.id, c.request.result)] }
  match settlement c.queued c.request.result with
  | some out => { w with pending := w.pending ++ [(c.id, out)] }
  | none => { w with lost := w.lost ++ [(c.id, c.request.result)] }

def release (w : World Payload Data Err) (k : ℕ) : World Payload Data Err :=
  { w with
    agent := { w.agent with activeTasks := w.agent.activeTasks - 1 }
    executing := w.executing.eraseIdx k }

/-- The `finally` block of an execution. -/
def finish (w : World Payload Data Err) (k : ℕ) : World Payload Data Err :=
  match w.executing[k]? with
  | none => w
  | some c => dispatchQueued cfg (leave (release w k) c)

def settle (w : World Payload Data Err) (k : ℕ) : World Payload Data Err :=
  match w.pending[k]? with
  | none => w
  | some r => { w with pending := w.pending.eraseIdx k, settled := w.settled ++ [r] }

def drain (w : World Payload Data Err) : World Payload Data Err :=
  { w with agent := { w.agent with isDraining := true } }

def step (w : World Payload Data Err) : Action Payload Data Err → World Payload Data Err
  | .run q => run cfg w q
  | .finish k => finish cfg w k
  | .settle k => settle w k
  | .drain => drain w

def idle : World Payload Data Err := ⟨⟨0, false, []⟩, 0, [], [], [], [], [], [], [], []⟩

def ids (cs : List (Call Payload Data Err)) : List ℕ := cs.map Call.id

def Call.ending (c : Call Payload Data Err) : Ending Data Err := (c.id, c.request.result)

/-- Slots and queue fit together, but for `free` slots that are about to be dispatched. -/
structure Slots (free : ℕ) (w : World Payload Data Err) : Prop where
  active : w.agent.activeTasks = w.executing.length
  bounded : w.agent.activeTasks + free ≤ cfg.maxConcurrentTasks
  capacity : w.agent.taskQueue.length ≤ cfg.queueCapacity
  saturated : w.agent.taskQueue ≠ [] → w.agent.activeTasks + free = cfg.maxConcurrentTasks

/-- Every call is in one place: tasks start in the order in which they were accepted, each once,
and each ending is that of its own execution; only queued calls that reject are lost. -/
structure Calls (w : World Payload Data Err) : Prop where
  order : w.accepted = w.started ++ w.agent.taskQueue
  running : w.executing ⊆ w.started
  executed : (ids w.executing ++ w.finished.map Prod.fst).Perm (ids w.started)
  own : w.finished ⊆ w.started.map Call.ending
  endings : (w.pending ++ w.settled ++ w.lost).Perm w.finished
  answered : ∀ r ∈ w.pending ++ w.settled, ∃ c ∈ w.started, r = c.ending ∧
    ¬(c.queued = true ∧ Escapes c.request)
  lost : ∀ r ∈ w.lost, ∃ c ∈ w.started, r = c.ending ∧ c.queued = true ∧ Escapes c.request
  numbered : (ids w.accepted ++ w.refused.map Prod.fst).Perm (List.range w.calls)

variable {cfg} {w : World Payload Data Err} {free : ℕ}

theorem idle_slots (cfg : Config) : Slots cfg 0 (idle : World Payload Data Err) :=
  ⟨rfl, Nat.zero_le _, Nat.zero_le _, fun h => absurd rfl h⟩

theorem idle_calls : Calls (idle : World Payload Data Err) where
  order := rfl
  running := List.nil_subset _
  executed := .refl _
  own := List.nil_subset _
  endings := .refl _
  answered := List.forall_mem_nil _
  lost := List.forall_mem_nil _
  numbered := .refl _

theorem perm_insert {α : Type} {xs ys zs : List α} (h : (xs ++ ys).Perm zs) (n : α) :
    (xs ++ [n] ++ ys).Perm (zs ++ [n]) := by
  have hswap : (xs ++ [n] ++ ys).Perm (xs ++ ys ++ [n]) := by
    rw [List.append_assoc, List.append_assoc]
    apply List.Perm.append_left
    exact List.perm_append_comm
  exact hswap.trans (h.append_right [n])

theorem perm_move {α : Type} {xs : List α} {k : ℕ} (hk : k < xs.length) (ys : List α) :
    (xs.eraseIdx k ++ (ys ++ [xs[k]])).Perm (xs ++ ys) := by
  rw [← List.append_assoc]
  have hmove : (xs.eraseIdx k ++ ys ++ [xs[k]]).Perm (xs[k] :: xs.eraseIdx k ++ ys) :=
    List.perm_append_singleton ..
  exact hmove.trans ((List.getElem_cons_eraseIdx_perm hk).append_right ys)

theorem ids_concat (cs : List (Call Payload Data Err)) (c : Call Payload Data Err) :
    ids (cs ++ [c]) = ids cs ++ [c.id] :=
  List.map_append

theorem settlement_eq {queued : Bool} {out out' : Except Err (AgentResult Data)}
    (h : settlement queued out = some out') : out' = out := by
  cases queued <;> cases out <;> cases h <;> rfl

theorem settlement_eq_none {queued : Bool} {out : Except Err (AgentResult Data)} :
    settlement queued out = none ↔ queued = true ∧ ∃ e, out = .error e := by
  cases queued <;> cases out <;> simp [settlement]

theorem Calls.execute {c : Call Payload Data Err} {rest : List (Call Payload Data Err)}
    (h : Calls w) (hqueue : w.agent.taskQueue = c :: rest) :
    Calls (executeTask { w with agent := { w.agent with taskQueue := rest } } c) where
  order := by
    simp only [executeTask, List.append_assoc, List.singleton_append]
    rw [← hqueue]
    exact h.order
  running := by
    apply List.append_subset.mpr
    exact ⟨List.Subset.trans h.running (List.subset_append_left _ _), List.subset_append_right _ _⟩
  executed := by
    simp only [executeTask, ids_concat]
    exact perm_insert h.executed c.id
  own := by
    simp only [executeTask, List.map_append]
    exact List.Subset.trans h.own (List.subset_append_left _ _)
  endings := h.endings
  answered := fun r hr =>
    let ⟨c', hc', hending⟩ := h.answered r hr
    ⟨c', List.mem_append_left _ hc', hending⟩
  lost := fun r hr =>
    let ⟨c', hc', hending⟩ := h.lost r hr
    ⟨c', List.mem_append_left _ hc', hending⟩
  numbered := h.numbered

theorem execute_slots {rest : List (Call Payload Data Err)}
    (hactive : w.agent.activeTasks = w.executing.length)
    (hfree : w.agent.activeTasks < cfg.maxConcurrentTasks) (c : Call Payload Data Err)
    (hcapacity : rest.length ≤ cfg.queueCapacity)
    (hsaturated : rest ≠ [] → w.agent.activeTasks + 1 = cfg.maxConcurrentTasks) :
    Slots cfg 0 (executeTask { w with agent := { w.agent with taskQueue := rest } } c) := by
  refine ⟨?_, hfree, hcapacity, hsaturated⟩
  simp [executeTask, hactive]

theorem dispatchQueued_calls (h : Calls w) : Calls (dispatchQueued cfg w) := by
  rw [dispatchQueued]
  split
  · exact h
  · rename_i next rest hqueue
    split
    · exact h
    · exact h.execute hqueue

theorem dispatchQueued_slots (h : Slots cfg 1 w) : Slots cfg 0 (dispatchQueued cfg w) := by
  have hbounded := h.bounded
  rw [dispatchQueued]
  split
  · rename_i hqueue
    exact ⟨h.active, by omega, h.capacity, fun hne => absurd hqueue hne⟩
  · rename_i next rest hqueue
    have hfull := h.saturated (by simp [hqueue])
    have hcapacity := h.capacity
    rw [hqueue, List.length_cons] at hcapacity
    rw [if_neg (by omega)]
    exact execute_slots h.active (by omega) next (by omega) fun _ => hfull

theorem Calls.refuse (h : Calls w) (q : Request Payload Data Err) (error : String) :
    Calls (refuse w q error) where
  order := h.order
  running := h.running
  executed := h.executed
  own := h.own
  endings := h.endings
  answered := h.answered
  lost := h.lost
  numbered := by
    simp only [Queue.refuse, List.map_append, ← List.append_assoc, List.range_succ]
    exact h.numbered.append_right [w.calls]

theorem numbered_accept (h : Calls w) (q : Request Payload Data Err) (queued : Bool) :
    (ids (w.accepted ++ [⟨w.calls, q, queued⟩]) ++ w.refused.map Prod.fst).Perm
      (List.range (w.calls + 1)) := by
  rw [ids_concat, List.range_succ]
  exact perm_insert h.numbered w.calls

theorem Calls.enqueue (h : Calls w) (q : Request Payload Data Err) (queued : Bool) :
    Calls (Queue.enqueue (accept w ⟨w.calls, q, queued⟩) ⟨w.calls, q, queued⟩) where
  order := by simp only [Queue.enqueue, accept, h.order, List.append_assoc]
  running := h.running
  executed := h.executed
  own := h.own
  endings := h.endings
  answered := h.answered
  lost := h.lost
  numbered := numbered_accept h q queued

theorem run_calls (hs : Slots cfg 0 w) (h : Calls w) (q : Request Payload Data Err) :
    Calls (run cfg w q) := by
  rw [run]
  split
  · exact h.refuse ..
  · split
    · split
      · exact h.enqueue q true
      · exact h.refuse ..
    · -- a free slot means an empty queue, and a call that starts at once is next in it
      rename_i hfree
      have hqueue : w.agent.taskQueue = [] := by
        by_contra hne
        have hfull := hs.saturated hne
        omega
      have hnext := (h.enqueue q false).execute
        (show w.agent.taskQueue ++ [⟨w.calls, q, false⟩] = ⟨w.calls, q, false⟩ :: [] by
          rw [hqueue, List.nil_append])
      simpa only [Queue.enqueue, accept, executeTask, hqueue] using hnext

theorem run_slots (h : Slots cfg 0 w) (q : Request Payload Data Err) :
    Slots cfg 0 (run cfg w q) := by
  rw [run]
  split
  · exact ⟨h.active, h.bounded, h.capacity, h.saturated⟩
  · split
    · rename_i hfull
      have hbounded := h.bounded
      split
      · rename_i hroom
        refine ⟨h.active, h.bounded, ?_, fun _ => ?_⟩
        · simp only [enqueue, accept, List.length_append, List.length_singleton]
          omega
        · simp only [enqueue, accept]
          omega
      · exact ⟨h.active, h.bounded, h.capacity, h.saturated⟩
    · rename_i hfree
      refine ⟨?_, Nat.lt_of_not_le hfree, h.capacity, fun hne => ?_⟩
      · simp [executeTask, accept, h.active]
      · have hfull := h.saturated hne
        omega

theorem leave_agent (w : World Payload Data Err) (c : Call Payload Data Err) :
    (leave w c).agent = w.agent ∧ (leave w c).executing = w.executing ∧
      (leave w c).accepted = w.accepted ∧ (leave w c).started = w.started ∧
      (leave w c).settled = w.settled ∧ (leave w c).refused = w.refused ∧
      (leave w c).calls = w.calls ∧ (leave w c).finished = w.finished ++ [c.ending] := by
  simp only [leave]
  split <;> exact ⟨rfl, rfl, rfl, rfl, rfl, rfl, rfl, rfl⟩

theorem leave_cases (w : World Payload Data Err) (c : Call Payload Data Err) :
    ((leave w c).pending = w.pending ++ [c.ending] ∧ (leave w c).lost = w.lost ∧
        ¬(c.queued = true ∧ Escapes c.request)) ∨
      ((leave w c).pending = w.pending ∧ (leave w c).lost = w.lost ++ [c.ending] ∧
        c.queued = true ∧ Escapes c.request) := by
  simp only [leave]
  split
  · rename_i out hout
    rw [settlement_eq hout]
    refine .inl ⟨rfl, rfl, fun ⟨hqueued, hescapes⟩ => ?_⟩
    have hnone := settlement_eq_none.mpr ⟨hqueued, result_rejects_iff.mpr hescapes⟩
    rw [hnone] at hout
    cases hout
  · rename_i hnone
    obtain ⟨hqueued, hrejects⟩ := settlement_eq_none.mp hnone
    exact .inr ⟨rfl, rfl, hqueued, result_rejects_iff.mp hrejects⟩

theorem finish_slots (h : Slots cfg 0 w) (k : ℕ) : Slots cfg 0 (finish cfg w k) := by
  have hactive := h.active
  have hbounded := h.bounded
  rw [finish]
  split
  · exact h
  · rename_i c hc
    obtain ⟨hk, -⟩ := List.getElem?_eq_some_iff.mp hc
    apply dispatchQueued_slots
    obtain ⟨hagent, hexecuting, -⟩ := leave_agent (release w k) c
    refine ⟨?_, ?_, ?_, fun hne => ?_⟩
    · rw [hagent, hexecuting]
      simp only [release, List.length_eraseIdx_of_lt hk]
      omega
    · rw [hagent]
      simp only [release]
      omega
    · rw [hagent]
      exact h.capacity
    · rw [hagent] at hne ⊢
      have hfull := h.saturated hne
      simp only [release]
      omega

theorem leave_calls (h : Calls w) {k : ℕ} (hk : k < w.executing.length) :
    Calls (leave (release w k) w.executing[k]) := by
  have hmem := h.running (List.getElem_mem hk)
  obtain ⟨hagent, hexecuting, haccepted, hstarted, hsettled, hrefused, hcalls, hfinished⟩ :=
    leave_agent (release w k) w.executing[k]
  have hcases := leave_cases (release w k) w.executing[k]
  refine ⟨?_, ?_, ?_, ?_, ?_, ?_, ?_, ?_⟩
  · rw [haccepted, hstarted, hagent]
    exact h.order
  · rw [hexecuting, hstarted]
    exact List.Subset.trans (List.eraseIdx_sublist _ _).subset h.running
  · rw [hexecuting, hstarted, hfinished]
    refine List.Perm.trans ?_ h.executed
    have hlen : k < (ids w.executing).length := by simpa [ids] using hk
    have hmove := perm_move hlen (w.finished.map Prod.fst)
    simpa [ids, List.eraseIdx_map, Call.ending, release] using hmove
  · rw [hfinished, hstarted]
    exact List.append_subset.mpr ⟨h.own, List.cons_subset.mpr
      ⟨List.mem_map_of_mem hmem, List.nil_subset _⟩⟩
  · rw [hfinished, hsettled]
    obtain ⟨hpending, hlost, -⟩ | ⟨hpending, hlost, -⟩ := hcases
    · rw [hpending, hlost]
      have hendings := h.endings
      rw [List.append_assoc] at hendings ⊢
      exact perm_insert hendings _
    · rw [hpending, hlost, ← List.append_assoc]
      exact h.endings.append_right _
  · rw [hstarted, hsettled]
    obtain ⟨hpending, -, hanswered⟩ | ⟨hpending, -⟩ := hcases
    · rw [hpending]
      intro r hr
      have hended := (perm_insert (List.Perm.refl _) _).subset hr
      obtain hr | rfl := (List.mem_append.mp hended).imp_right
        List.mem_singleton.mp
      · exact h.answered r hr
      · exact ⟨_, hmem, rfl, hanswered⟩
    · rw [hpending]
      exact h.answered
  · rw [hstarted]
    obtain ⟨-, hlost, -⟩ | ⟨-, hlost, hescapes⟩ := hcases
    · rw [hlost]
      exact h.lost
    · rw [hlost]
      exact List.forall_mem_append.mpr ⟨h.lost, List.forall_mem_singleton.mpr
        ⟨_, hmem, rfl, hescapes⟩⟩
  · rw [haccepted, hrefused, hcalls]
    exact h.numbered

theorem finish_calls (h : Calls w) (k : ℕ) : Calls (finish cfg w k) := by
  rw [finish]
  split
  · exact h
  · rename_i c hc
    obtain ⟨hk, rfl⟩ := List.getElem?_eq_some_iff.mp hc
    exact dispatchQueued_calls (leave_calls h hk)

theorem settle_calls (h : Calls w) (k : ℕ) : Calls (settle w k) := by
  rw [settle]
  split
  · exact h
  · rename_i r hr
    obtain ⟨hk, rfl⟩ := List.getElem?_eq_some_iff.mp hr
    have hmove := perm_move hk w.settled
    exact ⟨h.order, h.running, h.executed, h.own, (hmove.append_right w.lost).trans h.endings,
      fun r hr => h.answered r (hmove.subset hr), h.lost, h.numbered⟩

theorem settle_slots (h : Slots cfg 0 w) (k : ℕ) : Slots cfg 0 (settle w k) := by
  rw [settle]
  split
  · exact h
  · exact ⟨h.active, h.bounded, h.capacity, h.saturated⟩

theorem step_keeps (a : Action Payload Data Err) (h : Slots cfg 0 w ∧ Calls w) :
    Slots cfg 0 (step cfg w a) ∧ Calls (step cfg w a) := by
  obtain ⟨hs, hc⟩ := h
  cases a with
  | run q => exact ⟨run_slots hs q, run_calls hs hc q⟩
  | finish k => exact ⟨finish_slots hs k, finish_calls hc k⟩
  | settle k => exact ⟨settle_slots hs k, settle_calls hc k⟩
  | drain =>
    exact ⟨⟨hs.active, hs.bounded, hs.capacity, hs.saturated⟩,
      ⟨hc.order, hc.running, hc.executed, hc.own, hc.endings, hc.answered, hc.lost,
        hc.numbered⟩⟩

theorem run_keeps_of (h : Slots cfg 0 w ∧ Calls w) (as : List (Action Payload Data Err)) :
    Slots cfg 0 (Library.Machine.run (step cfg) w as) ∧
      Calls (Library.Machine.run (step cfg) w as) :=
  run_invariant (I := fun w => Slots cfg 0 w ∧ Calls w) h (fun _ a h => step_keeps a h) as

theorem run_keeps (cfg : Config) (as : List (Action Payload Data Err)) :
    Slots cfg 0 (Library.Machine.run (step cfg) idle as) ∧
      Calls (Library.Machine.run (step cfg) idle as) :=
  run_keeps_of ⟨idle_slots cfg, idle_calls⟩ as

/-- Nothing is executing or queued, and nothing will be. -/
def Drained (w : World Payload Data Err) : Prop :=
  w.agent.isDraining = true ∧ w.agent.activeTasks = 0 ∧ w.agent.taskQueue = []

def Action.completes : Action Payload Data Err → Bool
  | .finish _ => true
  | .settle _ => true
  | _ => false

def work (w : World Payload Data Err) : ℕ :=
  2 * w.executing.length + 2 * w.agent.taskQueue.length + w.pending.length

theorem step_drained (hs : Slots cfg 0 w) (h : Drained w) (a : Action Payload Data Err) :
    Drained (step cfg w a) := by
  obtain ⟨hdrain, hactive, hqueue⟩ := h
  cases a with
  | run q =>
    simp only [step, run, hdrain, if_true]
    exact ⟨hdrain, hactive, hqueue⟩
  | finish k =>
    have hexecuting : w.executing = [] := by
      apply List.eq_nil_of_length_eq_zero
      rw [← hs.active, hactive]
    simp only [step, finish, hexecuting, List.getElem?_nil]
    exact ⟨hdrain, hactive, hqueue⟩
  | settle k =>
    simp only [step, settle]
    split
    · exact ⟨hdrain, hactive, hqueue⟩
    · exact ⟨hdrain, hactive, hqueue⟩
  | drain => exact ⟨rfl, hactive, hqueue⟩

theorem run_drained (hs : Slots cfg 0 w) (hc : Calls w) (h : Drained w)
    (bs : List (Action Payload Data Err)) : Drained (Library.Machine.run (step cfg) w bs) := by
  have hrun : (Slots cfg 0 (Library.Machine.run (step cfg) w bs) ∧
      Calls (Library.Machine.run (step cfg) w bs)) ∧
      Drained (Library.Machine.run (step cfg) w bs) :=
    run_invariant (I := fun w => (Slots cfg 0 w ∧ Calls w) ∧ Drained w) ⟨⟨hs, hc⟩, h⟩
      (fun _ a hw => ⟨step_keeps a hw.1, step_drained hw.1.1 hw.2 a⟩) bs
  exact hrun.2

theorem dispatchQueued_work (cfg : Config) (w : World Payload Data Err) :
    work (dispatchQueued cfg w) = work w ∧ (dispatchQueued cfg w).accepted = w.accepted := by
  rw [dispatchQueued]
  split
  · exact ⟨rfl, rfl⟩
  · rename_i next rest hqueue
    split
    · exact ⟨rfl, rfl⟩
    · refine ⟨?_, rfl⟩
      simp only [work, executeTask, hqueue, List.length_append, List.length_cons, List.length_nil]
      omega

theorem finish_work (cfg : Config) {k : ℕ} (hk : k < w.executing.length) :
    work (finish cfg w k) < work w ∧ (finish cfg w k).accepted = w.accepted := by
  simp only [finish, List.getElem?_eq_getElem hk]
  obtain ⟨hwork, haccepted⟩ := dispatchQueued_work cfg (leave (release w k) w.executing[k])
  obtain ⟨hagent, hexecuting, hleft, -⟩ := leave_agent (release w k) w.executing[k]
  have hpending : (leave (release w k) w.executing[k]).pending.length ≤ w.pending.length + 1 := by
    obtain ⟨hpending, -⟩ | ⟨hpending, -⟩ := leave_cases (release w k) w.executing[k]
    · rw [hpending, List.length_append]
      exact Nat.le_refl _
    · rw [hpending]
      exact Nat.le_succ _
  refine ⟨?_, haccepted.trans hleft⟩
  rw [hwork]
  have hlen : (release w k).executing.length = w.executing.length - 1 :=
    List.length_eraseIdx_of_lt hk
  have hqueue : (release w k).agent.taskQueue = w.agent.taskQueue := rfl
  simp only [work, hagent, hexecuting, hlen, hqueue]
  omega

theorem settle_work {k : ℕ} (hk : k < w.pending.length) :
    work (settle w k) < work w ∧ (settle w k).accepted = w.accepted := by
  simp only [settle, List.getElem?_eq_getElem hk]
  refine ⟨?_, trivial⟩
  simp only [work, List.length_eraseIdx_of_lt hk]
  omega

theorem Slots.empty (h : Slots cfg 0 w) (hexecuting : w.executing = []) :
    w.agent.taskQueue = [] := by
  have hactive := h.active
  have hconcurrent := cfg.concurrent
  rw [hexecuting, List.length_nil] at hactive
  by_contra hne
  have hfull := h.saturated hne
  omega

/-- Every execution has ended, and every ending that can be is settled. -/
def Finished (w : World Payload Data Err) : Prop := w.executing = [] ∧ w.pending = []

theorem exists_next (cfg : Config) (h : ¬Finished w) :
    ∃ b : Action Payload Data Err, b.completes = true ∧ work (step cfg w b) < work w ∧
      (step cfg w b).accepted = w.accepted := by
  by_cases hexecuting : w.executing = []
  · have hpending : 0 < w.pending.length :=
      List.length_pos_iff.mpr fun hpending => h ⟨hexecuting, hpending⟩
    exact ⟨.settle 0, rfl, settle_work hpending⟩
  · exact ⟨.finish 0, rfl, finish_work cfg (List.length_pos_iff.mpr hexecuting)⟩

theorem exists_completion (cfg : Config) (w : World Payload Data Err) :
    ∃ bs : List (Action Payload Data Err), (∀ b ∈ bs, b.completes = true) ∧
      Finished (Library.Machine.run (step cfg) w bs) ∧
      (Library.Machine.run (step cfg) w bs).accepted = w.accepted := by
  induction hn : work w using Nat.strongRecOn generalizing w with
  | _ n ih =>
    by_cases hfinished : Finished w
    · exact ⟨[], List.forall_mem_nil _, hfinished, rfl⟩
    · obtain ⟨b, hb, hwork, haccepted⟩ := exists_next cfg hfinished
      obtain ⟨bs, hbs, hrest, hsame⟩ := ih _ (hn ▸ hwork) (step cfg w b) rfl
      exact ⟨b :: bs, List.forall_mem_cons.mpr ⟨hb, hbs⟩, hrest, hsame.trans haccepted⟩

/-- The agent after any run. -/
structure Orderly (cfg : Config) (w : World Payload Data Err) : Prop where
  active : w.agent.activeTasks = w.executing.length
  bounded : w.agent.activeTasks ≤ cfg.maxConcurrentTasks
  capacity : w.agent.taskQueue.length ≤ cfg.queueCapacity
  saturated : w.agent.taskQueue ≠ [] → w.agent.activeTasks = cfg.maxConcurrentTasks
  order : w.accepted = w.started ++ w.agent.taskQueue
  once : (ids w.accepted).Nodup
  executed : (ids w.executing ++ w.finished.map Prod.fst).Perm (ids w.started)
  own : w.finished ⊆ w.started.map Call.ending
  endings : (w.pending ++ w.settled ++ w.lost).Perm w.finished
  answered : ∀ r ∈ w.pending ++ w.settled, ∃ c ∈ w.started, r = c.ending ∧
    ¬(c.queued = true ∧ Escapes c.request)
  lost : ∀ r ∈ w.lost, ∃ c ∈ w.started, r = c.ending ∧ c.queued = true ∧ Escapes c.request
  numbered : (ids w.accepted ++ w.refused.map Prod.fst).Perm (List.range w.calls)
  refused : ∀ r ∈ w.refused, r.1 ∉ ids w.accepted

/-- Promises are settled once each and with the result of their own execution, and those of all
accepted calls are, once every execution has ended. -/
structure Served (w : World Payload Data Err) : Prop where
  once : (w.settled.map Prod.fst).Nodup
  own : ∀ r ∈ w.settled, ∃ c ∈ w.accepted, ∃ result,
    c.request.result = .ok result ∧ r = (c.id, .ok result)
  all : Finished w → (w.settled.map Prod.fst).Perm (ids w.accepted)

theorem Calls.nodup (h : Calls w) : (ids w.accepted ++ w.refused.map Prod.fst).Nodup :=
  h.numbered.nodup_iff.mpr List.nodup_range

theorem orderly (hs : Slots cfg 0 w) (hc : Calls w) : Orderly cfg w := by
  obtain ⟨honce, -, hdisjoint⟩ := List.nodup_append.mp hc.nodup
  exact ⟨hs.active, hs.bounded, hs.capacity, hs.saturated, hc.order, honce, hc.executed, hc.own,
    hc.endings, hc.answered, hc.lost, hc.numbered,
    fun r hr ha => hdisjoint r.1 ha r.1 (List.mem_map_of_mem hr)
      rfl⟩

theorem Orderly.started_subset (h : Orderly cfg w) : w.started ⊆ w.accepted := by
  rw [h.order]
  exact List.subset_append_left _ _

theorem Orderly.settled_subset (h : Orderly cfg w) : w.settled ⊆ w.finished := by
  refine List.Subset.trans ?_ h.endings.subset
  exact List.Subset.trans (List.subset_append_right _ _) (List.subset_append_left _ _)

theorem Orderly.finished_nodup (h : Orderly cfg w) : (w.finished.map Prod.fst).Nodup := by
  have hids : (ids w.started).Nodup := by
    have honce := h.once
    rw [h.order, ids, List.map_append] at honce
    exact (List.nodup_append.mp honce).1
  exact (List.nodup_append.mp (h.executed.nodup_iff.mpr hids)).2.1

theorem Orderly.all (h : Orderly cfg w) (hs : Slots cfg 0 w) (hlost : w.lost = [])
    (hfinished : Finished w) : (w.settled.map Prod.fst).Perm (ids w.accepted) := by
  obtain ⟨hexecuting, hpending⟩ := hfinished
  have hexecuted := h.executed
  have hendings := h.endings
  rw [hexecuting] at hexecuted
  rw [hpending, hlost, List.append_nil, List.nil_append] at hendings
  rw [h.order, hs.empty hexecuting, List.append_nil]
  exact (hendings.map Prod.fst).trans hexecuted

/-- No call that was queued comes to an execution that rejects. -/
def Quiet (w : World Payload Data Err) : Prop :=
  ∀ c ∈ w.accepted, c.queued = true → ¬Escapes c.request

theorem Quiet.lost (h : Quiet w) (hc : Calls w) : w.lost = [] := by
  rw [List.eq_nil_iff_forall_not_mem]
  intro r hr
  obtain ⟨c, hstarted, -, hqueued, hescapes⟩ := hc.lost r hr
  refine h c ?_ hqueued hescapes
  rw [hc.order]
  exact List.mem_append_left _ hstarted

theorem Orderly.served (h : Orderly cfg w) (hs : Slots cfg 0 w) (hc : Calls w)
    (hquiet : ∀ c ∈ w.accepted, ¬Escapes c.request) : Served w := by
  have hlost : w.lost = [] := Quiet.lost (fun c hc _ => hquiet c hc) hc
  refine ⟨?_, fun r hr => ?_, h.all hs hlost⟩
  · have hall := (h.endings.map Prod.fst).nodup_iff.mpr h.finished_nodup
    rw [List.map_append, List.map_append] at hall
    exact (List.nodup_append.mp (List.nodup_append.mp hall).1).2.1
  · obtain ⟨c, hc, rfl⟩ := List.mem_map.mp (h.own (h.settled_subset hr))
    have haccepted := h.started_subset hc
    refine ⟨c, haccepted, ?_⟩
    cases hresult : c.request.result with
    | ok result => exact ⟨result, rfl, by rw [Call.ending, hresult]⟩
    | error e => exact absurd (result_rejects_iff.mp ⟨e, hresult⟩) (hquiet c haccepted)

theorem Orderly.quiet_of_served (h : Orderly cfg w) (hserved : Served w) (hfinished : Finished w) :
    ∀ c ∈ w.accepted, ¬Escapes c.request := by
  intro c hc hescapes
  obtain ⟨r, hr, hid⟩ := List.mem_map.mp
    ((hserved.all hfinished).mem_iff.mpr (List.mem_map_of_mem (f := Call.id) hc))
  obtain ⟨c', hc', result, hresult, rfl⟩ := hserved.own r hr
  have hsame : c' = c := List.inj_on_of_nodup_map h.once hc' hc hid
  obtain ⟨e, he⟩ := result_rejects_iff.mpr hescapes
  rw [← hsame, hresult] at he
  cases he

/-- After every run tasks and slots are in order, a drained agent stays drained, and every
execution can end. Every accepted call is then served exactly when no execution of theirs
rejects. -/
theorem tasks_served (cfg : Config) (as : List (Action Payload Data Err)) :
    let w := Library.Machine.run (step cfg) idle as
    Orderly cfg w ∧ (Drained w → ∀ bs, Drained (Library.Machine.run (step cfg) w bs)) ∧
      (∃ bs : List (Action Payload Data Err), (∀ b ∈ bs, b.completes = true) ∧
        Finished (Library.Machine.run (step cfg) w bs) ∧
        (Library.Machine.run (step cfg) w bs).accepted = w.accepted) ∧
      ((∀ c ∈ w.accepted, ¬Escapes c.request) → Served w) ∧
      (Finished w → Served w → ∀ c ∈ w.accepted, ¬Escapes c.request) := by
  intro w
  obtain ⟨hs, hc⟩ := run_keeps cfg as
  have horderly := orderly hs hc
  exact ⟨horderly, run_drained hs hc, exists_completion cfg w, horderly.served hs hc,
    fun hfinished hserved => horderly.quiet_of_served hserved hfinished⟩

/-- A query whose tool ends like this, and whose payload cannot be sanitised unless `sane`. -/
def query (tool : Except String String) (sane : Bool) : Request Unit String String where
  task := ⟨.sorobanQuery, ()⟩
  correlationId := "id"
  middlewares := []
  env := fun _ => ⟨fun _ => .ok (), fun _ _ => tool, id, fun _ => .ok (), id, id,
    fun _ => "UNKNOWN_ERROR", fun _ => false, 3, 7, fun _ => .ok (),
    fun _ _ => if sane then .ok () else .error "Maximum call stack size exceeded",
    "2026-01-01T00:00:00.000Z"⟩

/-- The tool of a queued query throws, and its payload, which has a cycle, cannot be sanitised:
every execution has ended, and the promise of its call is never settled. -/
theorem tasks_unserved :
    let w := Library.Machine.run (step ⟨1, 1, Nat.le_refl 1⟩) idle
      [.run (query (.ok "first") true), .run (query (.error "timeout") false), .finish 0, .settle 0,
        .finish 0]
    ids w.accepted = [0, 1] ∧ w.executing.length = 0 ∧ w.pending.length = 0 ∧
      w.settled.map Prod.fst = [0] := by
  decide

end PayFi.Agent.Queue
