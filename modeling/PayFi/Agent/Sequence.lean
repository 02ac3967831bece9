import PayFi.Agent.Queue

namespace PayFi.Agent.Sequence

open Library.Machine Library.Parties Queue Middlewares
open Execution (AgentTask AgentResult Environment)

variable {Payload Data Err : Type}

structure SequenceResult (Data : Type) where
  result : AgentResult Data
  sequenceIndex : ℕ

/-- A call of `run` as its caller knows it. -/
structure Ask (Payload Data Err : Type) where
  id : ℕ
  request : Request Payload Data Err

/-- A call of `runSequence`: where its loop is, and the calls of `run` it has made. It has
returned, it awaits the last of them, or it has thrown there. -/
structure RunSequence (Payload Data Err : Type) where
  world : World Payload Data Err
  index : ℕ
  results : List (SequenceResult Data)
  returned : Bool
  thrown : Option Err
  asked : List (Ask Payload Data Err)
  awaiting : Option (Ask Payload Data Err)

/-- What an execution of a task meets besides the task: its own correlation id, the middlewares
registered when it starts, and all that a pass through the tool comes across. -/
structure Meeting (Payload Data Err : Type) where
  correlationId : String
  middlewares : List (Middleware Payload Data Err)
  env : ℕ → Environment Payload Data Err

def Meeting.request (m : Meeting Payload Data Err) (task : AgentTask Payload) :
    Request Payload Data Err :=
  ⟨task, m.correlationId, m.middlewares, m.env⟩

inductive Action (Payload Data Err : Type) where
  | agent (a : Queue.Action Payload Data Err)
  | submit (m : Meeting Payload Data Err)
  | resume

def answers (w : World Payload Data Err) : List (Ending Data Err) :=
  w.settled ++ w.refused.map fun r => (r.1, .ok r.2)

variable (cfg : Queue.Config) (tasks : List (AgentTask Payload))

def submit (s : RunSequence Payload Data Err) (m : Meeting Payload Data Err) :
    RunSequence Payload Data Err :=
  if s.returned ∨ s.awaiting.isSome then s
  else match tasks[s.index]? with
    | none => { s with returned := true }
    | some task => { s with
      world := Queue.run cfg s.world (m.request task)
      awaiting := some ⟨s.world.calls, m.request task⟩ }

/-- The rest of the loop's body, once the call it awaits is settled: a rejection is thrown on,
and the results so far are gone with it. -/
def resume (s : RunSequence Payload Data Err) : RunSequence Payload Data Err :=
  match s.awaiting, s.thrown with
  | none, _ => s
  | some _, some _ => s
  | some call, none =>
    match (answers s.world).lookup call.id with
    | none => s
    | some (.error err) => { s with thrown := some err }
    | some (.ok result) =>
      let next : RunSequence Payload Data Err := { s with
        results := s.results ++ [⟨result, s.index⟩]
        asked := s.asked ++ [call]
        awaiting := none }
      if result.success then { next with index := s.index + 1 } else { next with returned := true }

/-- The agent, with all that others ask of it, runs on between the steps of the loop. -/
def step (s : RunSequence Payload Data Err) : Action Payload Data Err → RunSequence Payload Data Err
  | .agent a => { s with world := Queue.step cfg s.world a }
  | .submit m => submit cfg tasks s m
  | .resume => resume s

def start (w : World Payload Data Err) : RunSequence Payload Data Err :=
  ⟨w, 0, [], false, none, [], none⟩

/-- The task of a call is in the agent: queued, executing or about to be resolved. -/
def Inside (w : World Payload Data Err) (id : ℕ) : Prop :=
  id ∈ ids w.agent.taskQueue ∨ id ∈ ids w.executing ∨ id ∈ w.pending.map Prod.fst

def Received (w : World Payload Data Err) (c : Ask Payload Data Err) : Prop :=
  (∃ queued, ⟨c.id, c.request, queued⟩ ∈ w.accepted) ∨
    ∃ error, refusal c.id c.request error ∈ w.refused

structure Grows (w w' : World Payload Data Err) : Prop where
  calls : w.calls ≤ w'.calls
  accepted : w.accepted ⊆ w'.accepted
  refused : w.refused ⊆ w'.refused
  settled : w.settled ⊆ w'.settled

variable {cfg} {tasks} {w w' : World Payload Data Err} {s : RunSequence Payload Data Err}

theorem Grows.refl (w : World Payload Data Err) : Grows w w :=
  ⟨Nat.le_refl _, List.Subset.refl _, List.Subset.refl _, List.Subset.refl _⟩

theorem Grows.trans {w'' : World Payload Data Err} (h : Grows w w') (h' : Grows w' w'') :
    Grows w w'' :=
  ⟨Nat.le_trans h.calls h'.calls, List.Subset.trans h.accepted h'.accepted,
    List.Subset.trans h.refused h'.refused, List.Subset.trans h.settled h'.settled⟩

theorem Grows.received (h : Grows w w') {c : Ask Payload Data Err} (hc : Received w c) :
    Received w' c := by
  obtain ⟨queued, haccepted⟩ | ⟨error, hrefused⟩ := hc
  · exact .inl ⟨queued, h.accepted haccepted⟩
  · exact .inr ⟨error, h.refused hrefused⟩

theorem Grows.answers (h : Grows w w') {r : Ending Data Err} (hr : r ∈ answers w) :
    r ∈ Sequence.answers w' := by
  obtain hsettled | hrefused := List.mem_append.mp hr
  · exact List.mem_append_left _ (h.settled hsettled)
  · exact List.mem_append_right _ (List.map_subset _ h.refused hrefused)

theorem dispatchQueued_grows (cfg : Queue.Config) (w : World Payload Data Err) :
    Grows w (dispatchQueued cfg w) := by
  rw [dispatchQueued]
  split
  · exact Grows.refl w
  · split
    · exact Grows.refl w
    · exact ⟨Nat.le_refl _, List.Subset.refl _, List.Subset.refl _, List.Subset.refl _⟩

theorem run_spec (cfg : Queue.Config) (w : World Payload Data Err)
    (q : Request Payload Data Err) :
    Grows w (Queue.run cfg w q) ∧ (Queue.run cfg w q).calls = w.calls + 1 ∧
      Received (Queue.run cfg w q) ⟨w.calls, q⟩ := by
  have hrefuse : ∀ error, Grows w (refuse w q error) := fun error =>
    ⟨Nat.le_succ _, List.Subset.refl _, List.subset_append_left _ _, List.Subset.refl _⟩
  have haccept : ∀ queued, Grows w (accept w ⟨w.calls, q, queued⟩) := fun queued =>
    ⟨Nat.le_succ _, List.subset_append_left _ _, List.Subset.refl _, List.Subset.refl _⟩
  rw [Queue.run]
  split
  · exact ⟨hrefuse _, rfl, .inr ⟨_, List.mem_append_right _ List.mem_cons_self⟩⟩
  · split
    · split
      · refine ⟨(haccept true).trans ?_, rfl, .inl ⟨true, ?_⟩⟩
        · exact ⟨Nat.le_refl _, List.Subset.refl _, List.Subset.refl _, List.Subset.refl _⟩
        · exact List.mem_append_right _ List.mem_cons_self
      · exact ⟨hrefuse _, rfl, .inr ⟨_, List.mem_append_right _ List.mem_cons_self⟩⟩
    · refine ⟨(haccept false).trans ?_, rfl, .inl ⟨false, ?_⟩⟩
      · exact ⟨Nat.le_refl _, List.Subset.refl _, List.Subset.refl _, List.Subset.refl _⟩
      · exact List.mem_append_right _ List.mem_cons_self

theorem finish_grows (cfg : Queue.Config) (w : World Payload Data Err) (k : ℕ) :
    Grows w (finish cfg w k) := by
  rw [finish]
  split
  · exact Grows.refl w
  · rename_i c hc
    obtain ⟨-, -, haccepted, -, hsettled, hrefused, hcalls, -⟩ := leave_agent (release w k) c
    have hleave : Grows w (leave (release w k) c) := ⟨Nat.le_of_eq hcalls.symm,
      haccepted ▸ List.Subset.refl _, hrefused ▸ List.Subset.refl _, hsettled ▸ List.Subset.refl _⟩
    exact hleave.trans (dispatchQueued_grows cfg _)

theorem step_grows (cfg : Queue.Config) (w : World Payload Data Err)
    (a : Queue.Action Payload Data Err) : Grows w (Queue.step cfg w a) := by
  cases a with
  | run q => exact (run_spec cfg w q).1
  | finish k => exact finish_grows cfg w k
  | settle k =>
    simp only [Queue.step, Queue.settle]
    split
    · exact Grows.refl w
    · exact ⟨Nat.le_refl _, List.Subset.refl _, List.Subset.refl _, List.subset_append_left _ _⟩
  | drain => exact ⟨Nat.le_refl _, List.Subset.refl _, List.Subset.refl _, List.Subset.refl _⟩

theorem not_inside (h : Calls w) {r : Ending Data Err} (hr : r ∈ answers w) :
    ¬ Inside w r.1 := by
  obtain ⟨honce, -, hdisjoint⟩ := List.nodup_append.mp h.nodup
  have horder : ids w.accepted = ids w.started ++ ids w.agent.taskQueue := by
    rw [h.order]
    exact List.map_append
  rw [horder] at honce
  obtain ⟨hstarted, -, hqueued⟩ := List.nodup_append.mp honce
  obtain ⟨-, hfinished, hexecuting⟩ := List.nodup_append.mp (h.executed.nodup_iff.mpr hstarted)
  have hmem : ∀ id ∈ w.finished.map Prod.fst, id ∈ ids w.started := fun id hid =>
    h.executed.subset (List.mem_append_right _ hid)
  have hendings := h.endings.map Prod.fst
  rw [List.map_append, List.map_append] at hendings
  obtain ⟨-, -, hpending⟩ := List.nodup_append.mp
    (List.nodup_append.mp (hendings.nodup_iff.mpr hfinished)).1
  obtain hsettled | hrefused := List.mem_append.mp hr
  · have hid := List.mem_map_of_mem (f := Prod.fst) hsettled
    have hfin : r.1 ∈ w.finished.map Prod.fst :=
      hendings.subset (List.mem_append_left _ (List.mem_append_right _ hid))
    rintro (hin | hin | hin)
    · exact hqueued r.1 (hmem r.1 hfin) r.1 hin rfl
    · exact hexecuting r.1 hin r.1 hfin rfl
    · exact hpending r.1 hin r.1 hid rfl
  · obtain ⟨r', hr', rfl⟩ := List.mem_map.mp hrefused
    have hnot : r'.1 ∉ ids w.accepted := fun hin =>
      hdisjoint r'.1 hin r'.1 (List.mem_map_of_mem hr') rfl
    rw [horder] at hnot
    rintro (hin | hin | hin)
    · exact hnot (List.mem_append_right _ hin)
    · exact hnot (List.mem_append_left _ (h.executed.subset (List.mem_append_left _ hin)))
    · have hfin := hendings.subset (List.mem_append_left _ (List.mem_append_left _ hin))
      exact hnot (List.mem_append_left _ (hmem r'.1 hfin))

theorem rejected (h : Calls w) {c : Ask Payload Data Err} (hc : Received w c) {err : Err}
    (hanswer : (c.id, .error err) ∈ answers w) :
    ⟨c.id, c.request, false⟩ ∈ w.accepted ∧ c.request.result = .error err := by
  have hsettled : (c.id, .error err) ∈ w.settled := by
    obtain hsettled | hrefused := List.mem_append.mp hanswer
    · exact hsettled
    · obtain ⟨r, -, hr⟩ := List.mem_map.mp hrefused
      cases (Prod.mk.inj hr).2
  obtain ⟨honce, -, hdisjoint⟩ := List.nodup_append.mp h.nodup
  obtain ⟨c', hstarted, hending, hnot⟩ := h.answered _ (List.mem_append_right _ hsettled)
  have haccepted : c' ∈ w.accepted := by
    rw [h.order]
    exact List.mem_append_left _ hstarted
  obtain ⟨hid, hresult⟩ := Prod.mk.inj hending
  obtain ⟨queued, hown⟩ | ⟨error, hrefused⟩ := hc
  · have hsame : c' = ⟨c.id, c.request, queued⟩ :=
      List.inj_on_of_nodup_map honce haccepted hown hid.symm
    subst hsame
    have hqueued : queued = false := by
      simpa using fun hqueued => hnot ⟨hqueued, result_rejects_iff.mp ⟨err, hresult.symm⟩⟩
    exact ⟨hqueued ▸ hown, hresult.symm⟩
  · exact absurd rfl (hdisjoint c.id (hid ▸ List.mem_map_of_mem haccepted) c.id
      (List.mem_map_of_mem (f := Prod.fst) hrefused))

def submitted (s : RunSequence Payload Data Err) : List (Ask Payload Data Err) :=
  s.asked ++ s.awaiting.toList

def Progress (tasks : List (AgentTask Payload)) (s : RunSequence Payload Data Err) : Prop :=
  if s.returned then s.awaiting = none ∧
    ((∀ r ∈ s.results, r.result.success = true) ∧ s.results.length = tasks.length ∨
      ∃ rs r, s.results = rs ++ [r] ∧ (∀ r ∈ rs, r.result.success = true) ∧
        r.result.success = false)
  else s.index = s.results.length ∧ ∀ r ∈ s.results, r.result.success = true

structure Sound (cfg : Queue.Config) (tasks : List (AgentTask Payload))
    (s : RunSequence Payload Data Err) : Prop where
  slots : Slots cfg 0 s.world
  calls : Calls s.world
  inOrder : (submitted s).map (fun c => c.request.task) <+: tasks
  received : ∀ c ∈ submitted s, Received s.world c
  increasing : ((submitted s).map Ask.id).Pairwise (· < ·)
  numbered : ∀ c ∈ submitted s, c.id < s.world.calls
  answered : List.Forall₂ (fun c r => (c.id, .ok r.result) ∈ answers s.world) s.asked s.results
  indexed : s.results.map SequenceResult.sequenceIndex = List.range s.results.length
  progress : Progress tasks s
  thrown : ∀ err, s.thrown = some err →
    ∃ c, s.awaiting = some c ∧ (c.id, .error err) ∈ answers s.world

theorem start_sound (hs : Slots cfg 0 w) (hc : Calls w) (tasks : List (AgentTask Payload)) :
    Sound cfg tasks (start w) :=
  ⟨hs, hc, List.nil_prefix, by simp [submitted, start], by simp [submitted, start],
    by simp [submitted, start], .nil, rfl, ⟨rfl, by simp [start]⟩, nofun⟩

theorem Sound.grow (h : Sound cfg tasks s) (hs : Slots cfg 0 w) (hc : Calls w)
    (hg : Grows s.world w) : Sound cfg tasks { s with world := w } := by
  refine ⟨hs, hc, h.inOrder, fun c hc => hg.received (h.received c hc), h.increasing,
    fun c hc => Nat.lt_of_lt_of_le (h.numbered c hc) hg.calls, ?_, h.indexed, h.progress,
    fun err herr => ?_⟩
  · exact h.answered.imp fun _ _ hr => hg.answers hr
  · obtain ⟨c, hawaiting, hanswer⟩ := h.thrown err herr
    exact ⟨c, hawaiting, hg.answers hanswer⟩

theorem prefix_concat {α : Type} {xs ys : List α} {y : α} (h : xs <+: ys)
    (hy : ys[xs.length]? = some y) : xs ++ [y] <+: ys := by
  obtain ⟨zs, rfl⟩ := h
  rw [List.getElem?_append_right (Nat.le_refl _), Nat.sub_self] at hy
  obtain ⟨zs, rfl⟩ : ∃ zs', zs = y :: zs' := by
    cases zs with
    | nil => simp at hy
    | cons z zs => exact ⟨zs, by simpa using hy⟩
  exact ⟨zs, by simp⟩

theorem Sound.running (h : Sound cfg tasks s) (hnot : ¬ s.returned = true) :
    s.index = s.results.length ∧ ∀ r ∈ s.results, r.result.success = true := by
  have hprogress := h.progress
  rwa [Progress, if_neg hnot] at hprogress

theorem Sound.waiting (h : Sound cfg tasks s) (hawaiting : s.awaiting = none) (err : Err) :
    s.thrown ≠ some err := by
  intro herr
  obtain ⟨c, hc, -⟩ := h.thrown err herr
  rw [hawaiting] at hc
  cases hc

theorem Sound.ask (h : Sound cfg tasks s) (hnot : ¬ s.returned = true)
    (hawaiting : s.awaiting = none) {task : AgentTask Payload} (htask : tasks[s.index]? = some task)
    (m : Meeting Payload Data Err) :
    Sound cfg tasks { s with
      world := Queue.run cfg s.world (m.request task)
      awaiting := some ⟨s.world.calls, m.request task⟩ } := by
  have hsubmitted : submitted s = s.asked := by simp [submitted, hawaiting]
  have hlength : s.asked.length = s.index := by
    rw [h.answered.length_eq, (h.running hnot).1]
  have hprefix := h.inOrder
  rw [hsubmitted] at hprefix
  obtain ⟨hg, hcalls, hreceived⟩ := run_spec cfg s.world (m.request task)
  obtain ⟨hs, hc⟩ := step_keeps (.run (m.request task)) ⟨h.slots, h.calls⟩
  have hgrown := h.grow hs hc hg
  refine ⟨hs, hc, ?_, ?_, ?_, ?_, hgrown.answered, h.indexed, ?_,
    fun err herr => absurd herr (h.waiting hawaiting err)⟩
  · simp only [submitted, Option.toList_some, List.map_append, List.map_cons, List.map_nil]
    refine prefix_concat hprefix ?_
    rw [List.length_map, hlength]
    exact htask
  · refine forall_mem_concat (fun c hcall => hg.received (h.received c ?_)) hreceived
    rwa [hsubmitted]
  · simp only [submitted, Option.toList_some, List.map_append, List.map_cons, List.map_nil]
    refine pairwise_concat (hsubmitted ▸ h.increasing) fun id hid => ?_
    obtain ⟨c, hcall, rfl⟩ := List.mem_map.mp hid
    exact h.numbered c (hsubmitted ▸ hcall)
  · refine forall_mem_concat (fun c hcall => ?_) ?_
    · have hlt := h.numbered c (hsubmitted ▸ hcall)
      simp only [hcalls]
      omega
    · simp only [hcalls]
      omega
  · rw [Progress, if_neg hnot]
    exact h.running hnot

theorem Sound.submit (h : Sound cfg tasks s) (m : Meeting Payload Data Err) :
    Sound cfg tasks (submit cfg tasks s m) := by
  rw [Sequence.submit]
  split
  · exact h
  · rename_i hopen
    obtain ⟨hnot, hnone⟩ := not_or.mp hopen
    have hawaiting : s.awaiting = none := by simpa using hnone
    split
    · rename_i hend
      obtain ⟨hindex, hsuccess⟩ := h.running hnot
      -- the results are as many as the calls, and these no more than the tasks
      have hle := h.inOrder.length_le
      rw [submitted, hawaiting, Option.toList_none, List.append_nil, List.length_map,
        h.answered.length_eq] at hle
      have hge := List.getElem?_eq_none_iff.mp hend
      refine ⟨h.slots, h.calls, h.inOrder, h.received, h.increasing, h.numbered, h.answered,
        h.indexed, ?_, h.thrown⟩
      rw [Progress, if_pos rfl]
      refine ⟨hawaiting, .inl ⟨hsuccess, ?_⟩⟩
      simp only
      omega
    · rename_i task htask
      exact h.ask hnot hawaiting htask m

theorem lookup_mem {β : Type} {xs : List (ℕ × β)} {id : ℕ} {b : β} (h : xs.lookup id = some b) :
    (id, b) ∈ xs := by
  obtain ⟨ys, zs, hxs, -⟩ := List.lookup_eq_some_iff.mp h
  rw [hxs]
  exact List.mem_append_right _ List.mem_cons_self

theorem Sound.answer (h : Sound cfg tasks s) {call : Ask Payload Data Err}
    {result : AgentResult Data} (hawaiting : s.awaiting = some call)
    (hresult : (call.id, .ok result) ∈ answers s.world) (hthrown : s.thrown = none)
    (hindex : s.index = s.results.length) (index : ℕ) (returned : Bool) :
    let next : RunSequence Payload Data Err := { s with
      results := s.results ++ [⟨result, s.index⟩]
      asked := s.asked ++ [call]
      awaiting := none
      index := index
      returned := returned }
    Progress tasks next → Sound cfg tasks next := by
  intro next hnext
  have hsame : submitted next = submitted s := by simp [next, submitted, hawaiting]
  have hanswered : List.Forall₂ (fun (c : Ask Payload Data Err) (r : SequenceResult Data) =>
      (c.id, .ok r.result) ∈ answers s.world) next.asked next.results :=
    List.rel_append h.answered (.cons hresult .nil)
  refine ⟨h.slots, h.calls, hsame ▸ h.inOrder, hsame ▸ h.received, hsame ▸ h.increasing,
    hsame ▸ h.numbered, hanswered, ?_, hnext, fun err herr => ?_⟩
  · simp only [next, List.map_append, h.indexed, List.length_append, List.length_singleton,
      List.range_succ, hindex, List.map_cons, List.map_nil]
  · simp only [next, hthrown] at herr
    cases herr

theorem Sound.throw (h : Sound cfg tasks s) {call : Ask Payload Data Err} {err : Err}
    (hawaiting : s.awaiting = some call) (hanswer : (call.id, .error err) ∈ answers s.world) :
    Sound cfg tasks { s with thrown := some err } := by
  refine ⟨h.slots, h.calls, h.inOrder, h.received, h.increasing, h.numbered, h.answered, h.indexed,
    h.progress, fun err' herr => ?_⟩
  cases herr
  exact ⟨call, hawaiting, hanswer⟩

theorem Sound.not_returned (h : Sound cfg tasks s) {call : Ask Payload Data Err}
    (hawaiting : s.awaiting = some call) : ¬ s.returned = true := by
  intro hreturned
  have hprogress := h.progress
  rw [Progress, if_pos hreturned, hawaiting] at hprogress
  cases hprogress.1

theorem Sound.resume (h : Sound cfg tasks s) : Sound cfg tasks (resume s) := by
  rw [Sequence.resume]
  split
  · exact h
  · exact h
  · rename_i call hawaiting hthrown
    split
    · exact h
    · rename_i err herr
      exact h.throw hawaiting (lookup_mem herr)
    · rename_i result hresult
      have hnot := h.not_returned hawaiting
      obtain ⟨hindex, hsuccess⟩ := h.running hnot
      have hanswer := h.answer hawaiting (lookup_mem hresult) hthrown hindex
      split
      · rename_i hok
        apply hanswer
        rw [Progress, if_neg hnot]
        refine ⟨by simp [hindex], ?_⟩
        exact forall_mem_concat hsuccess hok
      · rename_i hfailed
        apply hanswer
        rw [Progress, if_pos rfl]
        exact ⟨rfl, .inr ⟨_, _, rfl, hsuccess, by simpa using hfailed⟩⟩

theorem step_sound (h : Sound cfg tasks s) (a : Action Payload Data Err) :
    Sound cfg tasks (step cfg tasks s a) := by
  cases a with
  | agent a =>
    obtain ⟨hs, hc⟩ := step_keeps a ⟨h.slots, h.calls⟩
    exact h.grow hs hc (step_grows cfg s.world a)
  | submit m => exact h.submit m
  | resume => exact h.resume

theorem run_sound (h : Sound cfg tasks s) (as : List (Action Payload Data Err)) :
    Sound cfg tasks (run (step cfg tasks) s as) :=
  run_invariant (I := Sound cfg tasks) h (fun _ a h => step_sound h a) as

/-- A sequence at any moment of any run. -/
structure InOrder (tasks : List (AgentTask Payload)) (s : RunSequence Payload Data Err) : Prop where
  inOrder : (submitted s).map (fun c => c.request.task) <+: tasks
  received : ∀ c ∈ submitted s, Received s.world c
  once : ((submitted s).map Ask.id).Nodup
  alone : ∀ c ∈ submitted s, Inside s.world c.id → s.awaiting = some c
  answered : List.Forall₂ (fun c r => (c.id, .ok r.result) ∈ answers s.world) s.asked s.results
  indexed : s.results.map SequenceResult.sequenceIndex = List.range s.results.length
  stopped : ∀ i r, s.results[i]? = some r → r.result.success = false →
    s.returned = true ∧ (submitted s).length = i + 1
  complete : s.returned = true → s.awaiting = none ∧
    ((∀ r ∈ s.results, r.result.success = true) ∧ s.results.length = tasks.length ∨
      ∃ r ∈ s.results.getLast?, r.result.success = false)
  thrown : ∀ err, s.thrown = some err → s.returned = false ∧ ∃ c, s.awaiting = some c ∧
    (c.id, .error err) ∈ answers s.world ∧ ⟨c.id, c.request, false⟩ ∈ s.world.accepted ∧
      c.request.result = .error err

theorem Sound.alone (h : Sound cfg tasks s) {c : Ask Payload Data Err} (hc : c ∈ submitted s)
    (hinside : Inside s.world c.id) : s.awaiting = some c := by
  obtain hasked | hawaiting := List.mem_append.mp hc
  · obtain ⟨i, hi⟩ := List.mem_iff_getElem?.mp hasked
    obtain ⟨hlen, rfl⟩ := List.getElem?_eq_some_iff.mp hi
    have hanswer := h.answered.get hlen (h.answered.length_eq ▸ hlen)
    exact absurd hinside (not_inside h.calls hanswer)
  · exact Option.mem_toList.mp hawaiting

theorem Sound.stopped (h : Sound cfg tasks s) {i : ℕ} {r : SequenceResult Data}
    (hr : s.results[i]? = some r) (hfailed : r.result.success = false) :
    s.returned = true ∧ (submitted s).length = i + 1 := by
  have hmem := List.mem_of_getElem? hr
  have hprogress := h.progress
  rw [Progress] at hprogress
  split at hprogress
  · rename_i hreturned
    obtain ⟨hawaiting, ⟨hsuccess, -⟩ | ⟨rs, last, hresults, hsuccess, -⟩⟩ := hprogress
    · rw [hsuccess r hmem] at hfailed
      cases hfailed
    · refine ⟨hreturned, ?_⟩
      have hlength := h.answered.length_eq
      rw [hresults, List.length_append, List.length_singleton] at hlength
      rw [submitted, hawaiting, Option.toList_none, List.append_nil, hlength]
      -- every result before the last is a success
      by_contra hne
      have hi : i < s.results.length := (List.getElem?_eq_some_iff.mp hr).1
      rw [hresults, List.length_append, List.length_singleton] at hi
      have hlt : i < rs.length := by omega
      rw [hresults, List.getElem?_append_left hlt] at hr
      rw [hsuccess r (List.mem_of_getElem? hr)] at hfailed
      cases hfailed
  · rw [hprogress.2 r hmem] at hfailed
    cases hfailed

theorem Sound.inOrder_of (h : Sound cfg tasks s) : InOrder tasks s := by
  refine ⟨h.inOrder, h.received, ?_, fun c hc => h.alone hc, h.answered, h.indexed,
    fun i r => h.stopped, fun hreturned => ?_, fun err herr => ?_⟩
  · exact h.increasing.imp fun hlt => Nat.ne_of_lt hlt
  · have hprogress := h.progress
    rw [Progress, if_pos hreturned] at hprogress
    obtain ⟨hawaiting, hall | ⟨rs, r, hresults, -, hfailed⟩⟩ := hprogress
    · exact ⟨hawaiting, .inl hall⟩
    · exact ⟨hawaiting, .inr ⟨r, by simp [hresults], hfailed⟩⟩
  · obtain ⟨c, hawaiting, hanswer⟩ := h.thrown err herr
    have hmem : c ∈ submitted s := List.mem_append_right _ (Option.mem_toList.mpr hawaiting)
    exact ⟨by simpa using h.not_returned hawaiting, c, hawaiting, hanswer,
      rejected h.calls (h.received c hmem) hanswer⟩

/-- Whatever else is asked of the agent and in whatever order things happen, a sequence
has one task at a time in the agent, and none after the first that fails; it throws only what
the execution of its own last task, which had not been queued, has thrown. -/
theorem sequence_in_order (cfg : Queue.Config) (before : List (Queue.Action Payload Data Err))
    (tasks : List (AgentTask Payload)) (as : List (Action Payload Data Err)) :
    InOrder tasks
      (run (step cfg tasks) (start (Library.Machine.run (Queue.step cfg) idle before)) as) := by
  obtain ⟨hs, hc⟩ := run_keeps cfg before
  exact (run_sound (start_sound hs hc tasks) as).inOrder_of

def Action.completes : Action Payload Data Err → Bool
  | .agent b => b.completes
  | .submit _ | .resume => true

theorem run_agent (bs : List (Queue.Action Payload Data Err)) :
    run (step cfg tasks) s (bs.map .agent) =
      { s with world := Library.Machine.run (Queue.step cfg) s.world bs } := by
  induction bs generalizing s with
  | nil => rfl
  | cons b bs ih => exact ih

theorem answered_of_finished (hs : Slots cfg 0 w) (hc : Calls w) (hfinished : Finished w)
    (hlost : w.lost = []) {c : Ask Payload Data Err} (h : Received w c) :
    ∃ out, (answers w).lookup c.id = some out := by
  have hid : c.id ∈ (answers w).map Prod.fst := by
    rw [answers, List.map_append]
    obtain ⟨queued, haccepted⟩ | ⟨error, hrefused⟩ := h
    · refine List.mem_append_left _ (((orderly hs hc).all hs hlost hfinished).symm.subset ?_)
      exact List.mem_map_of_mem haccepted
    · refine List.mem_append_right _ ?_
      rw [List.map_map]
      exact List.mem_map_of_mem hrefused
  obtain ⟨r, hr, hfst⟩ := List.mem_map.mp hid
  cases hlookup : (answers w).lookup c.id with
  | some out => exact ⟨out, rfl⟩
  | none =>
    have hnone := List.lookup_eq_none_iff.mp hlookup r hr
    simp [hfst] at hnone

theorem unanswered (h : Calls w) {id : ℕ} {q : Request Payload Data Err}
    (haccepted : ⟨id, q, true⟩ ∈ w.accepted) (hescapes : Escapes q) :
    (answers w).lookup id = none := by
  rw [List.lookup_eq_none_iff]
  intro r hr
  rw [bne_iff_ne]
  rintro rfl
  obtain ⟨honce, -, hdisjoint⟩ := List.nodup_append.mp h.nodup
  obtain hsettled | hrefused := List.mem_append.mp hr
  · obtain ⟨c, hstarted, hending, hnot⟩ := h.answered _ (List.mem_append_right _ hsettled)
    have hc : c ∈ w.accepted := by
      rw [h.order]
      exact List.mem_append_left _ hstarted
    have hsame : c = ⟨r.1, q, true⟩ := by
      refine List.inj_on_of_nodup_map honce hc haccepted ?_
      rw [hending]
      rfl
    subst hsame
    exact hnot ⟨rfl, hescapes⟩
  · obtain ⟨r', hr', rfl⟩ := List.mem_map.mp hrefused
    exact hdisjoint r'.1 (List.mem_map_of_mem (f := Call.id) haccepted) r'.1
      (List.mem_map_of_mem hr') rfl

/-- The sequence has returned its results, or has thrown. -/
def Ended (s : RunSequence Payload Data Err) : Prop :=
  s.returned = true ∨ ∃ err, s.thrown = some err

/-- The calls made between two states meet what they are said to meet. -/
def Meets (meets : ℕ → Meeting Payload Data Err) (s u : RunSequence Payload Data Err) : Prop :=
  ∀ i c, (submitted u)[i]? = some c →
    (submitted s)[i]? = some c ∨ c.request = (meets i).request c.request.task

variable {meets : ℕ → Meeting Payload Data Err}

theorem Meets.of_eq {u : RunSequence Payload Data Err} (h : submitted u = submitted s) :
    Meets meets s u :=
  fun _ _ hc => .inl (h ▸ hc)

theorem Meets.trans {u v : RunSequence Payload Data Err} (h : Meets meets s u)
    (h' : Meets meets u v) : Meets meets s v := by
  intro i c hc
  obtain hc | hmeets := h' i c hc
  · exact h i c hc
  · exact .inr hmeets

def remaining (tasks : List (AgentTask Payload)) (s : RunSequence Payload Data Err) : ℕ :=
  tasks.length - s.results.length

theorem exists_settled (cfg : Queue.Config) (tasks : List (AgentTask Payload))
    (s : RunSequence Payload Data Err) :
    ∃ w, ∃ bs : List (Action Payload Data Err), (∀ b ∈ bs, b.completes = true) ∧
      run (step cfg tasks) s bs = { s with world := w } ∧ Finished w ∧
        w.accepted = s.world.accepted := by
  obtain ⟨bs, hbs, hfinished, haccepted⟩ := exists_completion cfg s.world
  exact ⟨_, bs.map .agent, List.forall_mem_map.mpr hbs, run_agent bs, hfinished, haccepted⟩

theorem resume_remaining (h : Sound cfg tasks s) (hquiet : Quiet s.world)
    (hfinished : Finished s.world) {c : Ask Payload Data Err} (hc : s.awaiting = some c)
    (hthrown : s.thrown = none) :
    (resume s).world = s.world ∧ submitted (resume s) = submitted s ∧
      (Ended (resume s) ∨ remaining tasks (resume s) < remaining tasks s) := by
  have hmem : c ∈ submitted s := List.mem_append_right _ (Option.mem_toList.mpr hc)
  obtain ⟨out, hout⟩ := answered_of_finished h.slots h.calls hfinished (hquiet.lost h.calls)
    (h.received c hmem)
  cases out with
  | error err =>
    simp only [resume, hc, hthrown, hout]
    exact ⟨trivial, by simp [submitted, hc], .inl (.inr ⟨err, rfl⟩)⟩
  | ok result =>
    have hlength := h.inOrder.length_le
    simp only [submitted, hc, Option.toList_some, List.length_map, List.length_append,
      List.length_singleton, h.answered.length_eq] at hlength
    have hnext : (resume s).world = s.world ∧ submitted (resume s) = submitted s ∧
        (resume s).results = s.results ++ [⟨result, s.index⟩] := by
      simp only [resume, hc, hthrown, hout]
      split
      · exact ⟨rfl, by simp [submitted, hc], rfl⟩
      · exact ⟨rfl, by simp [submitted, hc], rfl⟩
    refine ⟨hnext.1, hnext.2.1, .inr ?_⟩
    rw [remaining, remaining, hnext.2.2, List.length_append, List.length_singleton]
    omega

theorem run_quiet (hs : Slots cfg 0 w) (hquiet : Quiet w) (hfinished : Finished w)
    (q : Request Payload Data Err) : Quiet (Queue.run cfg w q) := by
  have hactive := hs.active
  have hconcurrent := cfg.concurrent
  rw [hfinished.1, List.length_nil] at hactive
  rw [Queue.run]
  split
  · exact hquiet
  · rw [if_neg (by omega)]
    refine forall_mem_concat hquiet fun hqueued => ?_
    cases hqueued

theorem submit_spec (h : Sound cfg tasks s) (hquiet : Quiet s.world) (hfinished : Finished s.world)
    (hawaiting : s.awaiting = none) (meets : ℕ → Meeting Payload Data Err) :
    let u := submit cfg tasks s (meets s.index)
    Quiet u.world ∧ u.results = s.results ∧ u.thrown = s.thrown ∧ Meets meets s u ∧
      (u.returned = true ∨ ∃ c, u.awaiting = some c) := by
  intro u
  have hu : u = submit cfg tasks s (meets s.index) := rfl
  by_cases hreturned : s.returned = true
  · rw [submit, if_pos (.inl hreturned)] at hu
    rw [hu]
    exact ⟨hquiet, rfl, rfl, Meets.of_eq rfl, .inl hreturned⟩
  · rw [submit, if_neg (by simp [hreturned, hawaiting])] at hu
    split at hu
    · rw [hu]
      exact ⟨hquiet, rfl, rfl, Meets.of_eq rfl, .inl rfl⟩
    · rename_i task htask
      rw [hu]
      refine ⟨run_quiet h.slots hquiet hfinished _, rfl, rfl, fun i c hc => ?_, .inr ⟨_, rfl⟩⟩
      have hlength : (submitted s).length = s.index := by
        rw [(h.running hreturned).1, ← h.answered.length_eq, submitted, hawaiting,
          Option.toList_none, List.append_nil]
      have hsubmitted : s.asked = submitted s := by simp [submitted, hawaiting]
      rw [submitted, hsubmitted, Option.toList_some] at hc
      obtain hi | hi := Nat.lt_or_ge i (submitted s).length
      · rw [List.getElem?_append_left hi] at hc
        exact .inl hc
      · rw [List.getElem?_append_right hi] at hc
        obtain ⟨hlt, rfl⟩ := List.getElem?_eq_some_iff.mp hc
        rw [List.length_singleton] at hlt
        have hindex : i = s.index := by omega
        subst hindex
        refine .inr ?_
        simp [Meeting.request]

theorem exists_answer (meets : ℕ → Meeting Payload Data Err) (h : Sound cfg tasks s)
    (hquiet : Quiet s.world) {c : Ask Payload Data Err} (hc : s.awaiting = some c)
    (hthrown : s.thrown = none) :
    ∃ bs : List (Action Payload Data Err), (∀ b ∈ bs, b.completes = true) ∧
      let u := run (step cfg tasks) s bs
      Quiet u.world ∧ Meets meets s u ∧ (Ended u ∨ remaining tasks u < remaining tasks s) := by
  obtain ⟨w, bs, hbs, hrun, hfinished, haccepted⟩ := exists_settled cfg tasks s
  have hsettled : Sound cfg tasks { s with world := w } := hrun ▸ run_sound h bs
  have hquiet' : Quiet w := by
    rw [Quiet, haccepted]
    exact hquiet
  obtain ⟨hworld, hsubmitted, hnext⟩ := resume_remaining hsettled hquiet' hfinished hc hthrown
  refine ⟨bs ++ [.resume], ?_, ?_⟩
  · exact List.forall_mem_append.mpr ⟨hbs, List.forall_mem_singleton.mpr rfl⟩
  · rw [run_append, hrun]
    exact ⟨hworld.symm ▸ hquiet', Meets.of_eq hsubmitted, hnext⟩

theorem exists_round (meets : ℕ → Meeting Payload Data Err) (h : Sound cfg tasks s)
    (hquiet : Quiet s.world) (hopen : ¬Ended s) :
    ∃ bs : List (Action Payload Data Err), (∀ b ∈ bs, b.completes = true) ∧
      let u := run (step cfg tasks) s bs
      Quiet u.world ∧ Meets meets s u ∧ (Ended u ∨ remaining tasks u < remaining tasks s) := by
  have hthrown : s.thrown = none :=
    Option.eq_none_iff_forall_ne_some.mpr fun err herr => hopen (.inr ⟨err, herr⟩)
  cases hawaiting : s.awaiting with
  | some c => exact exists_answer meets h hquiet hawaiting hthrown
  | none =>
    obtain ⟨w, bs, hbs, hrun, hfinished, haccepted⟩ := exists_settled cfg tasks s
    have hsettled : Sound cfg tasks { s with world := w } := hrun ▸ run_sound h bs
    have hquiet' : Quiet w := by
      rw [Quiet, haccepted]
      exact hquiet
    obtain ⟨hquiet₁, hresults, hsame, hmeets, hnext⟩ :=
      submit_spec hsettled hquiet' hfinished hawaiting meets
    have hfirst : ∀ b ∈ bs ++ [Action.submit (meets s.index)], b.completes = true :=
      List.forall_mem_append.mpr ⟨hbs, List.forall_mem_singleton.mpr rfl⟩
    have hrun₁ : run (step cfg tasks) s (bs ++ [.submit (meets s.index)]) =
        submit cfg tasks { s with world := w } (meets s.index) := by
      rw [run_append, hrun]
      rfl
    obtain hreturned | ⟨c, hc⟩ := hnext
    · refine ⟨_, hfirst, ?_⟩
      rw [hrun₁]
      exact ⟨hquiet₁, hmeets, .inl (.inl hreturned)⟩
    · obtain ⟨cs, hcs, hquiet₂, hmeets₂, hless⟩ :=
        exists_answer meets (hsettled.submit _) hquiet₁ hc (hsame.trans hthrown)
      refine ⟨_, List.forall_mem_append.mpr ⟨hfirst, hcs⟩, ?_⟩
      rw [run_append, hrun₁]
      have hremaining := congrArg (fun rs => tasks.length - List.length rs) hresults
      exact ⟨hquiet₂, hmeets.trans hmeets₂, hless.imp_right (Nat.lt_of_lt_of_eq · hremaining)⟩

theorem exists_return (meets : ℕ → Meeting Payload Data Err) (n : ℕ)
    {s : RunSequence Payload Data Err} (h : Sound cfg tasks s) (hquiet : Quiet s.world)
    (hn : remaining tasks s = n) :
    ∃ bs : List (Action Payload Data Err), (∀ b ∈ bs, b.completes = true) ∧
      let u := run (step cfg tasks) s bs
      Ended u ∧ Quiet u.world ∧ Meets meets s u := by
  induction n using Nat.strongRecOn generalizing s with
  | ind n ih =>
    by_cases hended : Ended s
    · exact ⟨[], List.forall_mem_nil _, hended, hquiet, Meets.of_eq rfl⟩
    · obtain ⟨bs, hbs, hquiet', hmeets, hended | hless⟩ := exists_round meets h hquiet hended
      · exact ⟨bs, hbs, hended, hquiet', hmeets⟩
      · obtain ⟨cs, hcs, hrest⟩ := ih _ (hn ▸ hless) (run_sound h bs) hquiet' rfl
        refine ⟨bs ++ cs, List.forall_mem_append.mpr ⟨hbs, hcs⟩, ?_⟩
        rw [run_append]
        exact ⟨hrest.1, hrest.2.1, hmeets.trans hrest.2.2⟩

theorem submit_of_awaiting {c : Ask Payload Data Err} (hc : s.awaiting = some c)
    (m : Meeting Payload Data Err) : submit cfg tasks s m = s := by
  rw [submit, if_pos (.inr (by rw [hc, Option.isSome_some]))]

theorem resume_of_unanswered {c : Ask Payload Data Err} (hc : s.awaiting = some c)
    (hnone : (answers s.world).lookup c.id = none) : resume s = s := by
  cases hthrown : s.thrown with
  | none => simp only [resume, hc, hthrown, hnone]
  | some err => simp only [resume, hc, hthrown]

/-- The sequence awaits a call that was accepted into the queue. -/
def Waits (cfg : Queue.Config) (tasks : List (AgentTask Payload)) (c : Ask Payload Data Err)
    (s : RunSequence Payload Data Err) : Prop :=
  Sound cfg tasks s ∧ s.awaiting = some c ∧ ⟨c.id, c.request, true⟩ ∈ s.world.accepted

theorem step_waits {c : Ask Payload Data Err} (h : Waits cfg tasks c s)
    (hescapes : Escapes c.request) (b : Action Payload Data Err) :
    Waits cfg tasks c (step cfg tasks s b) := by
  obtain ⟨hsound, hawaiting, hmem⟩ := h
  refine ⟨step_sound hsound b, ?_⟩
  cases b with
  | agent a => exact ⟨hawaiting, (step_grows cfg s.world a).accepted hmem⟩
  | submit m =>
    rw [step, submit_of_awaiting hawaiting]
    exact ⟨hawaiting, hmem⟩
  | resume =>
    rw [step, resume_of_unanswered hawaiting (unanswered hsound.calls hmem hescapes)]
    exact ⟨hawaiting, hmem⟩

theorem run_stuck (h : Sound cfg tasks s) {c : Ask Payload Data Err} (hc : s.awaiting = some c)
    (haccepted : ⟨c.id, c.request, true⟩ ∈ s.world.accepted) (hescapes : Escapes c.request)
    (bs : List (Action Payload Data Err)) : ¬Ended (run (step cfg tasks) s bs) := by
  obtain ⟨hsound, hawaiting, hmem⟩ := run_invariant (I := Waits cfg tasks c) ⟨h, hc, haccepted⟩
    (fun u b hu => step_waits hu hescapes b) bs
  rintro (hreturned | ⟨err, herr⟩)
  · exact hsound.not_returned hawaiting hreturned
  · obtain ⟨c', hc', hanswer⟩ := hsound.thrown err herr
    cases hawaiting.symm.trans hc'
    have hnone := List.lookup_eq_none_iff.mp (unanswered hsound.calls hmem hescapes) _ hanswer
    simp at hnone

/-- As long as no call that was queued comes to an execution that rejects, a sequence can come to
its end, whatever its further calls meet. Where it is its own call that was queued and rejects, it
never does. -/
theorem sequence_returns (cfg : Queue.Config) (before : List (Queue.Action Payload Data Err))
    (tasks : List (AgentTask Payload)) (as : List (Action Payload Data Err)) :
    let s := run (step cfg tasks) (start (Library.Machine.run (Queue.step cfg) idle before)) as
    (Quiet s.world → ∀ meets, ∃ bs : List (Action Payload Data Err),
      (∀ b ∈ bs, b.completes = true) ∧
        let u := run (step cfg tasks) s bs
        Ended u ∧ u.world.lost = [] ∧ Meets meets s u) ∧
      ∀ c, s.awaiting = some c → ⟨c.id, c.request, true⟩ ∈ s.world.accepted → Escapes c.request →
        ∀ bs, ¬Ended (run (step cfg tasks) s bs) := by
  intro s
  obtain ⟨hs, hc⟩ := run_keeps cfg before
  have h : Sound cfg tasks s := run_sound (start_sound hs hc tasks) as
  refine ⟨fun hquiet meets => ?_, fun c hawaiting haccepted hescapes bs => ?_⟩
  · obtain ⟨bs, hbs, hended, hquiet', hmeets⟩ := exists_return meets _ h hquiet rfl
    exact ⟨bs, hbs, hended, hquiet'.lost (run_sound h bs).calls, hmeets⟩
  · exact run_stuck h hawaiting haccepted hescapes bs

end PayFi.Agent.Sequence
