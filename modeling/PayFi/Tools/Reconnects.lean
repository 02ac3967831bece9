import PayFi.Tools.Subscription

namespace PayFi.Tools.Reconnects

open Library.Machine Subscription
open EventListener (ContractEvent Options Request Response truthy)

/-- The last `n` polls have each sent a request that was rejected. -/
def LastRejected (n : ℕ) (outcomes : List Outcome) : Prop :=
  List.replicate n .rejected <:+ outcomes

instance (n : ℕ) (outcomes : List Outcome) : Decidable (LastRejected n outcomes) :=
  inferInstanceAs (Decidable (_ <:+ _))

def GaveUp (s : Listener) : Prop := ∃ err, .error err ∈ s.journal

/-- A poll does not come upon the rejection of an earlier start ledger request, and `onEvent`
does not throw. -/
def isFresh (u : Transition Listener Action) : Bool :=
  match u.action, u.before.poll, u.before.startLedger with
  | .latestLedger _, .startLedger, some (.error _) => false
  | .returned (.error _), .onEvent _ _, _ => false
  | _, _, _ => true

/-- As many polls as have been counted were rejected, and the last of them was the end. -/
structure Counted (o : Options) (s : Listener) : Prop where
  run : LastRejected s.reconnectAttempts s.outcomes
  ended : GaveUp s → s.poll = .idle ∧ s.timer = false ∧
    o.maxReconnectAttempts ≤ s.reconnectAttempts
  delivering : ∀ rest r, s.poll = .onEvent rest r → s.reconnectAttempts = 0

variable {o : Options} {s : Listener}

theorem LastRejected.zero (outcomes : List Outcome) : LastRejected 0 outcomes :=
  List.nil_suffix

theorem LastRejected.succ {n : ℕ} {outcomes : List Outcome} (h : LastRejected n outcomes) :
    LastRejected (n + 1) (outcomes ++ [.rejected]) := by
  obtain ⟨earlier, rfl⟩ := h
  exact ⟨earlier, by rw [List.append_assoc, List.replicate_succ']⟩

theorem LastRejected.mono {m n : ℕ} {outcomes : List Outcome} (h : LastRejected n outcomes)
    (hmn : m ≤ n) : LastRejected m outcomes := by
  apply List.IsSuffix.trans _ h
  refine ⟨List.replicate (n - m) .rejected, ?_⟩
  rw [List.replicate_append_replicate, Nat.sub_add_cancel hmn]

theorem gaveUp_log {x : Event} (hx : ∀ err, x ≠ .error err) : GaveUp (s.log x) ↔ GaveUp s := by
  constructor
  · rintro ⟨err, herr⟩
    obtain herr | herr := List.mem_append.mp herr
    · exact ⟨err, herr⟩
    · exact absurd (List.mem_singleton.mp herr).symm (hx err)
  · rintro ⟨err, herr⟩
    exact ⟨err, List.mem_append_left _ herr⟩

theorem Counted.not_gaveUp (h : Counted o s) (hpoll : s.poll ≠ .idle) : ¬ GaveUp s :=
  fun hover => hpoll (h.ended hover).1

theorem ask_counted (h : Counted o s) (hnot : ¬ GaveUp s) (r : Request) : Counted o (ask s r) := by
  refine ⟨h.run, fun hover => ?_, fun rest r' hpoll => by cases hpoll⟩
  exact absurd ((gaveUp_log (by simp)).mp hover) hnot

theorem start_counted (h : Counted o s) (hnot : ¬ GaveUp s) : Counted o (start s) := by
  have h' : Counted o { s with timer := false } :=
    ⟨h.run, fun hover => absurd hover hnot, h.delivering⟩
  rw [start]
  split
  · exact ask_counted h' hnot _
  · dsimp only
    split
    · refine ⟨h.run, fun hover => ?_, fun rest r hpoll => by cases hpoll⟩
      exact absurd ((gaveUp_log (by simp)).mp hover) hnot
    · exact ⟨h.run, fun hover => absurd hover hnot, fun rest r hpoll => by cases hpoll⟩

theorem failed_counted (h : Counted o s) (hnot : ¬ GaveUp s) (err : String) :
    Counted o (failed o s .rejected err) := by
  rw [failed]
  dsimp only
  split
  · rename_i hmax
    exact ⟨h.run.succ, fun _ => ⟨rfl, rfl, hmax⟩, fun rest r hpoll => by cases hpoll⟩
  · exact ⟨h.run.succ, fun hover => absurd hover hnot, fun rest r hpoll => by cases hpoll⟩

theorem settled_counted (h : Counted o s) (hnot : ¬ GaveUp s)
    (hfresh : ∀ err, s.startLedger ≠ some (.error err)) (latest : Except String ℕ) :
    Counted o (settled o s latest) := by
  rw [settled]
  split
  · exact ask_counted h hnot _
  · rename_i err herr
    exact absurd herr (hfresh err)
  · have h' : Counted o { s with startLedger := some latest } := ⟨h.run, h.ended, h.delivering⟩
    dsimp only
    split
    · exact ask_counted h' hnot _
    · exact failed_counted h' hnot _

theorem deliver_counted (hzero : s.reconnectAttempts = 0) (hnot : ¬ GaveUp s)
    (response : Response) (rest : List ContractEvent) :
    Counted o (deliver o s response rest) := by
  have hrun : ∀ outcomes, LastRejected s.reconnectAttempts outcomes := by
    rw [hzero]
    exact LastRejected.zero
  by_cases hrest : Unmatched o rest
  · rw [deliver_of_unmatched hrest]
    exact ⟨hrun _, fun hover => absurd hover hnot, fun rest r hpoll => by cases hpoll⟩
  · obtain ⟨e, rest', hdeliver⟩ := @deliver_of_matched o s response rest hrest
    rw [hdeliver]
    refine ⟨hrun _, fun hover => ?_, fun _ _ _ => hzero⟩
    exact absurd ((gaveUp_log (by simp)).mp hover) hnot

theorem step_counted (h : Counted o s) (a : Action)
    (hfresh : isFresh ⟨s, a, step o s a⟩ = true) : Counted o (step o s a) := by
  have heffect := step_effect o s a
  generalize step o s a = t at heffect hfresh ⊢
  cases heffect with
  | ignored => exact h
  | started htimer =>
    apply start_counted h
    intro hover
    rw [(h.ended hover).2.1] at htimer
    cases htimer
  | settled hpoll latest =>
    apply settled_counted h (h.not_gaveUp (by simp [hpoll]))
    intro err herr
    simp [isFresh, hpoll, herr] at hfresh
  | received hpoll response =>
    have hnot := h.not_gaveUp (by simp [hpoll])
    cases response with
    | ok r => exact @deliver_counted o { s with reconnectAttempts := 0 } rfl hnot r r.events
    | error err => exact failed_counted h hnot err
  | @resumed rest r hpoll result =>
    have hnot := h.not_gaveUp (by simp [hpoll])
    cases result with
    | ok _ => exact deliver_counted (h.delivering rest r hpoll) hnot r rest
    | error err => simp [isFresh, hpoll] at hfresh
  | stopped =>
    refine ⟨h.run, fun hover => ?_, h.delivering⟩
    have hover' := h.ended ((gaveUp_log (by simp)).mp hover)
    exact ⟨hover'.1, rfl, hover'.2.2⟩

theorem listening_counted (o : Options) : Counted o listening := by
  refine ⟨.zero _, ?_, fun rest r hpoll => by cases hpoll⟩
  rintro ⟨err, herr⟩
  cases List.mem_singleton.mp herr

theorem run_counted (o : Options) (as : List Action)
    (hfresh : ∀ u ∈ trace (step o) listening as, isFresh u = true) :
    Counted o (run (step o) listening as) :=
  run_invariant_of (listening_counted o) (fun _ a hgood h => step_counted h a hgood) as hfresh

/-- A listener that meets no remembered rejection gives up only after as many rejected polls in a
row as it may have, so that with two or more a single one never ends it. -/
theorem gives_up_after_rejections (o : Options) (as : List Action)
    (hfresh : ∀ u ∈ trace (step o) listening as, isFresh u = true) :
    (GaveUp (run (step o) listening as) →
        LastRejected o.maxReconnectAttempts (run (step o) listening as).outcomes) ∧
      (1 < o.maxReconnectAttempts → ¬ LastRejected 2 (run (step o) listening as).outcomes →
        ¬ GaveUp (run (step o) listening as)) := by
  have h := run_counted o as hfresh
  have hlast := fun hover => h.run.mono (h.ended hover).2.2
  refine ⟨hlast, fun hmax hnever hover => ?_⟩
  exact hnever ((hlast hover).mono hmax)

/-- Two rejected pages after a start ledger, with two attempts. -/
theorem gives_up_after_two :
    let o : Options := ⟨[], 2⟩
    let s := run (step o) listening [.latestLedger (.ok 7), .events (.error "reset"), .tick,
      .latestLedger (.ok 8), .events (.error "reset")]
    (GaveUp s → LastRejected o.maxReconnectAttempts s.outcomes) ∧
      (1 < o.maxReconnectAttempts → ¬ LastRejected 2 s.outcomes → ¬ GaveUp s) :=
  gives_up_after_rejections _ _ (by decide)

/-- One rejected request, and a listener that asks no more and gives up. -/
theorem gives_up_unasked :
    let o : Options := ⟨[], 5⟩
    let recovered : List Action := [.tick, .latestLedger (.ok 7)]
    let s := run (step o) listening ([.latestLedger (.error "503")] ++ recovered ++ recovered ++
      recovered ++ recovered)
    GaveUp s ∧ ¬ LastRejected o.maxReconnectAttempts s.outcomes ∧
      s.journal = [.getLatestLedger, .error "503"] ∧
      s.outcomes = [.rejected, .remembered, .remembered, .remembered, .remembered] := by
  exact ⟨⟨"503", by decide⟩, by decide, by decide, by decide⟩

end PayFi.Tools.Reconnects
