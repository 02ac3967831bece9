import PayFi.Library.Parties
import PayFi.Tools.Payment

namespace PayFi.Spending.Batch

open Library.Machine Library.Clock Library.Numbers Library.Doubles Library.Parties
open Network.Submission
open Tools.Payment Tracker Accounting Guard

structure RawBatch where
  payments : Option (List RawPayment)
  failFast : Option Bool

structure BatchInput where
  payments : List PaymentInput
  failFast : Bool

inductive BatchError where
  | zod (issues : List Issue)
  | limit (total : Number) (assetCode spendingLimit : String)
  | preflight (message : String) (skipped : ℕ)

def issuesOf : Except (List Issue) PaymentInput → List Issue
  | .ok _ => []
  | .error issues => issues

def paymentIssues (sdk : Sdk) (raws : List RawPayment) : List Issue :=
  (raws.zipIdx.map fun (raw, i) => (issuesOf (paymentInputSchema sdk raw)).map fun issue =>
    { issue with path := ["payments", toString i] ++ issue.path }).flatten

def batchPaymentInputSchema (sdk : Sdk) (raw : RawBatch) : Except (List Issue) BatchInput :=
  match raw.payments with
  | none => .error [⟨["payments"], "Required"⟩]
  | some raws =>
    let payments := raws.filterMap fun raw => (paymentInputSchema sdk raw).toOption
    let issues :=
      ensure (1 ≤ raws.length) ["payments"] "Array must contain at least 1 element(s)" ++
      ensure (raws.length ≤ 100) ["payments"] "Array must contain at most 100 element(s)" ++
      paymentIssues sdk raws
    if issues = [] ∧ payments.length = raws.length then
      .ok ⟨payments, raw.failFast.getD false⟩
    else .error issues

def batchTotalIn (A : Arithmetic) (payments : List PaymentInput) : Number :=
  A.sum (payments.map fun p => A.parseFloat p.amount)

def batchTotal (payments : List PaymentInput) : Number := batchTotalIn .exact payments

def problem (p : PaymentInput) (i : ℕ) : Option String :=
  if p.assetCode ≠ "XLM" ∧ !truthy p.assetIssuer then
    some ("payment " ++ toString i ++ ": Asset issuer is required for non-native asset " ++
      p.assetCode)
  else none

def preflight (input : BatchInput) : Except BatchError Unit :=
  let problems := input.payments.zipIdx.filterMap fun (p, i) => (problem p i).map fun m => (m, i)
  match problems with
  | [] => .ok ()
  | (m, i) :: _ =>
    if input.failFast then .error (.preflight m (input.payments.length - i - 1))
    else .error (.preflight ("; ".intercalate (problems.map Prod.fst)) 0)

/-- What `execute` checks before it loads the account: the schema, the aggregate against
the limit, and every payment. -/
def check (cfg : Config) (sdk : Sdk) (raw : RawBatch) : Except BatchError (List PaymentInput) := do
  let input ← (batchPaymentInputSchema sdk raw).mapError .zod
  if (parseFloat cfg.spendingLimit).lt (batchTotal input.payments) then
    throw (.limit (batchTotal input.payments) cfg.assetCode cfg.spendingLimit)
  preflight input
  return input.payments

structure BatchTask where
  payments : List PaymentInput
  time : ℤ
  status : Status

/-- The agent of the guarded tasks, and the batches that it has accepted. -/
structure Desk where
  agent : Agent
  batches : List BatchTask

inductive Action where
  | task (a : Guard.Action)
  | batch (raw : RawBatch) (now : ℤ)
  | submitBatch (i : ℕ)

def BatchTask.submit (b : BatchTask) : BatchTask :=
  if b.status = .pending then { b with status := .submitted } else b

def BatchTask.lose (b : BatchTask) : BatchTask :=
  if b.status = .pending then { b with status := .lost } else b

def isRestart : Guard.Action → Bool
  | .restart _ _ => true
  | _ => false

def step (cfg : Config) (sdk : Sdk) (d : Desk) : Action → Desk
  | .task a =>
    ⟨Guard.step cfg d.agent a, if isRestart a then d.batches.map BatchTask.lose else d.batches⟩
  | .batch raw now =>
    match check cfg sdk raw with
    | .ok payments => { d with batches := d.batches ++ [⟨payments, now, .pending⟩] }
    | .error _ => d
  | .submitBatch i => { d with batches := d.batches.modify i BatchTask.submit }

def idle : Desk := ⟨Guard.idle, []⟩

def readings : Action → List ℤ
  | .task a => Guard.readings a
  | .batch _ now => [now]
  | .submitBatch _ => []

/-- The clock never goes back. -/
def Chronological (as : List Action) : Prop := (as.flatMap readings).Pairwise (· ≤ ·)

instance (as : List Action) : Decidable (Chronological as) :=
  inferInstanceAs (Decidable ((as.flatMap readings).Pairwise (· ≤ ·)))

/-- The amounts of guarded tasks are valid positive decimals, as the schema of a batch
demands of its payments. -/
def Decimals : Action → Prop
  | .task (.guard amount _ _) => amount.any paymentAmountSchema = true
  | _ => True

instance : (a : Action) → Decidable (Decimals a)
  | .task (.guard amount _ _) => inferInstanceAs (Decidable (amount.any paymentAmountSchema = true))
  | .task (.submit _) => .isTrue trivial
  | .task (.restart _ _) => .isTrue trivial
  | .batch _ _ => .isTrue trivial
  | .submitBatch _ => .isTrue trivial

def BatchTask.value (b : BatchTask) : ℚ := (b.payments.map fun p => Accounting.value p.amount).sum

/-- What has been paid by batches checked in the window that ends at `t`. -/
def batched (cfg : Config) (bs : List BatchTask) (t : ℤ) : ℚ :=
  ((bs.filter fun b => b.status = .submitted ∧ t - cfg.windowMs ≤ b.time ∧ b.time ≤ t).map
    BatchTask.value).sum

/-- What all three task types have paid in any window stays within the limit. -/
def Bounded (cfg : Config) (d : Desk) : Prop :=
  ∀ t, paid cfg d.agent.tasks t + batched cfg d.batches t ≤ Accounting.value cfg.spendingLimit

/-- The task has passed its check, and its payment has been or can still be submitted. -/
def isOpen : Status → Bool
  | .pending => true
  | .submitted => true
  | _ => false

/-- A batch shares no window with another payment: it passes its check only when no
task or batch has been checked in the window before, and no task is guarded in the
window after it. As for guarded tasks alone, no record leaves the window between the
two clock readings of a guard. -/
def Apart (cfg : Config) (sdk : Sdk) (u : Transition Desk Action) : Prop :=
  match u.action with
  | .task (.guard (some _) now now') =>
    (∀ t ∈ now :: u.before.agent.tracker.records.map SpendingRecord.timestamp,
      now - cfg.windowMs ≤ t → now' - cfg.windowMs ≤ t) ∧
    ∀ b ∈ u.before.batches, isOpen b.status = true → b.time + cfg.windowMs < now
  | .batch raw now => (check cfg sdk raw).toBool = true →
    (∀ k ∈ u.before.agent.tasks, isOpen k.status = true → k.time + cfg.windowMs < now) ∧
    ∀ b ∈ u.before.batches, isOpen b.status = true → b.time + cfg.windowMs < now
  | _ => True

instance (cfg : Config) (sdk : Sdk) : (u : Transition Desk Action) → Decidable (Apart cfg sdk u)
  | ⟨_, .task (.guard (some _) _ _), _⟩ => inferInstanceAs (Decidable (_ ∧ _))
  | ⟨_, .task (.guard none _ _), _⟩ => .isTrue trivial
  | ⟨_, .task (.submit _), _⟩ => .isTrue trivial
  | ⟨_, .task (.restart _ _), _⟩ => .isTrue trivial
  | ⟨_, .batch _ _, _⟩ => inferInstanceAs (Decidable (_ = true → _ ∧ _))
  | ⟨_, .submitBatch _, _⟩ => .isTrue trivial

def openTimes {α : Type} (time : α → ℤ) (status : α → Status) (xs : List α) : List ℤ :=
  (xs.filter fun x => isOpen (status x)).map time

variable {α : Type} {time : α → ℤ} {status : α → Status} {f : α → α}

theorem openTimes_append (xs ys : List α) : openTimes time status (xs ++ ys) =
    openTimes time status xs ++ openTimes time status ys := by
  simp [openTimes]

theorem mem_openTimes {x : α} {xs : List α} (hx : x ∈ xs) (ho : isOpen (status x) = true) :
    time x ∈ openTimes time status xs :=
  List.mem_map_of_mem (List.mem_filter.mpr ⟨hx, ho⟩)

theorem openTimes_map (ht : ∀ x, time (f x) = time x)
    (hs : ∀ x, isOpen (status (f x)) = true → isOpen (status x) = true) (xs : List α) :
    (openTimes time status (xs.map f)).Sublist (openTimes time status xs) := by
  induction xs with
  | nil => exact .slnil
  | cons x xs ih =>
    by_cases hx : isOpen (status (f x)) = true
    · simp only [openTimes, List.map_cons, List.filter_cons, hx, hs x hx, if_true, ht]
      exact ih.cons_cons (time x)
    · have hskip : openTimes time status ((x :: xs).map f) = openTimes time status (xs.map f) := by
        simp [openTimes, hx]
      rw [hskip]
      refine ih.trans ?_
      exact ((List.sublist_cons_self x xs).filter _).map time

theorem openTimes_modify (ht : ∀ x, time (f x) = time x)
    (hs : ∀ x, isOpen (status (f x)) = isOpen (status x)) (xs : List α) (i : ℕ) :
    openTimes time status (xs.modify i f) = openTimes time status xs := by
  induction xs generalizing i with
  | nil => cases i <;> rfl
  | cons x xs ih =>
    cases i with
    | zero => simp [openTimes, List.filter_cons, hs x, ht, apply_ite]
    | succ i =>
      have ih := ih i
      simp only [openTimes] at ih
      by_cases hx : isOpen (status x) = true
      · simp [openTimes, hx, ih]
      · simp [openTimes, hx, ih]

def batchTimes (bs : List BatchTask) : List ℤ := openTimes BatchTask.time BatchTask.status bs

def taskTimes (ks : List Task) : List ℤ := openTimes Task.time Task.status ks

theorem batchTimes_lose (bs : List BatchTask) :
    (batchTimes (bs.map BatchTask.lose)).Sublist (batchTimes bs) := by
  apply openTimes_map
  · intro b
    unfold BatchTask.lose
    split <;> rfl
  · intro b
    unfold BatchTask.lose
    split
    · intro h
      cases h
    · exact id

theorem batchTimes_submit (bs : List BatchTask) (i : ℕ) :
    batchTimes (bs.modify i BatchTask.submit) = batchTimes bs := by
  apply openTimes_modify
  · intro b
    unfold BatchTask.submit
    split <;> rfl
  · intro b
    unfold BatchTask.submit
    split
    · rename_i h
      rw [h]
      rfl
    · rfl

theorem taskTimes_lose (ks : List Task) :
    (taskTimes (ks.map Task.lose)).Sublist (taskTimes ks) := by
  apply openTimes_map
  · intro k
    unfold Task.lose
    split <;> rfl
  · intro k
    unfold Task.lose
    split
    · intro h
      cases h
    · exact id

theorem taskTimes_submit (ks : List Task) (i : ℕ) :
    taskTimes (ks.modify i Task.submit) = taskTimes ks := by
  apply openTimes_modify
  · intro k
    unfold Task.submit
    split <;> rfl
  · intro k
    unfold Task.submit
    split
    · rename_i h
      rw [h.1]
      rfl
    · rfl

/-- Windows apart: no two open batches share one, nor an open batch and an open task. -/
structure Separate (cfg : Config) (d : Desk) : Prop where
  batches : (batchTimes d.batches).Pairwise fun s t => s + cfg.windowMs < t
  tasks : ∀ s ∈ batchTimes d.batches, ∀ t ∈ taskTimes d.agent.tasks,
    s + cfg.windowMs < t ∨ t + cfg.windowMs < s
  within : ∀ b ∈ d.batches, b.value ≤ Accounting.value cfg.spendingLimit

variable {cfg : Config} {sdk : Sdk} {d : Desk} {history : List Entry} {clock : ℤ}

theorem Separate.shrink (h : Separate cfg d) {g : Agent} {bs : List BatchTask}
    (hb : (batchTimes bs).Sublist (batchTimes d.batches))
    (ht : (taskTimes g.tasks).Sublist (taskTimes d.agent.tasks))
    (hv : ∀ b ∈ bs, b.value ≤ Accounting.value cfg.spendingLimit) : Separate cfg ⟨g, bs⟩ :=
  ⟨h.batches.sublist hb, fun s hs t htt => h.tasks s (hb.subset hs) t (ht.subset htt), hv⟩

theorem idle_separate (cfg : Config) : Separate cfg idle :=
  ⟨.nil, by simp [batchTimes, openTimes, idle], by simp [idle]⟩

theorem submit_within (h : Separate cfg d) (i : ℕ) :
    ∀ b ∈ d.batches.modify i BatchTask.submit, b.value ≤ Accounting.value cfg.spendingLimit := by
  refine forall_mem_modify h.within fun b _ hb => ?_
  unfold BatchTask.submit
  split <;> exact hb

theorem lose_within (h : Separate cfg d) :
    ∀ b ∈ d.batches.map BatchTask.lose, b.value ≤ Accounting.value cfg.spendingLimit := by
  intro b hb
  obtain ⟨b', hb', rfl⟩ := List.mem_map.mp hb
  have hwithin := h.within b' hb'
  unfold BatchTask.lose
  split <;> exact hwithin

theorem batchPaymentInputSchema_ok {raw : RawBatch} {input : BatchInput}
    (h : batchPaymentInputSchema sdk raw = .ok input) :
    ∀ p ∈ input.payments, paymentAmountSchema p.amount = true := by
  simp only [batchPaymentInputSchema] at h
  split at h
  · cases h
  · split at h
    · cases h
      intro p hp
      obtain ⟨raw', -, hraw⟩ := List.mem_filterMap.mp hp
      cases hout : paymentInputSchema sdk raw' with
      | error issues => simp [hout, Except.toOption] at hraw
      | ok p' =>
        simp only [hout, Except.toOption, Option.some.injEq] at hraw
        subst hraw
        exact (paymentInputSchema_ok hout).2.2.2.2.2.2
    · cases h

theorem batchTotal_eq {payments : List PaymentInput}
    (h : ∀ p ∈ payments, paymentAmountSchema p.amount = true) :
    batchTotal payments = .finite (payments.map fun p => Accounting.value p.amount).sum := by
  have hmap : (payments.map fun p => parseFloat p.amount) =
      (payments.map fun p => Accounting.value p.amount).map Number.finite := by
    rw [List.map_map]
    refine List.map_congr_left fun p hp => ?_
    have hp := h p hp
    rw [paymentAmountSchema, Bool.and_eq_true, Bool.and_eq_true] at hp
    obtain ⟨q, hq, -⟩ := parseFloat_of_isDecimal hp.1.1
    simp [Accounting.value, hq]
  simp only [batchTotal, batchTotalIn, Arithmetic.sum_exact, Arithmetic.parseFloat_exact]
  rw [hmap, sum_finite]

theorem check_ok {raw : RawBatch} {payments : List PaymentInput}
    (h : check cfg sdk raw = .ok payments) (now : ℤ) (s : Status) :
    BatchTask.value ⟨payments, now, s⟩ ≤ Accounting.value cfg.spendingLimit := by
  simp only [check, bind, Except.bind] at h
  cases hin : batchPaymentInputSchema sdk raw with
  | error issues => simp [hin, Except.mapError] at h
  | ok input =>
    simp only [hin, Except.mapError, batchTotal_eq (batchPaymentInputSchema_ok hin),
      (limit_eq cfg).1] at h
    split at h
    · cases h
    · rename_i hle
      cases hp : preflight input with
      | error e => simp [hp] at h
      | ok =>
        simp only [hp, pure, Except.pure, Except.ok.injEq] at h
        subst h
        have hsum : (input.payments.map fun p => Accounting.value p.amount).sum ≤
            Accounting.value cfg.spendingLimit := by simpa [Number.lt] using hle
        exact hsum

theorem batch_separate (h : Separate cfg d) {raw : RawBatch} {now : ℤ}
    (hgood : Apart cfg sdk ⟨d, .batch raw now, step cfg sdk d (.batch raw now)⟩) :
    Separate cfg (step cfg sdk d (.batch raw now)) := by
  simp only [step]
  cases hc : check cfg sdk raw with
  | error e => exact h
  | ok payments =>
    obtain ⟨hk, hb⟩ := hgood (by rw [hc]; rfl)
    have htimes : batchTimes (d.batches ++ [⟨payments, now, .pending⟩]) =
        batchTimes d.batches ++ [now] := openTimes_append ..
    have hbefore : ∀ s ∈ batchTimes d.batches, s + cfg.windowMs < now := by
      intro s hs
      obtain ⟨b, hmem, rfl⟩ := List.mem_map.mp hs
      exact hb b (List.mem_of_mem_filter hmem) (List.mem_filter.mp hmem).2
    refine ⟨?_, ?_, forall_mem_concat h.within (check_ok hc now .pending)⟩
    · rw [htimes]
      refine List.pairwise_append.mpr ⟨h.batches, List.pairwise_singleton .., ?_⟩
      intro s hs t ht
      rw [List.mem_singleton.mp ht]
      exact hbefore s hs
    · rw [htimes]
      refine forall_mem_concat h.tasks fun t ht => ?_
      obtain ⟨k, hmem, rfl⟩ := List.mem_map.mp ht
      exact .inr (hk k (List.mem_of_mem_filter hmem) (List.mem_filter.mp hmem).2)

theorem guard_separate (h : Separate cfg d) {amount : Option String} {now now' : ℤ}
    (hbefore : ∀ b ∈ d.batches, isOpen b.status = true → b.time + cfg.windowMs < now) :
    Separate cfg ⟨Guard.step cfg d.agent (.guard amount now now'), d.batches⟩ := by
  refine ⟨h.batches, fun s hs => ?_, h.within⟩
  have hnew : taskTimes (Guard.step cfg d.agent (.guard amount now now')).tasks =
      taskTimes d.agent.tasks ++ taskTimes [⟨amount, now,
        statusOf (assertWithinSpendingLimit cfg d.agent.tracker amount now now').1⟩] :=
    openTimes_append ..
  obtain ⟨b, hb, rfl⟩ := List.mem_map.mp hs
  have hlt := hbefore b (List.mem_of_mem_filter hb) (List.mem_filter.mp hb).2
  rw [hnew]
  refine List.forall_mem_append.mpr ⟨h.tasks b.time hs, fun t ht => .inl ?_⟩
  obtain ⟨k, hk, rfl⟩ := List.mem_map.mp ht
  rw [List.mem_singleton.mp (List.mem_of_mem_filter hk)]
  exact hlt

theorem step_separate (h : Separate cfg d) (a : Action) (hdecimal : Decimals a)
    (hgood : Apart cfg sdk ⟨d, a, step cfg sdk d a⟩) : Separate cfg (step cfg sdk d a) := by
  cases a with
  | batch raw now => exact batch_separate h hgood
  | submitBatch i =>
    refine h.shrink ?_ (.refl _) (submit_within h i)
    rw [batchTimes_submit]
  | task a =>
    cases a with
    | guard amount now now' =>
      cases amount with
      | none => cases hdecimal
      | some a => exact guard_separate h hgood.2
    | submit i =>
      refine h.shrink (.refl _) ?_ h.within
      simp only [Guard.step]
      rw [taskTimes_submit]
    | restart now now' =>
      exact h.shrink (batchTimes_lose _) (taskTimes_lose _) (lose_within h)

theorem batched_le (h : Separate cfg d) (t : ℤ) :
    batched cfg d.batches t ≤ Accounting.value cfg.spendingLimit := by
  have hsub : ((d.batches.filter fun b => b.status = .submitted ∧ t - cfg.windowMs ≤ b.time ∧
      b.time ≤ t).map BatchTask.time).Sublist (batchTimes d.batches) := by
    apply List.Sublist.map
    refine List.monotone_filter_right _ fun b hb => ?_
    rw [decide_eq_true_eq] at hb
    rw [hb.1]
    rfl
  have happart := h.batches.sublist hsub
  rw [batched]
  cases hbs : d.batches.filter fun b => b.status = .submitted ∧ t - cfg.windowMs ≤ b.time ∧
      b.time ≤ t with
  | nil => exact (limit_eq cfg).2
  | cons b bs =>
    have hin : ∀ b' ∈ b :: bs, b' ∈ d.batches ∧ t - cfg.windowMs ≤ b'.time ∧ b'.time ≤ t := by
      intro b' hb'
      rw [← hbs] at hb'
      obtain ⟨hmem, hp⟩ := List.mem_filter.mp hb'
      rw [decide_eq_true_eq] at hp
      exact ⟨hmem, hp.2⟩
    cases bs with
    | nil => simpa using h.within b (hin b List.mem_cons_self).1
    | cons b' bs =>
      rw [hbs] at happart
      have hlt := (List.pairwise_cons.mp happart).1 b'.time (by simp)
      have hb := hin b List.mem_cons_self
      have hb' := hin b' (by simp)
      omega

theorem paid_eq_zero (h : Separate cfg d) {t : ℤ} {b : BatchTask} (hb : b ∈ d.batches)
    (hs : b.status = .submitted) (hw : t - cfg.windowMs ≤ b.time ∧ b.time ≤ t) :
    paid cfg d.agent.tasks t = 0 := by
  have hnone : (d.agent.tasks.filter fun k => k.status = .submitted ∧ t - cfg.windowMs ≤ k.time ∧
      k.time ≤ t) = [] := by
    refine List.filter_eq_nil_iff.mpr fun k hk hp => ?_
    rw [decide_eq_true_eq] at hp
    have htimes := h.tasks b.time (mem_openTimes hb (by rw [hs]; rfl)) k.time
      (mem_openTimes hk (by rw [hp.1]; rfl))
    omega
  rw [paid, hnone]
  rfl

theorem Separate.bounded (h : Separate cfg d) (hg : Guard.Bounded cfg d.agent) :
    Bounded cfg d := by
  intro t
  by_cases hsome : ∃ b ∈ d.batches, b.status = .submitted ∧ t - cfg.windowMs ≤ b.time ∧ b.time ≤ t
  · obtain ⟨b, hb, hs, hw⟩ := hsome
    rw [paid_eq_zero h hb hs hw, zero_add]
    exact batched_le h t
  · have hnone : (d.batches.filter fun b => b.status = .submitted ∧ t - cfg.windowMs ≤ b.time ∧
        b.time ≤ t) = [] := by
      refine List.filter_eq_nil_iff.mpr fun b hb hp => hsome ⟨b, hb, ?_⟩
      rwa [decide_eq_true_eq] at hp
    rw [batched, hnone, List.map_nil, List.sum_nil, add_zero]
    exact hg t

theorem decimal_nonneg {a : String} (h : paymentAmountSchema a = true) :
    (parseFloat a).lt (.finite 0) = false := by
  rw [paymentAmountSchema, Bool.and_eq_true, Bool.and_eq_true] at h
  obtain ⟨q, hq, h0⟩ := parseFloat_of_isDecimal h.1.1
  simpa [hq, Number.lt] using h0

theorem harmless_of_apart {a : Guard.Action} (hdecimal : Decimals (.task a))
    (hgood : Apart cfg sdk ⟨d, .task a, step cfg sdk d (.task a)⟩) :
    Harmless cfg ⟨d.agent, a, Guard.step cfg d.agent a⟩ := by
  cases a with
  | guard amount now now' =>
    cases amount with
    | none => trivial
    | some a => exact ⟨decimal_nonneg hdecimal, hgood.1⟩
  | submit i => trivial
  | restart now now' => trivial

theorem step_agent (h : Guarded cfg history clock d.agent) (a : Action)
    (hclock : (clock :: readings a).Pairwise (· ≤ ·)) (hdecimal : Decimals a)
    (hgood : Apart cfg sdk ⟨d, a, step cfg sdk d a⟩) :
    ∃ history', Guarded cfg history' ((readings a).getLastD clock) (step cfg sdk d a).agent := by
  cases a with
  | task a => exact step_guarded h a hclock (harmless_of_apart hdecimal hgood)
  | submitBatch i => exact ⟨history, h⟩
  | batch raw now =>
    have hlater : Guarded cfg history now d.agent := by
      simp only [readings, List.pairwise_cons, List.mem_singleton] at hclock
      exact h.relabel (h.tracks.later (hclock.1 now rfl)) rfl h.valid
    refine ⟨history, ?_⟩
    simp only [step]
    split <;> exact hlater

theorem run_bounded (as : List Action) (h : Guarded cfg history clock d.agent)
    (hs : Separate cfg d) (hclock : (clock :: as.flatMap readings).Pairwise (· ≤ ·))
    (hdecimal : ∀ a ∈ as, Decimals a) (hgood : ∀ u ∈ trace (step cfg sdk) d as, Apart cfg sdk u) :
    Bounded cfg (run (step cfg sdk) d as) := by
  have hstep : ∀ {clock d} a, (∃ history, Guarded cfg history clock d.agent) ∧ Separate cfg d →
      (clock :: readings a).Pairwise (· ≤ ·) →
      Decimals a ∧ Apart cfg sdk ⟨d, a, step cfg sdk d a⟩ →
      (∃ history, Guarded cfg history ((readings a).getLastD clock) (step cfg sdk d a).agent) ∧
        Separate cfg (step cfg sdk d a) := by
    intro clock d a ⟨⟨history, hg⟩, hs⟩ ha ⟨hd, happart⟩
    exact ⟨step_agent hg a ha hd happart, step_separate hs a hd happart⟩
  have hmet : ∀ u ∈ trace (step cfg sdk) d as, Decimals u.action ∧ Apart cfg sdk u :=
    fun u hu => ⟨hdecimal u.action (action_mem hu), hgood u hu⟩
  obtain ⟨-, _, ⟨_, hg⟩, hsep⟩ := timed_invariant hstep as ⟨⟨history, h⟩, hs⟩ hclock hmet
  exact hsep.bounded hg.spent_bounded

/-- The payments of all three task types stay within the limit in every window, in every run
in which no batch shares a window with another payment. -/
theorem batches_bounded (cfg : Config) (sdk : Sdk) (as : List Action) (hclock : Chronological as)
    (hdecimal : ∀ a ∈ as, Decimals a)
    (hgood : ∀ u ∈ trace (step cfg sdk) idle as, Apart cfg sdk u) :
    Bounded cfg (run (step cfg sdk) idle as) :=
  run_bounded as (idle_guarded cfg _) (idle_separate cfg) (pairwise_headD_cons hclock 0) hdecimal
    hgood

def lenient : Sdk :=
  ⟨fun _ => true, fun _ _ => .ok (), fun _ _ _ => .ok (), fun _ _ _ _ _ _ => .ok (),
    fun _ => ""⟩

def payment (amount : String) : RawPayment :=
  ⟨some "GBBD47IF6LWK7P7MDEVSCWR7DPUWV3NY3DTQEVFL4NAT4AQH3ZLLFLA5", some amount, none, none, none,
    none⟩

theorem batches_bounded_apart :
    let cfg : Config := ⟨.testnet, "100", 1000, "USDC", by decide, by decide⟩
    Bounded cfg (run (step cfg lenient) idle
      [.task (.guard (some "60") 0 0), .task (.submit 0),
        .batch ⟨some [payment "40", payment "59.5"], none⟩ 1001, .submitBatch 0,
        .task (.guard (some "100") 2002 2002), .task (.submit 1)]) :=
  batches_bounded _ _ _ (by decide) (by decide +kernel) (by decide +kernel)

/-- A batch is not counted against the payment after it. -/
theorem batches_unbounded :
    let cfg : Config := ⟨.testnet, "100", 1000, "USDC", by decide, by decide⟩
    let as : List Action := [.batch ⟨some [payment "100"], none⟩ 0, .submitBatch 0,
      .task (.guard (some "100") 1 1), .task (.submit 0)]
    (Chronological as ∧ ∀ a ∈ as, Decimals a) ∧
      ¬ Bounded cfg (run (step cfg lenient) idle as) := by
  intro cfg as
  refine ⟨⟨by decide, by decide +kernel⟩, fun h => absurd (h 1) ?_⟩
  decide +kernel

end PayFi.Spending.Batch
