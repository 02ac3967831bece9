import PayFi.Spending.Accounting

namespace PayFi.Spending.Guard

open Library.Machine Library.Clock Library.Numbers Library.Doubles Library.Window Tracker
open Accounting

def mainnetSpendingCap : Number := .finite 10000

inductive SpendingError where
  | amount (message : String)
  | cumulative (e : LimitExceeded)

/-- The guard of a payment task; an amount that is not a string passes it. -/
def assertWithinSpendingLimitIn (A : Arithmetic) (cfg : Config) (s : State)
    (amount : Option String) (now now' : ℤ) : Except SpendingError Unit × State :=
  match amount with
  | none => (.ok (), s)
  | some amount =>
    let parsed := A.parseFloat amount
    let limit := A.parseFloat cfg.spendingLimit
    let payment := "Payment amount " ++ amount ++ " " ++ cfg.assetCode ++ " exceeds "
    if !parsed.isNaN && limit.lt parsed then
      (.error (.amount (payment ++ "AGENT_SPENDING_LIMIT of " ++ cfg.spendingLimit)), s)
    else if !parsed.isNaN && cfg.network == .mainnet && mainnetSpendingCap.lt parsed then
      (.error (.amount (payment ++ "mainnet spending cap of 10000")), s)
    else
      match recordIn cfg A s amount now now' with
      | (.ok (), s) => (.ok (), s)
      | (.error e, s) => (.error (.cumulative e), s)

def assertWithinSpendingLimit (cfg : Config) (s : State) (amount : Option String) (now now' : ℤ) :
    Except SpendingError Unit × State :=
  assertWithinSpendingLimitIn .exact cfg s amount now now'

/-- The pattern `0(\.0+)?`. -/
def isZero : List Char → Bool
  | ['0'] => true
  | '0' :: '.' :: ds => ds ≠ [] && ds.all (· = '0')
  | _ => false

def paymentAmountSchema (a : String) : Bool :=
  isDecimal a.toList && !isZero a.toList && (Number.finite 0).lt (parseFloat a)

inductive Status where
  | rejected
  | pending
  | submitted
  | lost
  deriving DecidableEq

structure Task where
  amount : Option String
  time : ℤ
  status : Status

/-- The tracker and the payment tasks in the order of their guards. -/
structure Agent where
  tracker : State
  tasks : List Task

/-- A task starts with its guard, which runs to its end before anything else
does. Its payment is submitted later, or never. -/
inductive Action where
  | guard (amount : Option String) (now now' : ℤ)
  | submit (i : ℕ)
  | restart (now now' : ℤ)

def Task.submit (k : Task) : Task :=
  if k.status = .pending ∧ k.amount.any paymentAmountSchema then { k with status := .submitted }
  else k

def Task.lose (k : Task) : Task := if k.status = .pending then { k with status := .lost } else k

def statusOf : Except SpendingError Unit → Status
  | .ok () => .pending
  | .error _ => .rejected

def step (cfg : Config) (g : Agent) : Action → Agent
  | .guard amount now now' =>
    let (out, tracker) := assertWithinSpendingLimit cfg g.tracker amount now now'
    ⟨tracker, g.tasks ++ [⟨amount, now, statusOf out⟩]⟩
  | .submit i => { g with tasks := g.tasks.modify i Task.submit }
  | .restart now now' => ⟨restore cfg g.tracker.db now now', g.tasks.map Task.lose⟩

def idle : Agent := ⟨⟨[], []⟩, []⟩

def readings : Action → List ℤ
  | .guard _ now now' => [now, now']
  | .submit _ => []
  | .restart now now' => [now, now']

/-- The clock never goes back. -/
def Chronological (as : List Action) : Prop := (as.flatMap readings).Pairwise (· ≤ ·)

instance (as : List Action) : Decidable (Chronological as) :=
  inferInstanceAs (Decidable ((as.flatMap readings).Pairwise (· ≤ ·)))

def Task.value (k : Task) : ℚ := (k.amount.map Accounting.value).getD 0

/-- What has been paid by tasks guarded in the window that ends at `t`. -/
def paid (cfg : Config) (ks : List Task) (t : ℤ) : ℚ :=
  ((ks.filter fun k => k.status = .submitted ∧ t - cfg.windowMs ≤ k.time ∧ k.time ≤ t).map
    Task.value).sum

def Bounded (cfg : Config) (g : Agent) : Prop :=
  ∀ t, paid cfg g.tasks t ≤ Accounting.value cfg.spendingLimit

/-- The guarded amount is not a negative number, and no record leaves the window
between the two clock readings of the guard. -/
def Harmless (cfg : Config) (u : Transition Agent Action) : Prop :=
  match u.action with
  | .guard (some a) now now' => (parseFloat a).lt (.finite 0) = false ∧
      ∀ t ∈ now :: u.before.tracker.records.map SpendingRecord.timestamp,
        now - cfg.windowMs ≤ t → now' - cfg.windowMs ≤ t
  | _ => True

instance (cfg : Config) : (u : Transition Agent Action) → Decidable (Harmless cfg u)
  | ⟨_, .guard (some _) _ _, _⟩ => inferInstanceAs (Decidable (_ ∧ _))
  | ⟨_, .guard none _ _, _⟩ => .isTrue trivial
  | ⟨_, .submit _, _⟩ => .isTrue trivial
  | ⟨_, .restart _ _, _⟩ => .isTrue trivial

def Task.entry (k : Task) : Option Entry :=
  if k.status = .rejected then none
  else
    match k.amount.map parseFloat with
    | some (.finite q) => some ⟨q, k.time⟩
    | _ => none

def passed (ks : List Task) : List Entry := ks.filterMap Task.entry

/-- What the entries of the window that ends at `t` add up to. -/
def inWindow (cfg : Config) (es : List Entry) (t : ℤ) : ℚ :=
  ((es.filter fun e => t - cfg.windowMs ≤ e.timestamp ∧ e.timestamp ≤ t).map Entry.amount).sum

structure Guarded (cfg : Config) (history : List Entry) (clock : ℤ) (g : Agent) : Prop where
  tracks : Tracks cfg (history.map Entry.toRecord) clock g.tracker
  nonneg : ∀ e ∈ history, 0 ≤ e.amount
  covered : (passed g.tasks).Sublist history
  valid : ∀ k ∈ g.tasks, k.status = .submitted → k.amount.any paymentAmountSchema = true
  bounded : ∀ t, inWindow cfg (passed g.tasks) t ≤ Accounting.value cfg.spendingLimit

variable {cfg : Config} {history es es' : List Entry} {clock now now' : ℤ} {g : Agent}

theorem sum_filter_le (h : es.Sublist es') (hn : ∀ e ∈ es', 0 ≤ e.amount) {p q : Entry → Bool}
    (hpq : ∀ e, p e = true → q e = true) :
    ((es.filter p).map Entry.amount).sum ≤ ((es'.filter q).map Entry.amount).sum := by
  have hsub : (es.filter p).Sublist (es'.filter q) :=
    (List.monotone_filter_right es hpq).trans (h.filter q)
  refine (hsub.map Entry.amount).sum_le_sum fun x hx => ?_
  obtain ⟨e, he, rfl⟩ := List.mem_map.mp hx
  exact hn e (List.mem_of_mem_filter he)

theorem entry_submit (k : Task) : k.submit.entry = k.entry := by
  unfold Task.submit
  split
  · rename_i h
    simp [Task.entry, h.1]
  · rfl

theorem entry_lose (k : Task) : k.lose.entry = k.entry := by
  unfold Task.lose
  split
  · rename_i h
    simp [Task.entry, h]
  · rfl

theorem submit_valid {k : Task}
    (h : k.status = .submitted → k.amount.any paymentAmountSchema = true) :
    k.submit.status = .submitted → k.submit.amount.any paymentAmountSchema = true := by
  unfold Task.submit
  split
  · rename_i hp
    intro _
    exact hp.2
  · exact h

theorem lose_valid {k : Task}
    (h : k.status = .submitted → k.amount.any paymentAmountSchema = true) :
    k.lose.status = .submitted → k.lose.amount.any paymentAmountSchema = true := by
  unfold Task.lose
  split
  · intro hs
    cases hs
  · exact h

theorem entry_of_submitted {k : Task} (hk : k.status = .submitted)
    (hv : k.amount.any paymentAmountSchema = true) : k.entry = some ⟨k.value, k.time⟩ := by
  obtain ⟨a, ha, hs⟩ := (Option.any_eq_true _ _).mp hv
  rw [paymentAmountSchema, Bool.and_eq_true, Bool.and_eq_true] at hs
  obtain ⟨q, hq, -⟩ := parseFloat_of_isDecimal hs.1.1
  have hval : k.value = q := by
    simp only [Task.value, ha, Option.map_some, Option.getD_some, Accounting.value, hq]
  simp [Task.entry, hk, ha, hq, hval]

theorem passed_cons (k : Task) (ks : List Task) :
    passed (k :: ks) = k.entry.toList ++ passed ks := by
  cases h : k.entry with
  | none => exact List.filterMap_cons_none h
  | some e => exact List.filterMap_cons_some h

theorem submitted_sublist (ks : List Task) (t : ℤ)
    (hv : ∀ k ∈ ks, k.status = .submitted → k.amount.any paymentAmountSchema = true) :
    ((ks.filter fun k => k.status = .submitted ∧ t - cfg.windowMs ≤ k.time ∧ k.time ≤ t).map
      Task.value).Sublist (((passed ks).filter fun e =>
        t - cfg.windowMs ≤ e.timestamp ∧ e.timestamp ≤ t).map Entry.amount) := by
  induction ks with
  | nil => exact .slnil
  | cons k ks ih =>
    have ih := ih fun k hk => hv k (List.mem_cons_of_mem _ hk)
    rw [passed_cons, List.filter_append, List.map_append]
    by_cases hk : k.status = .submitted ∧ t - cfg.windowMs ≤ k.time ∧ k.time ≤ t
    · have he := entry_of_submitted hk.1 (hv k (by simp) hk.1)
      rw [List.filter_cons_of_pos (by simpa using hk), he, Option.toList_some,
        List.filter_cons_of_pos (by simpa using hk.2)]
      exact ih.cons_cons k.value
    · rw [List.filter_cons_of_neg (by simpa using hk)]
      exact List.sublist_append_of_sublist_right ih

theorem paid_le_inWindow (ks : List Task) (t : ℤ)
    (hv : ∀ k ∈ ks, k.status = .submitted → k.amount.any paymentAmountSchema = true)
    (hn : ∀ e ∈ passed ks, 0 ≤ e.amount) : paid cfg ks t ≤ inWindow cfg (passed ks) t := by
  refine (submitted_sublist ks t hv).sum_le_sum fun x hx => ?_
  obtain ⟨e, he, rfl⟩ := List.mem_map.mp hx
  exact hn e (List.mem_of_mem_filter he)

theorem Guarded.spent_bounded (h : Guarded cfg history clock g) : Bounded cfg g := by
  intro t
  exact (paid_le_inWindow g.tasks t h.valid fun e he => h.nonneg e (h.covered.subset he)).trans
    (h.bounded t)

theorem idle_guarded (cfg : Config) (clock : ℤ) : Guarded cfg [] clock idle := by
  refine ⟨Tracks.empty cfg clock, by simp, .slnil, by simp [idle], fun t => ?_⟩
  exact (limit_eq cfg).2

theorem Guarded.relabel (h : Guarded cfg history clock g) {tracker : State} {ks : List Task}
    (ht : Tracks cfg (history.map Entry.toRecord) now tracker)
    (hk : passed ks = passed g.tasks)
    (hv : ∀ k ∈ ks, k.status = .submitted → k.amount.any paymentAmountSchema = true) :
    Guarded cfg history now ⟨tracker, ks⟩ := by
  refine ⟨ht, h.nonneg, ?_, hv, ?_⟩
  · rw [hk]
    exact h.covered
  · rw [hk]
    exact h.bounded

theorem passed_modify (ks : List Task) (i : ℕ) : passed (ks.modify i Task.submit) = passed ks := by
  induction ks generalizing i with
  | nil => cases i <;> rfl
  | cons k ks ih =>
    cases i with
    | zero => rw [List.modify_zero_cons, passed_cons, passed_cons, entry_submit]
    | succ i => rw [List.modify_succ_cons, passed_cons, passed_cons, ih]

theorem submit_guarded (h : Guarded cfg history clock g) (i : ℕ) :
    Guarded cfg history clock (step cfg g (.submit i)) := by
  refine h.relabel h.tracks (passed_modify g.tasks i) fun k hk hs => ?_
  obtain ⟨j, hj⟩ := List.mem_iff_getElem?.mp hk
  rw [List.getElem?_modify] at hj
  obtain ⟨k', hk', hkk⟩ := Option.map_eq_some_iff.mp hj
  have hmem := List.mem_of_getElem? hk'
  by_cases hij : i = j
  · rw [if_pos hij] at hkk
    subst hkk
    exact submit_valid (h.valid k' hmem) hs
  · rw [if_neg hij] at hkk
    subst hkk
    exact h.valid k' hmem hs

theorem restart_guarded (h : Guarded cfg history clock g) (hc : clock ≤ now) (hc' : now ≤ now') :
    Guarded cfg history now' (step cfg g (.restart now now')) := by
  refine h.relabel (restore_tracks h.tracks hc hc') ?_ fun k hk hs => ?_
  · rw [passed, List.filterMap_map]
    exact List.filterMap_congr fun k _ => entry_lose k
  · obtain ⟨k', hk', rfl⟩ := List.mem_map.mp hk
    exact lose_valid (h.valid k' hk') hs

/-- A task that fails its guard, or that has no number for an amount, adds
nothing to what has passed. -/
theorem Guarded.skip (h : Guarded cfg history clock g) {history' : List Entry} {tracker : State}
    (ht : Tracks cfg (history'.map Entry.toRecord) now tracker) (hsub : history.Sublist history')
    (hn : ∀ e ∈ history', 0 ≤ e.amount) {k : Task} (hk : k.entry = none)
    (hs : k.status ≠ .submitted) : Guarded cfg history' now ⟨tracker, g.tasks ++ [k]⟩ := by
  have hp : passed (g.tasks ++ [k]) = passed g.tasks := by
    rw [passed, List.filterMap_append, List.filterMap_cons_none hk, List.filterMap_nil,
      List.append_nil, passed]
  refine ⟨ht, hn, ?_, ?_, ?_⟩
  · rw [hp]
    exact h.covered.trans hsub
  · exact List.forall_mem_append.mpr
      ⟨h.valid, List.forall_mem_singleton.mpr fun hs' => absurd hs' hs⟩
  · rw [hp]
    exact h.bounded

theorem Guarded.pass (h : Guarded cfg history clock g) {tracker : State}
    {e : Entry} (he : e.timestamp = now) (h0 : 0 ≤ e.amount)
    (ht : Tracks cfg ((history ++ [e]).map Entry.toRecord) now' tracker) {k : Task}
    (hk : k.entry = some e) (hs : k.status ≠ .submitted)
    (hl : spent cfg (history ++ [e]) now ≤ Accounting.value cfg.spendingLimit) :
    Guarded cfg (history ++ [e]) now' ⟨tracker, g.tasks ++ [k]⟩ := by
  have hp : passed (g.tasks ++ [k]) = passed g.tasks ++ [e] := by
    rw [passed, List.filterMap_append, List.filterMap_cons_some hk, List.filterMap_nil, passed]
  have hn : ∀ e' ∈ history ++ [e], 0 ≤ e'.amount :=
    List.forall_mem_append.mpr ⟨h.nonneg, List.forall_mem_singleton.mpr h0⟩
  have hcov : (passed g.tasks ++ [e]).Sublist (history ++ [e]) := h.covered.append_right [e]
  refine ⟨ht, hn, ?_, ?_, fun t => ?_⟩
  · rw [hp]
    exact hcov
  · exact List.forall_mem_append.mpr
      ⟨h.valid, List.forall_mem_singleton.mpr fun hs' => absurd hs' hs⟩
  · rw [hp]
    by_cases hlt : t < now
    · -- the new payment lies after the window
      have hout : inWindow cfg (passed g.tasks ++ [e]) t = inWindow cfg (passed g.tasks) t := by
        rw [inWindow, List.filter_append, List.filter_cons_of_neg, List.filter_nil,
          List.append_nil, inWindow]
        simp only [he, decide_eq_true_eq]
        omega
      rw [hout]
      exact h.bounded t
    · refine (sum_filter_le hcov hn fun e' he' => ?_).trans hl
      rw [decide_eq_true_eq] at he' ⊢
      omega

theorem spent_eq (h : Tracks cfg (history.map Entry.toRecord) clock g.tracker) (hc : clock ≤ now)
    (hc' : now ≤ now') (q : ℚ)
    (hkeep : ∀ t ∈ now :: g.tracker.records.map SpendingRecord.timestamp,
      now - cfg.windowMs ≤ t → now' - cfg.windowMs ≤ t) :
    spent cfg (history ++ [⟨q, now⟩]) now = spent cfg (history ++ [⟨q, now⟩]) now' := by
  have hlive : live cfg (history ++ [⟨q, now⟩]) now = live cfg (history ++ [⟨q, now⟩]) now' := by
    refine List.filter_congr fun e he => ?_
    rw [decide_eq_decide]
    refine ⟨fun hle => hkeep e.timestamp ?_ hle, fun hle => by omega⟩
    obtain he | he := List.mem_append.mp he
    · -- a record in the window is still in the queue
      have hq : e.toRecord ∈ since SpendingRecord.timestamp (now - cfg.windowMs)
          (history.map Entry.toRecord) :=
        List.mem_filter.mpr ⟨List.mem_map_of_mem he, decide_eq_true hle⟩
      rw [← (h.later hc).queue.agrees] at hq
      exact List.mem_cons_of_mem _ (List.mem_map_of_mem (List.mem_of_mem_filter hq))
    · rw [List.mem_singleton.mp he]
      exact List.mem_cons_self
  rw [spent, hlive, spent]

theorem finite_of_within {n : Number} {l : ℚ} (hn : n.isNaN = false)
    (hl : (Number.finite l).lt n = false) (h0 : n.lt (.finite 0) = false) :
    ∃ q, n = .finite q ∧ 0 ≤ q := by
  cases n with
  | nan => cases hn
  | infinity negative => cases negative <;> simp [Number.lt] at hl h0
  | finite q => exact ⟨q, rfl, by simpa [Number.lt] using h0⟩

theorem assertWithinSpendingLimit_cases (cfg : Config) (s : State) (a : String) (now now' : ℤ) :
    (∃ m, assertWithinSpendingLimit cfg s (some a) now now' = (.error (.amount m), s)) ∨
      (!(parseFloat a).isNaN && (parseFloat cfg.spendingLimit).lt (parseFloat a)) = false ∧
        assertWithinSpendingLimit cfg s (some a) now now' =
          ((record cfg s a now now').1.mapError .cumulative, (record cfg s a now now').2) := by
  simp only [assertWithinSpendingLimit, assertWithinSpendingLimitIn, Arithmetic.parseFloat_exact,
    recordIn_exact]
  split
  · exact .inl ⟨_, rfl⟩
  · rename_i hlimit
    split
    · exact .inl ⟨_, rfl⟩
    · refine .inr ⟨Bool.eq_false_iff.mpr hlimit, ?_⟩
      generalize record cfg s a now now' = r
      obtain ⟨out, s'⟩ := r
      cases out with
      | ok => rfl
      | error => rfl

theorem step_guard {amount : Option String} {out : Except SpendingError Unit} {tracker : State}
    (h : assertWithinSpendingLimit cfg g.tracker amount now now' = (out, tracker)) :
    step cfg g (.guard amount now now') =
      ⟨tracker, g.tasks ++ [⟨amount, now, statusOf out⟩]⟩ := by
  rw [step, h]

theorem recorded_guarded (h : Guarded cfg history clock g) (hc : clock ≤ now) (hc' : now ≤ now')
    {a : String} {q : ℚ} (hq : parseFloat a = .finite q) (h0 : 0 ≤ q)
    (hkeep : ∀ t ∈ now :: g.tracker.records.map SpendingRecord.timestamp,
      now - cfg.windowMs ≤ t → now' - cfg.windowMs ≤ t) :
    Guarded cfg (history ++ [⟨q, now⟩]) now' ⟨(record cfg g.tracker a now now').2,
      g.tasks ++ [⟨some a, now,
        statusOf ((record cfg g.tracker a now now').1.mapError .cumulative)⟩]⟩ := by
  obtain ⟨hout, ht⟩ : _ ∧ _ := record_accounts h.tracks hc hc' hq
  have hn : ∀ e ∈ history ++ [(⟨q, now⟩ : Entry)], 0 ≤ e.amount :=
    List.forall_mem_append.mpr ⟨h.nonneg, List.forall_mem_singleton.mpr h0⟩
  rw [hout]
  by_cases hlt : Accounting.value cfg.spendingLimit < spent cfg (history ++ [⟨q, now⟩]) now'
  · rw [if_pos hlt]
    exact h.skip ht (List.sublist_append_left ..) hn rfl (by simp [Except.mapError, statusOf])
  · rw [if_neg hlt]
    refine h.pass rfl h0 ht ?_ (by simp [Except.mapError, statusOf]) ?_
    · simp [Task.entry, Except.mapError, statusOf, hq]
    · rw [spent_eq h.tracks hc hc' q hkeep]
      exact not_lt.mp hlt

theorem guard_guarded (h : Guarded cfg history clock g) (hc : clock ≤ now) (hc' : now ≤ now')
    (amount : Option String)
    (hgood : Harmless cfg ⟨g, .guard amount now now', step cfg g (.guard amount now now')⟩) :
    ∃ history', Guarded cfg history' now' (step cfg g (.guard amount now now')) := by
  have hlater := h.tracks.later (hc.trans hc')
  cases amount with
  | none =>
    rw [step_guard rfl]
    exact ⟨history, h.skip hlater (.refl _) h.nonneg rfl (by simp [statusOf])⟩
  | some a =>
    obtain ⟨h0, hkeep⟩ := hgood
    obtain ⟨m, hm⟩ | ⟨hlimit, hrec⟩ := assertWithinSpendingLimit_cases cfg g.tracker a now now'
    · rw [step_guard hm]
      exact ⟨history, h.skip hlater (.refl _) h.nonneg rfl (by simp [statusOf])⟩
    · rw [step_guard hrec]
      cases hn : (parseFloat a).isNaN with
      | true =>
        -- without a number nothing is recorded, and nothing will be paid
        have hnan := Number.eq_nan hn
        rw [record_of_nan hn]
        refine ⟨history, h.skip hlater (.refl _) h.nonneg ?_ (by simp [Except.mapError, statusOf])⟩
        simp [Task.entry, hnan]
      | false =>
        rw [hn, (limit_eq cfg).1] at hlimit
        obtain ⟨q, hq, hq0⟩ := finite_of_within hn (by simpa using hlimit) h0
        exact ⟨_, recorded_guarded h hc hc' hq hq0 hkeep⟩

theorem step_guarded (h : Guarded cfg history clock g) (a : Action)
    (hclock : (clock :: readings a).Pairwise (· ≤ ·)) (hgood : Harmless cfg ⟨g, a, step cfg g a⟩) :
    ∃ history', Guarded cfg history' ((readings a).getLastD clock) (step cfg g a) := by
  cases a with
  | guard amount now now' =>
    simp only [readings, List.pairwise_cons, List.mem_cons] at hclock
    exact guard_guarded h (hclock.1 now (.inl rfl)) (hclock.2.1 now' (.inl rfl)) amount hgood
  | submit i => exact ⟨history, submit_guarded h i⟩
  | restart now now' =>
    simp only [readings, List.pairwise_cons, List.mem_cons] at hclock
    exact ⟨history, restart_guarded h (hclock.1 now (.inl rfl)) (hclock.2.1 now' (.inl rfl))⟩

/-- Along every run of harmless steps the payments of any window stay within the
limit. -/
theorem run_guarded (as : List Action) (h : Guarded cfg history clock g)
    (hclock : (clock :: as.flatMap readings).Pairwise (· ≤ ·))
    (hgood : ∀ u ∈ trace (step cfg) g as, Harmless cfg u) : Bounded cfg (run (step cfg) g as) := by
  -- the history so far goes with the clock
  have hstep : ∀ {clock g} a, (∃ history, Guarded cfg history clock g) →
      (clock :: readings a).Pairwise (· ≤ ·) → Harmless cfg ⟨g, a, step cfg g a⟩ →
      ∃ history, Guarded cfg history ((readings a).getLastD clock) (step cfg g a) := by
    intro clock g a ⟨history, hg⟩ ha hharmless
    exact step_guarded hg a ha hharmless
  obtain ⟨-, _, _, hg⟩ := timed_invariant hstep as ⟨history, h⟩ hclock hgood
  exact hg.spent_bounded

/-- The payments of every window stay within the limit in every run in which no
guarded amount is negative and no record leaves the window during a guard. -/
theorem spending_bounded (cfg : Config) (as : List Action) (hclock : Chronological as)
    (hgood : ∀ u ∈ trace (step cfg) idle as, Harmless cfg u) :
    Bounded cfg (run (step cfg) idle as) := by
  exact run_guarded as (idle_guarded cfg _) (pairwise_headD_cons hclock 0) hgood

theorem spending_bounded_two_payments :
    let cfg : Config := ⟨.testnet, "100", 1000, "USDC", by decide, by decide⟩
    Bounded cfg (run (step cfg) idle
      [.guard (some "60") 0 0, .submit 0, .guard (some "40.5") 900 901, .submit 1]) :=
  spending_bounded _ _ (by decide) (by decide +kernel)

/-- A task of -100 makes room for a second payment of 100. And a payment of 100
passes when the earlier one leaves the window between the guard's two readings. -/
theorem spending_unbounded :
    let cfg : Config := ⟨.testnet, "100", 1000, "USDC", by decide, by decide⟩
    let negative : List Action := [.guard (some "-100") 0 0, .guard (some "100") 1 1,
      .guard (some "100") 2 2, .submit 1, .submit 2]
    let late : List Action := [.guard (some "100") 0 0, .submit 0, .guard (some "100") 1000 1001,
      .submit 1]
    (Chronological negative ∧ ¬ Bounded cfg (run (step cfg) idle negative)) ∧
      (Chronological late ∧ ¬ Bounded cfg (run (step cfg) idle late)) := by
  intro cfg negative late
  refine ⟨⟨by decide, fun h => absurd (h 2) ?_⟩, by decide, fun h => absurd (h 1000) ?_⟩
  · decide +kernel
  · decide +kernel

end PayFi.Spending.Guard
