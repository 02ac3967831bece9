import PayFi.Library.Clock
import PayFi.Spending.Tracker

namespace PayFi.Spending.Accounting

open Library Library.Clock Library.Numbers Library.Window Tracker

/-- An operation on the tracker with the clock readings it takes. A restart makes
a new tracker over the same table. -/
inductive Op where
  | record (amountStr : String) (now now' : ℤ)
  | total (now : ℤ)
  | getWindowStatus (now : ℤ)
  | clear
  | restart (now now' : ℤ)
  deriving DecidableEq

inductive Answer where
  | recorded
  | thrown (e : LimitExceeded)
  | total (n : Number)
  | status (w : WindowStatus)
  | cleared
  deriving DecidableEq

def readings : Op → List ℤ
  | .record _ now now' => [now, now']
  | .total now => [now]
  | .getWindowStatus now => [now]
  | .clear => []
  | .restart now now' => [now, now']

def isRestart : Op → Bool
  | .restart .. => true
  | _ => false

def perform (cfg : Config) (s : State) : Op → Option Answer × State
  | .record a now now' =>
    match record cfg s a now now' with
    | (.ok (), s) => (some .recorded, s)
    | (.error e, s) => (some (.thrown e), s)
  | .total now =>
    let (n, s) := total cfg s now
    (some (.total n), s)
  | .getWindowStatus now =>
    let (w, s) := getWindowStatus cfg s now
    (some (.status w), s)
  | .clear => (some .cleared, clear s)
  | .restart now now' => (none, restore cfg s.db now now')

/-- What a sequence of operations returns and throws. -/
def answers (cfg : Config) : State → List Op → List Answer
  | _, [] => []
  | s, op :: ops => (perform cfg s op).1.toList ++ answers cfg (perform cfg s op).2 ops

structure Entry where
  amount : ℚ
  timestamp : ℤ

/-- The value of a finite decimal. -/
def value (s : String) : ℚ :=
  match parseFloat s with
  | .finite q => q
  | _ => 0

def live (cfg : Config) (history : List Entry) (now : ℤ) : List Entry :=
  history.filter fun e => now - cfg.windowMs ≤ e.timestamp

def spent (cfg : Config) (history : List Entry) (now : ℤ) : ℚ :=
  ((live cfg history now).map Entry.amount).sum

def note (history : List Entry) : Op → List Entry
  | .record a now _ => history ++ [⟨value a, now⟩]
  | .clear => []
  | _ => history

def answer (cfg : Config) (history : List Entry) : Op → Option Answer
  | .record a now now' =>
    let sum := spent cfg (history ++ [⟨value a, now⟩]) now'
    let limit := value cfg.spendingLimit
    if limit < sum then some (.thrown ⟨.finite sum, .finite limit⟩) else some .recorded
  | .total now => some (.total (.finite (spent cfg history now)))
  | .getWindowStatus now => some (.status ⟨.finite (spent cfg history now),
      (live cfg history now).length, cfg.windowMs,
      ((live cfg history now).map Entry.timestamp).min?⟩)
  | .clear => some .cleared
  | .restart .. => none

def expected (cfg : Config) : List Entry → List Op → List Answer
  | _, [] => []
  | history, op :: ops => (answer cfg history op).toList ++ expected cfg (note history op) ops

def Entry.toRecord (e : Entry) : SpendingRecord := ⟨.finite e.amount, e.timestamp⟩

/-- Every recorded amount is a finite decimal. -/
def Finite (op : Op) : Prop :=
  ∀ a now now', op = .record a now now' → ∃ q, parseFloat a = .finite q

/-- The clock never goes back. -/
def Chronological (ops : List Op) : Prop := (ops.flatMap readings).Pairwise (· ≤ ·)

instance (ops : List Op) : Decidable (Chronological ops) :=
  inferInstanceAs (Decidable ((ops.flatMap readings).Pairwise (· ≤ ·)))

variable {cfg : Config} {history : List Entry} {clock now now' : ℤ} {s : State} {op : Op}

theorem limit_eq (cfg : Config) :
    parseFloat cfg.spendingLimit = .finite (value cfg.spendingLimit) ∧
      0 ≤ value cfg.spendingLimit := by
  have hv := cfg.limit_valid
  rw [spendingLimitSchema, Bool.and_eq_true] at hv
  obtain ⟨q, hq, h0⟩ := parseFloat_of_isDecimal hv.1
  have hvalue : value cfg.spendingLimit = q := by
    rw [value, hq]
  rw [hvalue]
  exact ⟨hq, h0⟩

theorem window_toRecord (cfg : Config) (history : List Entry) (now : ℤ) :
    window cfg (history.map Entry.toRecord) now =
      (live cfg history now).map Entry.toRecord := since_map ..

theorem sumAmounts_toRecord (es : List Entry) :
    sumAmounts (es.map Entry.toRecord) = .finite (es.map Entry.amount).sum := by
  rw [← sum_finite, sumAmounts, sumAmountsIn, Doubles.Arithmetic.sum_exact, List.map_map,
    List.map_map]
  rfl

theorem sumAmounts_window (cfg : Config) (history : List Entry) (now : ℤ) :
    sumAmounts (window cfg (history.map Entry.toRecord) now) = .finite (spent cfg history now) := by
  rw [window_toRecord, sumAmounts_toRecord, spent]

theorem head?_eq_min? {ts : List ℤ} (h : ts.Pairwise (· ≤ ·)) : ts.head? = ts.min? := by
  cases ts with
  | nil => rfl
  | cons t ts =>
    refine (List.min?_eq_some_iff.mpr ⟨by simp, fun b hb => ?_⟩).symm
    obtain rfl | hb := List.mem_cons.mp hb
    · exact le_rfl
    · exact (List.pairwise_cons.mp h).1 b hb

theorem oldest_window (h : Tracks cfg (history.map Entry.toRecord) clock s) (now : ℤ) :
    (window cfg (history.map Entry.toRecord) now).head?.map SpendingRecord.timestamp =
      ((live cfg history now).map Entry.timestamp).min? := by
  have ho : Ordered SpendingRecord.timestamp (window cfg (history.map Entry.toRecord) now) :=
    h.ordered.since _
  have hmap : (window cfg (history.map Entry.toRecord) now).map SpendingRecord.timestamp =
      (live cfg history now).map Entry.timestamp := by
    rw [window_toRecord, List.map_map]
    rfl
  rw [← hmap, ← head?_eq_min? (List.pairwise_map.mpr ho), List.head?_map]

theorem record_accounts (h : Tracks cfg (history.map Entry.toRecord) clock s) (hc : clock ≤ now)
    (hc' : now ≤ now') {a : String} {q : ℚ} (ha : parseFloat a = .finite q) :
    let sum := spent cfg (history ++ [⟨q, now⟩]) now'
    (record cfg s a now now').1 =
        (if value cfg.spendingLimit < sum then
          .error ⟨.finite sum, .finite (value cfg.spendingLimit)⟩ else .ok ()) ∧
      Tracks cfg (List.map Entry.toRecord (history ++ [⟨q, now⟩])) now'
        (record cfg s a now now').2 := by
  have hn : (parseFloat a).isNaN = false := by
    rw [ha]
    rfl
  obtain ⟨hout, ht⟩ : _ ∧ _ := record_tracks h hc hc' hn
  have hnote : history.map Entry.toRecord ++ [(⟨parseFloat a, now⟩ : SpendingRecord)] =
      List.map Entry.toRecord (history ++ [⟨q, now⟩]) := by
    rw [ha, List.map_append]
    rfl
  rw [hnote, sumAmounts_window, (limit_eq cfg).1] at hout
  rw [hnote] at ht
  refine ⟨hout.trans ?_, ht⟩
  simp [Number.isNaN, Number.lt]

theorem perform_record (h : Tracks cfg (history.map Entry.toRecord) clock s) (hc : clock ≤ now)
    (hc' : now ≤ now') {a : String} {q : ℚ} (ha : parseFloat a = .finite q) :
    (perform cfg s (.record a now now')).1 = answer cfg history (.record a now now') ∧
      Tracks cfg ((note history (.record a now now')).map Entry.toRecord) now'
        (perform cfg s (.record a now now')).2 := by
  obtain ⟨hout, ht⟩ : _ ∧ _ := record_accounts h hc hc' ha
  have hv : value a = q := by
    rw [value, ha]
  subst hv
  generalize hr : record cfg s a now now' = r at hout ht
  obtain ⟨out, s'⟩ := r
  change out = _ at hout
  split at hout
  · rename_i hlt
    subst hout
    simp only [perform, hr]
    exact ⟨(if_pos hlt).symm, ht⟩
  · rename_i hlt
    subst hout
    simp only [perform, hr]
    exact ⟨(if_neg hlt).symm, ht⟩

theorem perform_answers (h : Tracks cfg (history.map Entry.toRecord) clock s)
    (hop : (clock :: readings op).Pairwise (· ≤ ·)) (hf : Finite op) :
    (perform cfg s op).1 = answer cfg history op ∧
      Tracks cfg ((note history op).map Entry.toRecord) ((readings op).getLastD clock)
        (perform cfg s op).2 := by
  cases op with
  | record a now now' =>
    obtain ⟨q, hq⟩ := hf a now now' rfl
    simp only [readings, List.pairwise_cons, List.mem_cons] at hop
    exact perform_record h (hop.1 now (.inl rfl)) (hop.2.1 now' (.inl rfl)) hq
  | total now =>
    have hc : clock ≤ now := (List.pairwise_cons.mp hop).1 now (List.mem_singleton_self now)
    obtain ⟨hn, ht⟩ := total_tracks h hc
    rw [sumAmounts_window] at hn
    exact ⟨congrArg (fun n => some (Answer.total n)) hn, ht⟩
  | getWindowStatus now =>
    have hc : clock ≤ now := (List.pairwise_cons.mp hop).1 now (List.mem_singleton_self now)
    obtain ⟨hw, ht⟩ := getWindowStatus_tracks h hc
    rw [sumAmounts_window, oldest_window h, window_toRecord, List.length_map] at hw
    exact ⟨congrArg (fun w => some (Answer.status w)) hw, ht⟩
  | clear => exact ⟨rfl, Tracks.empty cfg clock⟩
  | restart now now' =>
    simp only [readings, List.pairwise_cons, List.mem_cons] at hop
    exact ⟨rfl, restore_tracks h (hop.1 now (.inl rfl)) (hop.2.1 now' (.inl rfl))⟩

theorem answers_expected (ops : List Op) (h : Tracks cfg (history.map Entry.toRecord) clock s)
    (hclock : (clock :: ops.flatMap readings).Pairwise (· ≤ ·)) (hf : ∀ op ∈ ops, Finite op) :
    answers cfg s ops = expected cfg history ops := by
  induction ops generalizing history clock s with
  | nil => rfl
  | cons op ops ih =>
    rw [List.flatMap_cons] at hclock
    obtain ⟨hop, hnext⟩ := pairwise_split hclock
    obtain ⟨ha, ht⟩ := perform_answers h hop (hf op List.mem_cons_self)
    rw [answers, expected, ha, ih ht hnext fun op hop => hf op (List.mem_cons_of_mem _ hop)]

theorem expected_filter (cfg : Config) (history : List Entry) (ops : List Op) :
    expected cfg history (ops.filter fun op => !isRestart op) = expected cfg history ops := by
  induction ops generalizing history with
  | nil => rfl
  | cons op ops ih =>
    cases op with
    | restart now now' => exact ih history
    | _ => rw [List.filter_cons_of_pos rfl, expected, expected, ih]

/-- The tracker answers exactly as the account of what has been recorded since
the last clear, and restarts, wherever they are put in, change no answer. -/
theorem accounting_exact (cfg : Config) (ops : List Op) (hclock : Chronological ops)
    (hf : ∀ op ∈ ops, Finite op) :
    answers cfg ⟨[], []⟩ ops = expected cfg [] ops ∧
    ∀ ops', Chronological ops' →
      ops'.filter (fun op => !isRestart op) = ops.filter (fun op => !isRestart op) →
      answers cfg ⟨[], []⟩ ops' = answers cfg ⟨[], []⟩ ops := by
  have hexact : ∀ ops, Chronological ops → (∀ op ∈ ops, Finite op) →
      answers cfg ⟨[], []⟩ ops = expected cfg [] ops := by
    intro ops hclock hf
    exact answers_expected ops (Tracks.empty cfg _) (pairwise_headD_cons hclock 0) hf
  refine ⟨hexact ops hclock hf, fun ops' hclock' hsame => ?_⟩
  have hf' : ∀ op ∈ ops', Finite op := by
    intro op hop a now now' ha
    have hmem : op ∈ ops.filter (fun op => !isRestart op) := by
      rw [← hsame]
      exact List.mem_filter.mpr ⟨hop, by rw [ha]; rfl⟩
    exact hf op (List.mem_of_mem_filter hmem) a now now' ha
  rw [hexact ops' hclock' hf', hexact ops hclock hf, ← expected_filter cfg [] ops', hsame,
    expected_filter]

theorem accounting_exact_across_restart :
    let cfg : Config := ⟨.testnet, "100", 1000, "USDC", by decide, by decide⟩
    let ops : List Op := [.record "60" 0 1, .restart 500 500, .getWindowStatus 1000, .total 1001]
    answers cfg ⟨[], []⟩ ops = expected cfg [] ops ∧
    ∀ ops', Chronological ops' →
      ops'.filter (fun op => !isRestart op) = ops.filter (fun op => !isRestart op) →
      answers cfg ⟨[], []⟩ ops' = answers cfg ⟨[], []⟩ ops :=
  accounting_exact _ _ (by decide) (by
    intro op hop a now now' ha
    subst ha
    simp only [List.mem_cons, Op.record.injEq, reduceCtorEq, List.not_mem_nil, or_false] at hop
    rw [hop.1]
    exact ⟨60, by decide +kernel⟩)

end PayFi.Spending.Accounting
