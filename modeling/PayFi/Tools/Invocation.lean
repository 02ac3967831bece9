import PayFi.Library.Parties
import PayFi.Tools.SorobanInvoke
import PayFi.Tools.Swap

namespace PayFi.Tools.Invocation

open Library.Machine Library.Clock Library.Numbers Library.FixedPoint Library.Results
open Library.Rounding
open Network.Submission (includes)
open Spending.Tracker Spending.Accounting Spending.Guard SorobanInvoke

variable {ScVal Key : Type}

/-- Who signs an authorization entry, as far as its credentials tell: none, the source account,
or an address with the key that could be read from it. -/
inductive Credentials (Key : Type) where
  | none
  | sourceAccount
  | address (rawKey : Option Key)

inductive FeeValue where
  | missing
  | number (n : Number)
  | text (s : String)

/-- A transaction assembled from its simulation: its authorization entries by operation, and
how many signatures it has once `sign` has been called. -/
structure AssembledTx (Key : Type) where
  operations : List (List (Credentials Key))
  fee : FeeValue
  timeBounds : Bool
  signatures : ℕ

inductive SimResult (ScVal Key : Type) where
  | error (message : String)
  | success (tx : AssembledTx Key) (events : List (DiagnosticEvent ScVal))

inductive Fault where
  | rejected (message : String)
  | simulationBudget (message : String)
  | contract (message : String)
  | unauthorized (message : String) (signer : Option String) (expected : String)
  | invalidFee
  | feeExceeds
  | spending (e : SpendingError)
  | noTimeBounds
  | noSignatures

structure Settings (ScVal Key : Type) where
  scValToNative : ScVal → Option Native
  encodeEd25519PublicKey : Key → String
  publicKey : String
  maxSorobanFeeStroops : ℕ
  spending : Config

variable (cfg : Settings ScVal Key)

def checkEntry : Credentials Key → Except Fault Unit
  | .none => .ok ()
  | .sourceAccount => .ok ()
  | .address none =>
    .error (.unauthorized "Unexpected Soroban auth signer format" none cfg.publicKey)
  | .address (some rawKey) =>
    let signer := cfg.encodeEd25519PublicKey rawKey
    if signer ≠ cfg.publicKey then
      .error (.unauthorized ("Unexpected Soroban auth signer: " ++ signer) signer cfg.publicKey)
    else .ok ()

def validateSorobanAuth (tx : AssembledTx Key) : Except Fault Unit :=
  forM tx.operations fun authEntries => forM authEntries (checkEntry cfg)

def prepareSorobanTxWithEvents :
    SimResult ScVal Key → Except Fault (AssembledTx Key × List (DiagnosticEvent ScVal))
  | .error simError =>
    let message := "Soroban simulation failed: " ++ simError
    if includes simError "budget_exceeded" then .error (.simulationBudget message)
    else .error (.contract message)
  | .success builtTx events => do
    validateSorobanAuth cfg builtTx
    return (builtTx, events)

def parsedFee : FeeValue → Option Number
  | .missing => none
  | .number (.finite q) => some (.finite q)
  | .number _ => some .nan
  | .text s =>
    if s = "" then none
    else match parseInt s with
      | some n => some (.finite n)
      | none => some .nan

def checkFee (feeValue : FeeValue) : Except Fault Unit :=
  match parsedFee feeValue with
  | none => .ok ()
  | some fee =>
    if fee.isNaN then .error .invalidFee
    else if (Number.finite cfg.maxSorobanFeeStroops).lt fee then .error .feeExceeds
    else .ok ()

inductive Outcome where
  | simulated
  | sent
  deriving DecidableEq

/-- What is left to do of a prepared and guarded invocation: a dry run returns, anything else is
signed and sent. -/
def send (tx : AssembledTx Key) (simulateOnly : Bool) : Except Fault Outcome :=
  if simulateOnly then .ok .simulated
  else if !tx.timeBounds then .error .noTimeBounds
  else if tx.signatures = 0 then .error .noSignatures
  else .ok .sent

/-- `execute` from the answer of the simulation to the submission, which it reaches without
giving way to anything else. -/
def execute (s : State) (simulation : Except String (SimResult ScVal Key)) (simulateOnly : Bool)
    (now now' : ℤ) : Except Fault Outcome × State :=
  match simulation with
  | .error message => (.error (.rejected message), s)
  | .ok simResult =>
    match prepareSorobanTxWithEvents cfg simResult with
    | .error e => (.error e, s)
    | .ok (preparedTx, events) =>
      match checkFee cfg preparedTx.fee with
      | .error e => (.error e, s)
      | .ok () =>
        match assertSacTransfersWithinSpendingLimit cfg.scValToNative cfg.spending cfg.publicKey s
            events (!simulateOnly) now now' with
        | (.error e, s) => (.error (.spending e), s)
        | (.ok (), s) => (send preparedTx simulateOnly, s)

/-- Only the agent signs for an address. -/
def OwnSigners (tx : AssembledTx Key) : Prop :=
  ∀ authEntries ∈ tx.operations, ∀ credentials ∈ authEntries, ∀ rawKey,
    credentials = .address rawKey → rawKey.map cfg.encodeEd25519PublicKey = some cfg.publicKey

def FeeWithin (fee : FeeValue) : Prop :=
  ∀ n ∈ parsedFee fee, ∃ q, n = .finite q ∧ q ≤ cfg.maxSorobanFeeStroops

variable {cfg} {tx : AssembledTx Key} {s : State} {now now' : ℤ}

theorem checkEntry_iff {credentials : Credentials Key} : checkEntry cfg credentials = .ok () ↔
    ∀ rawKey, credentials = .address rawKey →
      rawKey.map cfg.encodeEd25519PublicKey = some cfg.publicKey := by
  cases credentials with
  | none => simp [checkEntry]
  | sourceAccount => simp [checkEntry]
  | address rawKey =>
    cases rawKey with
    | none => simp [checkEntry]
    | some key => by_cases hkey : cfg.encodeEd25519PublicKey key = cfg.publicKey <;>
        simp [checkEntry, hkey]

theorem forM_eq_ok {α ε : Type} {f : α → Except ε Unit} {xs : List α} :
    forM xs f = .ok () ↔ ∀ x ∈ xs, f x = .ok () := by
  induction xs with
  | nil => simp [pure, Except.pure]
  | cons x xs ih =>
    simp only [List.forM_cons, bind_eq_ok, ih, List.forall_mem_cons]
    constructor
    · rintro ⟨u, hx, hrest⟩
      exact ⟨hx, hrest⟩
    · rintro ⟨hx, hrest⟩
      exact ⟨(), hx, hrest⟩

theorem validateSorobanAuth_iff : validateSorobanAuth cfg tx = .ok () ↔ OwnSigners cfg tx := by
  simp only [validateSorobanAuth, forM_eq_ok, checkEntry_iff, OwnSigners]

theorem parsedFee_ne_infinity (fee : FeeValue) (negative : Bool) :
    parsedFee fee ≠ some (.infinity negative) := by
  cases fee with
  | missing => simp [parsedFee]
  | number n => cases n <;> simp [parsedFee]
  | text t =>
    simp only [parsedFee]
    split
    · simp
    · split <;> simp

theorem checkFee_iff {fee : FeeValue} : checkFee cfg fee = .ok () ↔ FeeWithin cfg fee := by
  rw [checkFee, FeeWithin]
  cases hfee : parsedFee fee with
  | none => simp
  | some n =>
    cases n with
    | nan => simp [Number.isNaN]
    | infinity negative => exact absurd hfee (parsedFee_ne_infinity fee negative)
    | finite q => simp [Number.isNaN, Number.lt]

theorem prepare_iff {simResult : SimResult ScVal Key} {events : List (DiagnosticEvent ScVal)} :
    prepareSorobanTxWithEvents cfg simResult = .ok (tx, events) ↔
      simResult = .success tx events ∧ OwnSigners cfg tx := by
  cases simResult with
  | error simError =>
    simp only [prepareSorobanTxWithEvents]
    split <;> simp
  | success builtTx found =>
    simp only [prepareSorobanTxWithEvents, bind_eq_ok]
    constructor
    · rintro ⟨⟨⟩, hown, heq⟩
      cases heq
      exact ⟨rfl, validateSorobanAuth_iff.mp hown⟩
    · rintro ⟨heq, hown⟩
      cases heq
      exact ⟨(), validateSorobanAuth_iff.mpr hown, rfl⟩

theorem send_iff {simulateOnly : Bool} : send tx simulateOnly = .ok .sent ↔
    simulateOnly = false ∧ tx.timeBounds = true ∧ 0 < tx.signatures := by
  rw [send]
  cases simulateOnly with
  | true => simp
  | false =>
    cases tx.timeBounds with
    | false => simp
    | true => simp [Nat.pos_iff_ne_zero]

def Fault.late : Fault → Bool
  | .noTimeBounds | .noSignatures => true
  | _ => false

theorem exists_of_forM_error {α ε : Type} {f : α → Except ε Unit} {xs : List α} {e : ε}
    (h : forM xs f = .error e) : ∃ x ∈ xs, f x = .error e := by
  induction xs with
  | nil => cases h
  | cons x xs ih =>
    rw [List.forM_cons] at h
    cases hx : f x with
    | error e' =>
      rw [hx] at h
      cases h
      exact ⟨x, List.mem_cons_self, hx⟩
    | ok u =>
      rw [hx] at h
      obtain ⟨y, hy, hf⟩ := ih h
      exact ⟨y, List.mem_cons_of_mem _ hy, hf⟩

theorem checkEntry_late {credentials : Credentials Key} {e : Fault}
    (h : checkEntry cfg credentials = .error e) : e.late = false := by
  unfold checkEntry at h
  split at h
  · cases h
  · cases h
  · cases h
    rfl
  · simp only at h
    split at h
    · cases h
      rfl
    · cases h

theorem prepare_late {simResult : SimResult ScVal Key} {e : Fault}
    (h : prepareSorobanTxWithEvents cfg simResult = .error e) : e.late = false := by
  cases simResult with
  | error simError =>
    simp only [prepareSorobanTxWithEvents] at h
    split at h
    · cases h
      rfl
    · cases h
      rfl
  | success builtTx events =>
    simp only [prepareSorobanTxWithEvents] at h
    cases hvalid : validateSorobanAuth cfg builtTx with
    | ok u =>
      rw [hvalid] at h
      cases h
    | error e' =>
      rw [hvalid] at h
      cases h
      obtain ⟨authEntries, -, hentries⟩ := exists_of_forM_error hvalid
      obtain ⟨credentials, -, hentry⟩ := exists_of_forM_error hentries
      exact checkEntry_late hentry

theorem checkFee_late {fee : FeeValue} {e : Fault} (h : checkFee cfg fee = .error e) :
    e.late = false := by
  rw [checkFee] at h
  split at h
  · cases h
  · split at h
    · cases h
      rfl
    · split at h
      · cases h
        rfl
      · cases h

/-- What a simulation leads to: a refusal at once, or the guard and then the submission of a
transaction that only the agent signs and can pay for. -/
theorem execute_cases (cfg : Settings ScVal Key) (s : State)
    (simulation : Except String (SimResult ScVal Key)) (simulateOnly : Bool) (now now' : ℤ) :
    (∃ e, e.late = false ∧ execute cfg s simulation simulateOnly now now' = (.error e, s)) ∨
      ∃ tx events, simulation = .ok (.success tx events) ∧ OwnSigners cfg tx ∧
        FeeWithin cfg tx.fee ∧
        let guarded := assertSacTransfersWithinSpendingLimit cfg.scValToNative cfg.spending
          cfg.publicKey s events (!simulateOnly) now now'
        execute cfg s simulation simulateOnly now now' =
          (guarded.1.mapError Fault.spending >>= fun _ => send tx simulateOnly, guarded.2) := by
  cases simulation with
  | error message => exact .inl ⟨_, rfl, rfl⟩
  | ok simResult =>
    cases hprepare : prepareSorobanTxWithEvents cfg simResult with
    | error e => exact .inl ⟨e, prepare_late hprepare, by simp only [execute, hprepare]⟩
    | ok prepared =>
      obtain ⟨tx, events⟩ := prepared
      obtain ⟨rfl, hown⟩ := prepare_iff.mp hprepare
      cases hfee : checkFee cfg tx.fee with
      | error e => exact .inl ⟨e, checkFee_late hfee, by simp only [execute, hprepare, hfee]⟩
      | ok u =>
        refine .inr ⟨tx, events, rfl, hown, checkFee_iff.mp hfee, ?_⟩
        simp only [execute, hprepare, hfee]
        generalize assertSacTransfersWithinSpendingLimit cfg.scValToNative cfg.spending
          cfg.publicKey s events (!simulateOnly) now now' = guarded
        obtain ⟨out, s'⟩ := guarded
        cases out with
        | ok => rfl
        | error => rfl

/-- An invocation is sent exactly when its simulation succeeds without a foreign signer or too
high a fee, the guard passes its debit, and the transaction is bounded in time and signed. -/
theorem sent_iff (cfg : Settings ScVal Key) (s : State)
    (simulation : Except String (SimResult ScVal Key)) (simulateOnly : Bool) (now now' : ℤ) :
    (execute cfg s simulation simulateOnly now now').1 = .ok .sent ↔
      simulateOnly = false ∧ ∃ tx events, simulation = .ok (.success tx events) ∧
        OwnSigners cfg tx ∧ FeeWithin cfg tx.fee ∧ tx.timeBounds = true ∧ 0 < tx.signatures ∧
        (assertSacTransfersWithinSpendingLimit cfg.scValToNative cfg.spending cfg.publicKey s
          events true now now').1 = .ok () := by
  constructor
  · intro hsent
    obtain ⟨e, -, hexecute⟩ | ⟨tx, events, rfl, hown, hfee, hexecute⟩ :=
      execute_cases cfg s simulation simulateOnly now now'
    · rw [hexecute] at hsent
      cases hsent
    · rw [hexecute] at hsent
      obtain ⟨u, hguard, hsend⟩ := bind_eq_ok.mp hsent
      obtain ⟨rfl, htime, hsigned⟩ := send_iff.mp hsend
      refine ⟨rfl, tx, events, rfl, hown, hfee, htime, hsigned, ?_⟩
      revert hguard
      rw [Bool.not_false]
      generalize (assertSacTransfersWithinSpendingLimit cfg.scValToNative cfg.spending
        cfg.publicKey s events true now now').1 = guarded
      cases guarded with
      | error e =>
        intro hguard
        cases hguard
      | ok u => exact fun _ => rfl
  · rintro ⟨rfl, tx, events, rfl, hown, hfee, htime, hsigned, hguard⟩
    have hprepare : prepareSorobanTxWithEvents cfg (.success tx events) = .ok (tx, events) :=
      prepare_iff.mpr ⟨rfl, hown⟩
    have hsend : send tx false = .ok .sent := send_iff.mpr ⟨rfl, htime, hsigned⟩
    simp only [execute, hprepare, checkFee_iff.mpr hfee, Bool.not_false]
    revert hguard
    generalize assertSacTransfersWithinSpendingLimit cfg.scValToNative cfg.spending
      cfg.publicKey s events true now now' = guarded
    obtain ⟨out, s'⟩ := guarded
    rintro rfl
    exact hsend

/-- An invocation at the end of its `execute`, with what each of the events of its simulation has
debited. -/
structure InvokeTask where
  debits : List ℤ
  time : ℤ
  out : Except Fault Outcome

def InvokeTask.raw (k : InvokeTask) : ℤ := k.debits.sum

def InvokeTask.spent (k : InvokeTask) : ℕ := (k.debits.map Int.toNat).sum

inductive Spend where
  | payment (k : Task)
  | invocation (k : InvokeTask)

/-- The tracker, and what has been spent of it, in the order of the guards. -/
structure Spender where
  tracker : State
  spends : List Spend

inductive Action (ScVal Key : Type) where
  | payment (a : Spending.Guard.Action)
  | invoke (simulation : Except String (SimResult ScVal Key)) (simulateOnly : Bool) (now now' : ℤ)

def Spend.submit : Spend → Spend
  | .payment k => .payment k.submit
  | .invocation k => .invocation k

def Spend.lose : Spend → Spend
  | .payment k => .payment k.lose
  | .invocation k => .invocation k

def debitsOf (cfg : Settings ScVal Key) : Except String (SimResult ScVal Key) → List ℤ
  | .ok (.success _ events) => events.filterMap (debit cfg.scValToNative cfg.publicKey)
  | _ => []

def step (cfg : Settings ScVal Key) (g : Spender) : Action ScVal Key → Spender
  | .payment (.guard amount now now') =>
    let (out, tracker) := assertWithinSpendingLimit cfg.spending g.tracker amount now now'
    ⟨tracker, g.spends ++ [.payment ⟨amount, now, statusOf out⟩]⟩
  | .payment (.submit i) => { g with spends := g.spends.modify i Spend.submit }
  | .payment (.restart now now') =>
    ⟨restore cfg.spending g.tracker.db now now', g.spends.map Spend.lose⟩
  | .invoke simulation simulateOnly now now' =>
    let (out, tracker) := execute cfg g.tracker simulation simulateOnly now now'
    ⟨tracker, g.spends ++ [.invocation ⟨debitsOf cfg simulation, now, out⟩]⟩

def readings : Action ScVal Key → List ℤ
  | .payment a => Spending.Guard.readings a
  | .invoke _ _ now now' => [now, now']

/-- The clock never goes back. -/
def Chronological (as : List (Action ScVal Key)) : Prop :=
  (as.flatMap readings).Pairwise (· ≤ ·)

def payments (ks : List Spend) : List Task := ks.filterMap fun
  | .payment k => some k
  | .invocation _ => none

def invocations (ks : List Spend) : List InvokeTask := ks.filterMap fun
  | .payment _ => none
  | .invocation k => some k

def InvokeTask.sent (k : InvokeTask) : Bool :=
  match k.out with
  | .ok .sent => true
  | _ => false

/-- What the invocations sent in the window that ends at `t` debit. -/
def debited (cfg : Config) (ks : List InvokeTask) (t : ℤ) : ℚ :=
  ((ks.filter fun k => k.sent ∧ t - cfg.windowMs ≤ k.time ∧ k.time ≤ t).map fun k =>
    (k.spent : ℚ) / 10 ^ 7).sum

def Bounded (cfg : Config) (g : Spender) : Prop :=
  ∀ t, paid cfg (payments g.spends) t + debited cfg (invocations g.spends) t ≤
    value cfg.spendingLimit

/-- A payment is harmless on its own terms; no event of an invocation debits a negative amount,
and no record leaves the window between the two clock readings of its guard. -/
def Harmless (cfg : Settings ScVal Key) (u : Transition Spender (Action ScVal Key)) : Prop :=
  match u.action with
  | .payment (.guard (some a) now now') => (parseFloat a).lt (.finite 0) = false ∧
      ∀ t ∈ now :: u.before.tracker.records.map SpendingRecord.timestamp,
        now - cfg.spending.windowMs ≤ t → now' - cfg.spending.windowMs ≤ t
  | .payment _ => True
  | .invoke simulation _ now now' => (∀ n ∈ debitsOf cfg simulation, 0 ≤ n) ∧
      ∀ t ∈ now :: u.before.tracker.records.map SpendingRecord.timestamp,
        now - cfg.spending.windowMs ≤ t → now' - cfg.spending.windowMs ≤ t

instance (cfg : Settings ScVal Key) : (u : Transition Spender (Action ScVal Key)) →
    Decidable (Harmless cfg u)
  | ⟨_, .payment (.guard (some _) _ _), _⟩ => inferInstanceAs (Decidable (_ ∧ _))
  | ⟨_, .payment (.guard none _ _), _⟩ => .isTrue trivial
  | ⟨_, .payment (.submit _), _⟩ => .isTrue trivial
  | ⟨_, .payment (.restart _ _), _⟩ => .isTrue trivial
  | ⟨_, .invoke _ _ _ _, _⟩ => inferInstanceAs (Decidable (_ ∧ _))

def fateOf : Except Fault Outcome → Status
  | .ok .sent => .submitted
  | .ok .simulated => .rejected
  | .error e => if e.late then .lost else .rejected

def InvokeTask.toTask (k : InvokeTask) : Task :=
  if 0 < k.raw then ⟨some (sacRawToDecimal k.raw), k.time, fateOf k.out⟩
  else ⟨none, k.time, .rejected⟩

def Spend.toTask : Spend → Task
  | .payment k => k
  | .invocation k => k.toTask

def Spender.abs (g : Spender) : Agent := ⟨g.tracker, g.spends.map Spend.toTask⟩

variable {g : Spender} {history : List Entry} {clock : ℤ} {raw : ℤ}

theorem amount_accepted (hraw : 0 < raw) : paymentAmountSchema (sacRawToDecimal raw) = true := by
  obtain ⟨n, rfl⟩ := Int.eq_ofNat_of_zero_le hraw.le
  have hn : 0 < n := by omega
  simp only [paymentAmountSchema, toList_sacRawToDecimal, parseFloat_sacRawToDecimal,
    isDecimal_render, Bool.true_and, Number.lt, Bool.and_eq_true, Bool.not_eq_true',
    decide_eq_true_eq]
  refine ⟨Bool.eq_false_iff.mpr fun h => hn.ne' (Swap.isZero_render h), ?_⟩
  positivity

theorem fateOf_ne_pending (out : Except Fault Outcome) : fateOf out ≠ .pending := by
  unfold fateOf
  split
  · simp
  · simp
  · split <;> simp

theorem toTask_status (k : InvokeTask) : k.toTask.status ≠ .pending := by
  rw [InvokeTask.toTask]
  split
  · exact fateOf_ne_pending k.out
  · simp

theorem toTask_lose (k : Spend) : k.lose.toTask = k.toTask.lose := by
  cases k with
  | payment k => rfl
  | invocation k => exact (if_neg (toTask_status k)).symm

theorem toTask_submit (k : Spend) : k.submit.toTask = k.toTask.submit := by
  cases k with
  | payment k => rfl
  | invocation k => exact (if_neg fun h => toTask_status k h.1).symm

theorem abs_payment (cfg : Settings ScVal Key) (g : Spender) (a : Spending.Guard.Action) :
    (step cfg g (.payment a)).abs = Spending.Guard.step cfg.spending g.abs a := by
  cases a with
  | guard amount now now' =>
    simp only [step, Spending.Guard.step, Spender.abs]
    generalize assertWithinSpendingLimit cfg.spending g.tracker amount now now' = guarded
    simp [Spend.toTask]
  | submit i =>
    simp only [step, Spending.Guard.step, Spender.abs, Agent.mk.injEq, true_and]
    exact Library.Parties.map_modify toTask_submit _ _
  | restart now now' =>
    simp only [step, Spending.Guard.step, Spender.abs, Agent.mk.injEq, true_and, List.map_map]
    exact List.map_congr_left fun k _ => toTask_lose k

theorem toTask_of_fate {k : InvokeTask} (h : fateOf k.out = .rejected) :
    k.toTask.status = .rejected := by
  rw [InvokeTask.toTask]
  split
  · exact h
  · rfl

theorem toTask_of_nonpos {k : InvokeTask} (h : ¬0 < k.raw) : k.toTask.status = .rejected := by
  rw [InvokeTask.toTask, if_neg h]

theorem fateOf_dryRun (guarded : Except SpendingError Unit) (tx : AssembledTx Key) :
    fateOf (guarded.mapError Fault.spending >>= fun _ => send tx true) = .rejected := by
  cases guarded with
  | error e => rfl
  | ok u => rfl

theorem entry_none {k : InvokeTask} (h : k.toTask.status = .rejected) : k.toTask.entry = none := by
  rw [Task.entry, if_pos h]

theorem dryRun_state (cfg : Settings ScVal Key) (s : State)
    (events : List (DiagnosticEvent ScVal)) (now now' : ℤ) :
    (assertSacTransfersWithinSpendingLimit cfg.scValToNative cfg.spending cfg.publicKey s events
      false now now').2 = s := by
  simp only [assertSacTransfersWithinSpendingLimit, assertSacTransfersWithinSpendingLimitIn]
  split
  · rfl
  · split
    · rfl
    · split <;> rfl

theorem fateOf_send (tx : AssembledTx Key) :
    fateOf (send tx false) = .submitted ∨ fateOf (send tx false) = .lost := by
  simp only [send, Bool.false_eq_true, if_false]
  split
  · exact .inr rfl
  · split
    · exact .inr rfl
    · exact .inl rfl

theorem recorded_guarded (h : Guarded cfg.spending history clock g.abs) (hc : clock ≤ now)
    (hc' : now ≤ now') {events : List (DiagnosticEvent ScVal)}
    (hraw : 0 < extractSacTransferTotal cfg.scValToNative events cfg.publicKey)
    (hkeep : ∀ t ∈ now :: g.tracker.records.map SpendingRecord.timestamp,
      now - cfg.spending.windowMs ≤ t → now' - cfg.spending.windowMs ≤ t) :
    let guarded := assertSacTransfersWithinSpendingLimit cfg.scValToNative cfg.spending
      cfg.publicKey g.tracker events true now now'
    ∃ history', ∀ out : Except Fault Outcome, out = (guarded.1.mapError Fault.spending >>=
        fun _ => send tx false) →
      Guarded cfg.spending history' now' ⟨guarded.2,
        g.abs.tasks ++ [(⟨events.filterMap (debit cfg.scValToNative cfg.publicKey), now, out⟩ :
          InvokeTask).toTask]⟩ := by
  intro guarded
  obtain ⟨n, hn⟩ := Int.eq_ofNat_of_zero_le hraw.le
  have hpos : 0 < n := by omega
  have htotal : (events.filterMap (debit cfg.scValToNative cfg.publicKey)).sum = n :=
    (extractSacTransferTotal_eq events).symm.trans hn
  obtain ⟨hok, hstate⟩ := assertSac_eq_assertWithin cfg.spending hpos hn g.tracker now now'
  have hnonneg : (parseFloat (sacRawToDecimal n)).lt (.finite 0) = false := by
    rw [parseFloat_sacRawToDecimal, Number.lt, decide_eq_false_iff_not, not_lt]
    positivity
  obtain ⟨history', hg⟩ := guard_guarded h hc hc' (some (sacRawToDecimal n)) ⟨hnonneg, hkeep⟩
  obtain ⟨paid, tracker, hpaid⟩ : ∃ paid tracker, assertWithinSpendingLimit cfg.spending g.tracker
      (some (sacRawToDecimal n)) now now' = (paid, tracker) := ⟨_, _, rfl⟩
  rw [step_guard (g := g.abs) hpaid] at hg
  rw [hpaid] at hok hstate
  refine ⟨history', fun out hout => ?_⟩
  rw [show guarded.2 = tracker from hstate, InvokeTask.toTask, InvokeTask.raw, htotal,
    if_pos (by omega)]
  change guarded.1.isOk = paid.isOk at hok
  cases hresult : guarded.1 with
  | error e =>
    rw [hresult] at hout hok
    cases paid with
    | error e' =>
      rw [hout]
      exact hg
    | ok u => cases hok
  | ok u =>
    rw [hresult] at hout hok
    cases paid with
    | error e' => cases hok
    | ok u' =>
      have hsend : fateOf out = .submitted ∨ fateOf out = .lost := hout ▸ fateOf_send tx
      have hentry : (⟨some (sacRawToDecimal n), now, fateOf out⟩ : Task).entry =
          (⟨some (sacRawToDecimal n), now, statusOf (.ok u')⟩ : Task).entry := by
        obtain hfate | hfate := hsend <;> simp [Task.entry, hfate, statusOf]
      refine hg.relabel hg.tracks ?_ fun k hk hs => ?_
      · simp only [passed, List.filterMap_append]
        refine congrArg (_ ++ ·) ?_
        simp only [List.filterMap_cons, List.filterMap_nil, hentry]
      · obtain hk | hk := List.mem_append.mp hk
        · exact h.valid k hk hs
        · rw [List.mem_singleton.mp hk]
          exact amount_accepted (hn ▸ hraw)

theorem invoke_guarded (h : Guarded cfg.spending history clock g.abs) (hc : clock ≤ now)
    (hc' : now ≤ now') (simulation : Except String (SimResult ScVal Key)) (simulateOnly : Bool)
    (hkeep : ∀ t ∈ now :: g.tracker.records.map SpendingRecord.timestamp,
      now - cfg.spending.windowMs ≤ t → now' - cfg.spending.windowMs ≤ t) :
    ∃ history', Guarded cfg.spending history' now'
      (step cfg g (.invoke simulation simulateOnly now now')).abs := by
  have hskip : ∀ k : InvokeTask, k.toTask.status = .rejected →
      Guarded cfg.spending history now' ⟨g.tracker, g.abs.tasks ++ [k.toTask]⟩ := fun k hk =>
    h.skip (h.tracks.later (hc.trans hc')) (.refl _) h.nonneg (entry_none hk) (by simp [hk])
  have habs : (step cfg g (.invoke simulation simulateOnly now now')).abs =
      ⟨(execute cfg g.tracker simulation simulateOnly now now').2, g.abs.tasks ++ [(⟨debitsOf cfg
        simulation, now, (execute cfg g.tracker simulation simulateOnly now now').1⟩ :
        InvokeTask).toTask]⟩ := by
    simp [step, Spender.abs, Spend.toTask]
  rw [habs]
  obtain ⟨e, hlate, hexecute⟩ | ⟨tx, events, rfl, -, -, hexecute⟩ :=
    execute_cases cfg g.tracker simulation simulateOnly now now'
  · rw [hexecute]
    refine ⟨history, hskip _ (toTask_of_fate ?_)⟩
    simp [fateOf, hlate]
  · rw [hexecute]
    by_cases hraw : 0 < extractSacTransferTotal cfg.scValToNative events cfg.publicKey
    · cases simulateOnly with
      | true =>
        rw [Bool.not_true, dryRun_state]
        exact ⟨history, hskip _ (toTask_of_fate (fateOf_dryRun ..))⟩
      | false =>
        obtain ⟨history', hg⟩ := recorded_guarded h hc hc' hraw hkeep
        exact ⟨history', hg _ rfl⟩
    · -- nothing is debited, and nothing is recorded
      have hstate : (assertSacTransfersWithinSpendingLimit cfg.scValToNative cfg.spending
          cfg.publicKey g.tracker events (!simulateOnly) now now').2 = g.tracker := by
        simp only [assertSacTransfersWithinSpendingLimit, assertSacTransfersWithinSpendingLimitIn,
          if_pos (not_lt.mp hraw)]
      rw [hstate]
      rw [extractSacTransferTotal_eq] at hraw
      exact ⟨history, hskip _ (toTask_of_nonpos hraw)⟩

theorem step_guarded (a : Action ScVal Key)
    (h : ∃ history, Guarded cfg.spending history clock g.abs)
    (hclock : (clock :: readings a).Pairwise (· ≤ ·)) (hgood : Harmless cfg ⟨g, a, step cfg g a⟩) :
    ∃ history, Guarded cfg.spending history ((readings a).getLastD clock) (step cfg g a).abs := by
  obtain ⟨history, h⟩ := h
  cases a with
  | payment a =>
    rw [abs_payment]
    refine Spending.Guard.step_guarded h a hclock ?_
    cases a with
    | guard amount now now' =>
      cases amount with
      | none => trivial
      | some amount => exact hgood
    | submit i => trivial
    | restart now now' => trivial
  | invoke simulation simulateOnly now now' =>
    simp only [readings, List.pairwise_cons, List.mem_cons] at hclock
    exact invoke_guarded h (hclock.1 now (.inl rfl)) (hclock.2.1 now' (.inl rfl)) simulation
      simulateOnly hgood.2

def Genuine (k : InvokeTask) : Prop := ∀ n ∈ k.debits, 0 ≤ n

theorem Genuine.spent_eq {k : InvokeTask} (h : Genuine k) : (k.spent : ℤ) = k.raw := by
  obtain ⟨debits, time, out⟩ := k
  rw [InvokeTask.spent, InvokeTask.raw]
  dsimp only
  induction debits with
  | nil => rfl
  | cons n debits ih =>
    obtain ⟨hn, hrest⟩ := List.forall_mem_cons.mp h
    rw [List.map_cons, List.sum_cons, List.sum_cons, Nat.cast_add, ih hrest, Int.toNat_of_nonneg hn]

def idle : Spender := ⟨⟨[], []⟩, []⟩

end PayFi.Tools.Invocation
