import PayFi.Spending.Batch
import PayFi.Tools.Rebuilding

namespace PayFi.Tools.BatchPayment

open Library.Numbers Library.Doubles Library.Results Network.Submission Payment
open Spending.Accounting Spending.Batch

/-- The operation that the SDK makes of a payment. -/
structure PaymentOperation where
  destination : String
  asset : Asset
  amount : String
  deriving DecidableEq

structure BatchTransaction where
  sequence : ℤ
  operations : List PaymentOperation
  memo : Option Memo
  deriving DecidableEq

structure BatchPaymentResult where
  txHash : String
  ledger : ℕ
  skipped : ℕ

inductive BatchFault where
  | check (e : BatchError)
  | fault (e : Fault)

/-- The check of every payment from the `i`-th on, with the problems found so far; failing fast,
it ends with the first one. -/
def preflightLoop (failFast : Bool) (total : ℕ) : List PaymentInput → ℕ → List String →
    Except BatchError Unit
  | [], _, problems =>
    if problems ≠ [] then .error (.preflight ("; ".intercalate problems) 0) else .ok ()
  | p :: ps, i, problems =>
    match problem p i with
    | none => preflightLoop failFast total ps (i + 1) problems
    | some m =>
      if failFast then .error (.preflight ((problems ++ [m]).headD "") (total - i - 1))
      else preflightLoop failFast total ps (i + 1) (problems ++ [m])

/-- What `execute` checks before it loads the account. -/
def checkPayments (A : Arithmetic) (cfg : Spending.Tracker.Config) (sdk : Sdk) (raw : RawBatch) :
    Except BatchError (List PaymentInput) := do
  let input ← (batchPaymentInputSchema sdk raw).mapError .zod
  let total := batchTotalIn A input.payments
  if (A.parseFloat cfg.spendingLimit).lt total then
    throw (.limit total cfg.assetCode cfg.spendingLimit)
  preflightLoop input.failFast input.payments.length input.payments 0 []
  return input.payments

def operationOf (sdk : Sdk) (p : PaymentInput) : Except Fault PaymentOperation := do
  let issuer := p.assetIssuer.getD ""
  if p.assetCode ≠ "XLM" then sdk.newAsset p.assetCode issuer
  let asset := if p.assetCode = "XLM" then .native else .issued p.assetCode issuer
  sdk.payment p.destination asset p.amount
  return ⟨p.destination, asset, p.amount⟩

/-- How a call ends, whether it has asked for the account, and the transaction that it has handed
to `submitTransaction`. -/
structure Outcome where
  result : Except BatchFault BatchPaymentResult
  loaded : Bool
  submitted : Option BatchTransaction

def execute (A : Arithmetic) (cfg : Spending.Tracker.Config) (sdk : Sdk) (raw : RawBatch)
    (account : Except Fault ℤ) (receipt : Except Fault SubmitResult) : Outcome :=
  match checkPayments A cfg sdk raw with
  | .error e => ⟨.error (.check e), false, none⟩
  | .ok payments =>
    match account with
    | .error e => ⟨.error (.fault e), true, none⟩
    | .ok sequence =>
      match payments.mapM (operationOf sdk) with
      | .error e => ⟨.error (.fault e), true, none⟩
      | .ok operations =>
        ⟨((receipt.bind fun r => (Rebuilding.submitResultSchema r).mapError .zod).map
            fun (hash, ledger) => ⟨hash, ledger, 0⟩).mapError .fault, true,
          some ⟨sequence + 1, operations, none⟩⟩

/-- A payment in an asset that is not the native one and has no issuer. -/
def LacksIssuer (p : PaymentInput) : Prop := p.assetCode ≠ "XLM" ∧ truthy p.assetIssuer = false

instance (p : PaymentInput) : Decidable (LacksIssuer p) := inferInstanceAs (Decidable (_ ∧ _))

def problemText (p : PaymentInput) (i : ℕ) : String :=
  "payment " ++ toString i ++ ": Asset issuer is required for non-native asset " ++ p.assetCode

/-- What is said of the payments without an issuer, in order, when the first one has the
number `i`. -/
def problemsFrom (i : ℕ) (ps : List PaymentInput) : List String :=
  ((ps.zipIdx i).filter fun (p, _) => LacksIssuer p).map fun (p, j) => problemText p j

variable {A : Arithmetic} {cfg : Spending.Tracker.Config} {sdk : Sdk}
  {ps payments : List PaymentInput}
  {p : PaymentInput} {failFast : Bool} {total i : ℕ} {raws : Option (List RawPayment)}

theorem problem_eq (p : PaymentInput) (i : ℕ) :
    problem p i = if LacksIssuer p then some (problemText p i) else none := by
  unfold problem problemText LacksIssuer
  refine if_congr ?_ rfl rfl
  rw [Bool.not_eq_true']

theorem problemsFrom_cons (i : ℕ) (p : PaymentInput) (ps : List PaymentInput) :
    problemsFrom i (p :: ps) =
      if LacksIssuer p then problemText p i :: problemsFrom (i + 1) ps
      else problemsFrom (i + 1) ps := by
  by_cases h : LacksIssuer p <;> simp [problemsFrom, List.zipIdx_cons, h]

theorem problemsFrom_eq_nil : problemsFrom i ps = [] ↔ ∀ p ∈ ps, ¬LacksIssuer p := by
  induction ps generalizing i with
  | nil => exact iff_of_true rfl (List.forall_mem_nil _)
  | cons p ps ih =>
    rw [problemsFrom_cons, List.forall_mem_cons]
    split
    · rename_i h
      exact iff_of_false (List.cons_ne_nil _ _) fun hall => hall.1 h
    · rename_i h
      exact ih.trans ⟨fun hall => ⟨h, hall⟩, fun hall => hall.2⟩

theorem preflightLoop_all (problems : List String) :
    preflightLoop false total ps i problems =
      if problems ++ problemsFrom i ps ≠ [] then
        .error (.preflight ("; ".intercalate (problems ++ problemsFrom i ps)) 0)
      else .ok () := by
  induction ps generalizing i problems with
  | nil =>
    simp only [problemsFrom, List.zipIdx_nil, List.filter_nil, List.map_nil, List.append_nil]
    rfl
  | cons p ps ih =>
    rw [preflightLoop, problem_eq, problemsFrom_cons]
    by_cases h : LacksIssuer p
    · simp only [if_pos h, Bool.false_eq_true, if_false]
      rw [ih, List.append_assoc, List.singleton_append]
    · simp only [if_neg h]
      exact ih problems

theorem preflightLoop_cons (p : PaymentInput) (ps : List PaymentInput) (i : ℕ) :
    preflightLoop true total (p :: ps) i [] =
      if LacksIssuer p then .error (.preflight (problemText p i) (total - i - 1))
      else preflightLoop true total ps (i + 1) [] := by
  rw [preflightLoop, problem_eq]
  by_cases h : LacksIssuer p
  · simp only [if_pos h]
    rfl
  · simp only [if_neg h]

/-- The problems from the `i`-th payment on, with the numbers of their payments. -/
def numbered (i : ℕ) (ps : List PaymentInput) : List (String × ℕ) :=
  (ps.zipIdx i).filterMap fun (p, j) => (problem p j).map fun m => (m, j)

theorem numbered_cons (i : ℕ) (p : PaymentInput) (ps : List PaymentInput) :
    numbered i (p :: ps) =
      if LacksIssuer p then (problemText p i, i) :: numbered (i + 1) ps
      else numbered (i + 1) ps := by
  by_cases h : LacksIssuer p <;> simp [numbered, List.zipIdx_cons, problem_eq, h]

theorem map_fst_numbered (i : ℕ) (ps : List PaymentInput) :
    (numbered i ps).map Prod.fst = problemsFrom i ps := by
  induction ps generalizing i with
  | nil => rfl
  | cons p ps ih =>
    rw [numbered_cons, problemsFrom_cons]
    split
    · rw [List.map_cons, ih]
    · exact ih (i + 1)

theorem preflightLoop_numbered (total i : ℕ) (ps : List PaymentInput) :
    preflightLoop true total ps i [] =
      (numbered i ps).head?.elim (.ok ()) fun (m, j) => .error (.preflight m (total - j - 1)) := by
  induction ps generalizing i with
  | nil => rfl
  | cons p ps ih =>
    rw [preflightLoop_cons, numbered_cons]
    split
    · rfl
    · exact ih (i + 1)

theorem preflightLoop_first {e : BatchError} :
    preflightLoop true total ps i [] = .error e ↔
      ∃ before p after, ps = before ++ p :: after ∧ (∀ q ∈ before, ¬LacksIssuer q) ∧
        LacksIssuer p ∧ e = .preflight (problemText p (i + before.length))
          (total - (i + before.length) - 1) := by
  induction ps generalizing i with
  | nil =>
    refine iff_of_false nofun ?_
    rintro ⟨before, p, after, h, -⟩
    exact absurd h.symm (List.append_ne_nil_of_right_ne_nil before (List.cons_ne_nil p after))
  | cons p ps ih =>
    rw [preflightLoop_cons]
    split
    · rename_i h
      constructor
      · intro he
        exact ⟨[], p, ps, rfl, List.forall_mem_nil _, h, (Except.error.inj he).symm⟩
      · rintro ⟨before, q, after, hsplit, hbefore, -, rfl⟩
        cases before with
        | nil =>
          cases hsplit
          rfl
        | cons r before =>
          cases hsplit
          exact absurd h (hbefore p List.mem_cons_self)
    · rename_i h
      rw [ih]
      constructor
      · rintro ⟨before, q, after, rfl, hbefore, hq, rfl⟩
        refine ⟨p :: before, q, after, rfl, List.forall_mem_cons.mpr ⟨h, hbefore⟩, hq, ?_⟩
        rw [List.length_cons, Nat.add_right_comm, Nat.add_assoc]
      · rintro ⟨before, q, after, hsplit, hbefore, hq, rfl⟩
        cases before with
        | nil =>
          cases hsplit
          exact absurd hq h
        | cons r before =>
          cases hsplit
          refine ⟨before, q, after, rfl, (List.forall_mem_cons.mp hbefore).2, hq, ?_⟩
          rw [List.length_cons, Nat.add_right_comm, Nat.add_assoc]

theorem preflightLoop_ok :
    preflightLoop failFast total ps i [] = .ok () ↔ ∀ p ∈ ps, ¬LacksIssuer p := by
  cases failFast with
  | false =>
    rw [preflightLoop_all, List.nil_append, ← problemsFrom_eq_nil (i := i)]
    split
    · rename_i h
      exact iff_of_false nofun h
    · rename_i h
      exact iff_of_true rfl (not_not.mp h)
  | true =>
    rw [preflightLoop_numbered, ← problemsFrom_eq_nil (i := i), ← map_fst_numbered]
    cases numbered i ps with
    | nil => exact iff_of_true rfl rfl
    | cons m ms => exact iff_of_false nofun (List.cons_ne_nil _ _)

/-- The sum of the batch is beyond the limit. -/
def Exceeds (A : Arithmetic) (cfg : Spending.Tracker.Config)
    (payments : List PaymentInput) : Prop :=
  (A.parseFloat cfg.spendingLimit).lt (batchTotalIn A payments) = true

instance : Decidable (Exceeds A cfg payments) := inferInstanceAs (Decidable (_ = true))

theorem schema_failFast (h : batchPaymentInputSchema sdk ⟨raws, none⟩ = .ok ⟨payments, false⟩)
    (failFast : Bool) :
    batchPaymentInputSchema sdk ⟨raws, some failFast⟩ = .ok ⟨payments, failFast⟩ := by
  simp only [batchPaymentInputSchema] at h ⊢
  split at h
  · cases h
  · split at h
    · rename_i hok
      cases h
      exact if_pos hok
    · cases h

theorem checkPayments_eq (h : batchPaymentInputSchema sdk ⟨raws, none⟩ = .ok ⟨payments, false⟩)
    (failFast : Bool) :
    checkPayments A cfg sdk ⟨raws, some failFast⟩ =
      if Exceeds A cfg payments then
        .error (.limit (batchTotalIn A payments) cfg.assetCode cfg.spendingLimit)
      else (preflightLoop failFast payments.length payments 0 []).map fun _ => payments := by
  unfold checkPayments
  rw [schema_failFast h failFast]
  dsimp only [Except.mapError]
  change (if (A.parseFloat cfg.spendingLimit).lt (batchTotalIn A payments) = true then _ else _) = _
  refine if_congr Iff.rfl rfl ?_
  cases preflightLoop failFast payments.length payments 0 [] with
  | error e => rfl
  | ok u => rfl

theorem preflightLoop_eq (failFast : Bool) (payments : List PaymentInput) :
    preflightLoop failFast payments.length payments 0 [] = preflight ⟨payments, failFast⟩ := by
  have hfst := map_fst_numbered 0 payments
  have hpreflight : preflight ⟨payments, failFast⟩ =
      match numbered 0 payments with
      | [] => .ok ()
      | (m, i) :: _ =>
        if failFast then .error (.preflight m (payments.length - i - 1))
        else .error (.preflight ("; ".intercalate ((numbered 0 payments).map Prod.fst)) 0) := rfl
  rw [hpreflight]
  cases failFast with
  | true =>
    rw [preflightLoop_numbered]
    cases numbered 0 payments <;> rfl
  | false =>
    rw [preflightLoop_all, List.nil_append, ← hfst]
    cases numbered 0 payments <;> rfl

theorem checkPayments_exact (cfg : Spending.Tracker.Config) (sdk : Sdk) (raw : RawBatch) :
    checkPayments .exact cfg sdk raw = check cfg sdk raw := by
  unfold checkPayments check
  cases batchPaymentInputSchema sdk raw with
  | error issues => rfl
  | ok input =>
    simp only [Except.mapError, Arithmetic.parseFloat_exact, preflightLoop_eq]
    rfl

theorem checkPayments_ok (h : batchPaymentInputSchema sdk ⟨raws, none⟩ = .ok ⟨payments, false⟩)
    (failFast : Bool) :
    checkPayments A cfg sdk ⟨raws, some failFast⟩ = .ok payments ↔
      ¬Exceeds A cfg payments ∧ ∀ p ∈ payments, ¬LacksIssuer p := by
  have hloop : preflightLoop failFast payments.length payments 0 [] = .ok () ↔
      ∀ p ∈ payments, ¬LacksIssuer p := preflightLoop_ok
  rw [checkPayments_eq h, ← hloop]
  split
  · rename_i hexceeds
    exact iff_of_false nofun fun hok => hok.1 hexceeds
  · rename_i hexceeds
    cases preflightLoop failFast payments.length payments 0 [] with
    | error e => exact iff_of_false nofun fun hok => nomatch hok.2
    | ok u => exact iff_of_true rfl ⟨hexceeds, rfl⟩

theorem checkPayments_payments
    (h : batchPaymentInputSchema sdk ⟨raws, none⟩ = .ok ⟨payments, false⟩) {failFast : Bool}
    {payments' : List PaymentInput}
    (hok : checkPayments A cfg sdk ⟨raws, some failFast⟩ = .ok payments') :
    payments' = payments := by
  rw [checkPayments_eq h] at hok
  split at hok
  · cases hok
  · cases hloop : preflightLoop failFast payments.length payments 0 [] with
    | error e =>
      rw [hloop] at hok
      cases hok
    | ok u =>
      rw [hloop] at hok
      cases hok
      rfl

def assetOf (p : PaymentInput) : Asset :=
  if p.assetCode = "XLM" then .native else .issued p.assetCode (p.assetIssuer.getD "")

def opOf (p : PaymentInput) : PaymentOperation := ⟨p.destination, assetOf p, p.amount⟩

/-- The SDK accepts the asset of a payment and its operation. -/
def Accepts (sdk : Sdk) (p : PaymentInput) : Prop :=
  (p.assetCode ≠ "XLM" → sdk.newAsset p.assetCode (p.assetIssuer.getD "") = .ok ()) ∧
    sdk.payment p.destination (assetOf p) p.amount = .ok ()

theorem operationOf_eq_ok {o : PaymentOperation} :
    operationOf sdk p = .ok o ↔ Accepts sdk p ∧ o = opOf p := by
  unfold operationOf Accepts opOf assetOf
  by_cases hxlm : p.assetCode = "XLM"
  · simp only [hxlm, ne_eq, not_true, if_false, if_true, false_imp_iff, true_and, bind_eq_ok]
    constructor
    · rintro ⟨u, hpay, h⟩
      cases h
      exact ⟨hpay, rfl⟩
    · rintro ⟨hpay, rfl⟩
      exact ⟨(), hpay, rfl⟩
  · simp only [hxlm, ne_eq, not_false_eq_true, if_false, if_true, true_imp_iff, bind_eq_ok]
    constructor
    · rintro ⟨u, hnew, u', hpay, h⟩
      cases h
      exact ⟨⟨hnew, hpay⟩, rfl⟩
    · rintro ⟨⟨hnew, hpay⟩, rfl⟩
      exact ⟨(), hnew, (), hpay, rfl⟩

theorem mapM_operationOf {os : List PaymentOperation} :
    ps.mapM (operationOf sdk) = .ok os ↔ (∀ p ∈ ps, Accepts sdk p) ∧ os = ps.map opOf := by
  rw [mapM_eq_ok]
  induction ps generalizing os with
  | nil => simp
  | cons p ps ih =>
    rw [List.forall₂_cons_left_iff, List.forall_mem_cons, List.map_cons]
    constructor
    · rintro ⟨o, os, ho, hos, rfl⟩
      obtain ⟨hp, rfl⟩ := operationOf_eq_ok.mp ho
      obtain ⟨hps, rfl⟩ := ih.mp hos
      exact ⟨⟨hp, hps⟩, rfl⟩
    · rintro ⟨⟨hp, hps⟩, rfl⟩
      exact ⟨_, _, operationOf_eq_ok.mpr ⟨hp, rfl⟩, ih.mpr ⟨hps, rfl⟩, rfl⟩

/-- The call submits nothing, whatever the network does. -/
def Rejected (A : Arithmetic) (cfg : Spending.Tracker.Config) (sdk : Sdk) (raw : RawBatch) : Prop :=
  ∀ sequence receipt, (execute A cfg sdk raw (.ok sequence) receipt).submitted = none

theorem execute_submitted
    (h : batchPaymentInputSchema sdk ⟨raws, none⟩ = .ok ⟨payments, false⟩) (failFast : Bool)
    (account : Except Fault ℤ) (receipt : Except Fault SubmitResult) (tx : BatchTransaction) :
    (execute A cfg sdk ⟨raws, some failFast⟩ account receipt).submitted = some tx ↔
      (¬Exceeds A cfg payments ∧ ∀ p ∈ payments, ¬LacksIssuer p) ∧ (∀ p ∈ payments, Accepts sdk p) ∧
        ∃ sequence, account = .ok sequence ∧ tx = ⟨sequence + 1, payments.map opOf, none⟩ := by
  rw [← checkPayments_ok h failFast]
  unfold execute
  cases hcheck : checkPayments A cfg sdk ⟨raws, some failFast⟩ with
  | error e => exact iff_of_false nofun fun hok => nomatch hok.1
  | ok payments' =>
    cases checkPayments_payments h hcheck
    cases account with
    | error e =>
      refine iff_of_false nofun ?_
      rintro ⟨-, -, sequence, hload, -⟩
      cases hload
    | ok sequence =>
      dsimp only
      cases hops : payments.mapM (operationOf sdk) with
      | error e =>
        refine iff_of_false nofun fun ⟨_, haccepts, _⟩ => ?_
        rw [mapM_operationOf.mpr ⟨haccepts, rfl⟩] at hops
        cases hops
      | ok operations =>
        obtain ⟨haccepts, rfl⟩ := mapM_operationOf.mp hops
        constructor
        · intro htx
          exact ⟨rfl, haccepts, sequence, rfl, (Option.some.inj htx).symm⟩
        · rintro ⟨-, -, sequence', hload, rfl⟩
          cases hload
          rfl

theorem execute_loaded
    (h : batchPaymentInputSchema sdk ⟨raws, none⟩ = .ok ⟨payments, false⟩) (failFast : Bool)
    (account : Except Fault ℤ) (receipt : Except Fault SubmitResult) :
    (execute A cfg sdk ⟨raws, some failFast⟩ account receipt).loaded = true ↔
      ¬Exceeds A cfg payments ∧ ∀ p ∈ payments, ¬LacksIssuer p := by
  rw [← checkPayments_ok h failFast]
  unfold execute
  cases hcheck : checkPayments A cfg sdk ⟨raws, some failFast⟩ with
  | error e => exact iff_of_false nofun nofun
  | ok payments' =>
    cases checkPayments_payments h hcheck
    refine iff_of_true ?_ rfl
    cases account with
    | error e => rfl
    | ok sequence =>
      dsimp only
      cases payments.mapM (operationOf sdk) <;> rfl

theorem rejected_iff (h : batchPaymentInputSchema sdk ⟨raws, none⟩ = .ok ⟨payments, false⟩)
    (failFast : Bool) :
    Rejected A cfg sdk ⟨raws, some failFast⟩ ↔
      ¬((¬Exceeds A cfg payments ∧ ∀ p ∈ payments, ¬LacksIssuer p) ∧
        ∀ p ∈ payments, Accepts sdk p) := by
  constructor
  · rintro hrejected ⟨hcheck, haccepts⟩
    have hnone := hrejected 0 (.ok ⟨none, none⟩)
    have hsome := (execute_submitted h failFast (.ok 0) (.ok ⟨none, none⟩) _).mpr
      ⟨hcheck, haccepts, 0, rfl, rfl⟩
    rw [hnone] at hsome
    cases hsome
  · intro hnot sequence receipt
    cases hout : (execute A cfg sdk ⟨raws, some failFast⟩ (.ok sequence) receipt).submitted with
    | none => rfl
    | some tx =>
      obtain ⟨hcheck, haccepts, -⟩ := (execute_submitted h failFast _ _ tx).mp hout
      exact absurd ⟨hcheck, haccepts⟩ hnot

/-- `failFast` changes the report of a batch and nothing else. -/
structure Reports (A : Arithmetic) (cfg : Spending.Tracker.Config) (sdk : Sdk)
    (raws : Option (List RawPayment)) (payments : List PaymentInput) : Prop where
  rejected : Rejected A cfg sdk ⟨raws, some true⟩ ↔ Rejected A cfg sdk ⟨raws, some false⟩
  preflight : (∃ message skipped,
      checkPayments A cfg sdk ⟨raws, some true⟩ = .error (.preflight message skipped)) ↔
    ∃ message skipped,
      checkPayments A cfg sdk ⟨raws, some false⟩ = .error (.preflight message skipped)
  first : ∀ message skipped,
    checkPayments A cfg sdk ⟨raws, some true⟩ = .error (.preflight message skipped) →
      (problemsFrom 0 payments).head? = some message ∧
      ∃ before p after, payments = before ++ p :: after ∧ (∀ q ∈ before, ¬LacksIssuer q) ∧
        LacksIssuer p ∧ message = problemText p before.length ∧
        skipped + 1 + before.length = payments.length
  all : ∀ message skipped,
    checkPayments A cfg sdk ⟨raws, some false⟩ = .error (.preflight message skipped) →
      message = "; ".intercalate (problemsFrom 0 payments) ∧ skipped = 0
  checked : ∀ failFast e, checkPayments A cfg sdk ⟨raws, some failFast⟩ = .error e →
    ∀ account receipt,
      (execute A cfg sdk ⟨raws, some failFast⟩ account receipt).loaded = false ∧
        (execute A cfg sdk ⟨raws, some failFast⟩ account receipt).submitted = none
  operations : ∀ failFast account receipt tx,
    (execute A cfg sdk ⟨raws, some failFast⟩ account receipt).submitted = some tx →
      tx.operations = payments.map opOf

/-- What is claimed of it: also, whatever a batch is rejected for, it has had no effect. -/
structure OnlyReports (A : Arithmetic) (cfg : Spending.Tracker.Config) (sdk : Sdk)
    (raws : Option (List RawPayment)) (payments : List PaymentInput) : Prop
    extends Reports A cfg sdk raws payments where
  effect : ∀ failFast, Rejected A cfg sdk ⟨raws, some failFast⟩ → ∀ account receipt,
    (execute A cfg sdk ⟨raws, some failFast⟩ account receipt).loaded = false ∧
      (execute A cfg sdk ⟨raws, some failFast⟩ account receipt).submitted = none

theorem checkPayments_preflight
    (h : batchPaymentInputSchema sdk ⟨raws, none⟩ = .ok ⟨payments, false⟩) {message : String}
    {skipped : ℕ} :
    checkPayments A cfg sdk ⟨raws, some failFast⟩ = .error (.preflight message skipped) ↔
      ¬Exceeds A cfg payments ∧ preflightLoop failFast payments.length payments 0 [] =
        .error (.preflight message skipped) := by
  rw [checkPayments_eq h]
  split
  · rename_i hexceeds
    exact iff_of_false nofun fun hok => hok.1 hexceeds
  · rename_i hexceeds
    cases preflightLoop failFast payments.length payments 0 [] with
    | error e =>
      exact ⟨fun he => ⟨hexceeds, congrArg Except.error (Except.error.inj he)⟩,
        fun he => congrArg Except.error (Except.error.inj he.2)⟩
    | ok u => exact iff_of_false nofun fun hok => nomatch hok.2

theorem head?_problemsFrom {before after : List PaymentInput}
    (hbefore : ∀ q ∈ before, ¬LacksIssuer q) (hp : LacksIssuer p) :
    (problemsFrom i (before ++ p :: after)).head? = some (problemText p (i + before.length)) := by
  induction before generalizing i with
  | nil =>
    rw [List.nil_append, problemsFrom_cons, if_pos hp]
    rfl
  | cons q before ih =>
    obtain ⟨hq, hbefore⟩ := List.forall_mem_cons.mp hbefore
    rw [List.cons_append, problemsFrom_cons, if_neg hq, ih hbefore, List.length_cons,
      Nat.add_right_comm, Nat.add_assoc]

theorem first_report (h : batchPaymentInputSchema sdk ⟨raws, none⟩ = .ok ⟨payments, false⟩)
    {message : String} {skipped : ℕ}
    (hcheck : checkPayments A cfg sdk ⟨raws, some true⟩ = .error (.preflight message skipped)) :
    (problemsFrom 0 payments).head? = some message ∧
      ∃ before p after, payments = before ++ p :: after ∧ (∀ q ∈ before, ¬LacksIssuer q) ∧
        LacksIssuer p ∧ message = problemText p before.length ∧
        skipped + 1 + before.length = payments.length := by
  obtain ⟨-, hloop⟩ := (checkPayments_preflight h).mp hcheck
  obtain ⟨before, p, after, hsplit, hbefore, hp, he⟩ := preflightLoop_first.mp hloop
  rw [Nat.zero_add] at he
  obtain ⟨rfl, rfl⟩ := BatchError.preflight.inj he
  have hhead : (problemsFrom 0 (before ++ p :: after)).head? =
      some (problemText p (0 + before.length)) := head?_problemsFrom hbefore hp
  rw [Nat.zero_add, ← hsplit] at hhead
  have hlength : payments.length = before.length + (after.length + 1) := by
    rw [hsplit, List.length_append, List.length_cons]
  exact ⟨hhead, before, p, after, hsplit, hbefore, hp, rfl, by omega⟩

theorem all_report (h : batchPaymentInputSchema sdk ⟨raws, none⟩ = .ok ⟨payments, false⟩)
    {message : String} {skipped : ℕ}
    (hcheck : checkPayments A cfg sdk ⟨raws, some false⟩ = .error (.preflight message skipped)) :
    message = "; ".intercalate (problemsFrom 0 payments) ∧ skipped = 0 := by
  obtain ⟨-, hloop⟩ := (checkPayments_preflight h).mp hcheck
  rw [preflightLoop_all, List.nil_append] at hloop
  split at hloop
  · cases hloop
    exact ⟨rfl, rfl⟩
  · cases hloop

theorem preflightLoop_report (hlacks : ∃ p ∈ ps, LacksIssuer p) (failFast : Bool) (total i : ℕ) :
    ∃ message skipped,
      preflightLoop failFast total ps i [] = .error (.preflight message skipped) := by
  cases hloop : preflightLoop failFast total ps i [] with
  | ok u =>
    obtain ⟨p, hp, hlacks⟩ := hlacks
    exact absurd hlacks (preflightLoop_ok.mp hloop p hp)
  | error e =>
    cases failFast with
    | true =>
      obtain ⟨before, p, after, -, -, -, rfl⟩ := preflightLoop_first.mp hloop
      exact ⟨_, _, rfl⟩
    | false =>
      rw [preflightLoop_all] at hloop
      split at hloop
      · cases hloop
        exact ⟨_, _, rfl⟩
      · cases hloop

theorem preflight_rejects_iff
    (h : batchPaymentInputSchema sdk ⟨raws, none⟩ = .ok ⟨payments, false⟩) (failFast : Bool) :
    (∃ message skipped,
      checkPayments A cfg sdk ⟨raws, some failFast⟩ = .error (.preflight message skipped)) ↔
      ¬Exceeds A cfg payments ∧ ∃ p ∈ payments, LacksIssuer p := by
  simp only [checkPayments_preflight h, exists_and_left]
  refine and_congr_right fun _ => ⟨?_, fun hlacks => preflightLoop_report hlacks _ _ _⟩
  rintro ⟨message, skipped, hloop⟩
  by_contra hnone
  have hok : preflightLoop failFast payments.length payments 0 [] = .ok () :=
    preflightLoop_ok.mpr fun p hp hlacks => hnone ⟨p, hp, hlacks⟩
  rw [hok] at hloop
  cases hloop

theorem execute_checked {raw : RawBatch} {e : BatchError}
    (h : checkPayments A cfg sdk raw = .error e) (account : Except Fault ℤ)
    (receipt : Except Fault SubmitResult) :
    (execute A cfg sdk raw account receipt).loaded = false ∧
      (execute A cfg sdk raw account receipt).submitted = none := by
  unfold execute
  rw [h]
  exact ⟨rfl, rfl⟩

theorem reports (h : batchPaymentInputSchema sdk ⟨raws, none⟩ = .ok ⟨payments, false⟩) :
    Reports A cfg sdk raws payments where
  rejected := by rw [rejected_iff h, rejected_iff h]
  preflight := by rw [preflight_rejects_iff h, preflight_rejects_iff h]
  first := fun _ _ => first_report h
  all := fun _ _ => all_report h
  checked := fun _ _ => execute_checked
  operations := by
    intro failFast account receipt tx htx
    obtain ⟨-, -, sequence, -, rfl⟩ := (execute_submitted h failFast _ _ tx).mp htx
    rfl

/-- A call changes nothing but its report under `failFast`; and a rejected batch has no effect
exactly when every payment that gets past the checks is one that the SDK accepts. -/
theorem only_reports_iff (cfg : Spending.Tracker.Config) (sdk : Sdk)
    (raws : Option (List RawPayment)) (payments : List PaymentInput)
    (h : batchPaymentInputSchema sdk ⟨raws, none⟩ = .ok ⟨payments, false⟩) :
    Reports .double cfg sdk raws payments ∧
      (OnlyReports .double cfg sdk raws payments ↔
        Exceeds .double cfg payments ∨ (∃ p ∈ payments, LacksIssuer p) ∨
          ∀ p ∈ payments, Accepts sdk p) := by
  refine ⟨reports h, ?_, ?_⟩
  · intro honly
    by_contra hnot
    simp only [not_or, not_exists, not_and] at hnot
    obtain ⟨hexceeds, hissuers, haccepts⟩ := hnot
    have hrejected : Rejected .double cfg sdk ⟨raws, some false⟩ :=
      (rejected_iff h false).mpr fun hall => haccepts hall.2
    have hloaded := (execute_loaded h false (.ok 0) (.ok ⟨none, none⟩)).mpr ⟨hexceeds, hissuers⟩
    rw [(honly.effect false hrejected (.ok 0) (.ok ⟨none, none⟩)).1] at hloaded
    cases hloaded
  · intro hcond
    refine ⟨reports h, fun failFast hrejected account receipt => ?_⟩
    rw [rejected_iff h, ← checkPayments_ok h failFast] at hrejected
    cases hcheck : checkPayments .double cfg sdk ⟨raws, some failFast⟩ with
    | error e => exact execute_checked hcheck account receipt
    | ok payments' =>
      cases checkPayments_payments h hcheck
      obtain ⟨hexceeds, hissuers⟩ := (checkPayments_ok h failFast).mp hcheck
      rcases hcond with hcond | ⟨p, hp, hlacks⟩ | haccepts
      · exact absurd hcond hexceeds
      · exact absurd hlacks (hissuers p hp)
      · exact absurd ⟨hcheck, haccepts⟩ hrejected

variable {publicKey : String} {raw : RawPayment} {input : PaymentInput} {content : PaymentContent}

/-- The transaction that the payment tool builds, once the account is loaded. -/
def single (sdk : Sdk) (publicKey : String) (raw : RawPayment) : Except Fault PaymentContent := do
  let (input, asset) ← Payment.prepare sdk publicKey raw
  Payment.content sdk input asset

theorem single_eq_ok (hinput : paymentInputSchema sdk raw = .ok input) :
    single sdk publicKey raw = .ok content ↔
      input.destination ≠ publicKey ∧ ¬LacksIssuer input ∧ Accepts sdk input ∧
        ∃ memo, buildMemo sdk.numberText input.memoType input.memo = .ok memo ∧
          content = ⟨input.destination, assetOf input, input.amount, memo⟩ := by
  simp only [single, Payment.prepare, Payment.content, bind_eq_ok, mapError_eq_ok, throwIf_eq_ok,
    Prod.exists, hinput, Except.ok.injEq, exists_eq_left', LacksIssuer, Bool.not_eq_true', Accepts,
    assetOf]
  by_cases hxlm : input.assetCode = "XLM"
  · simp only [hxlm, if_true, ne_eq, not_true, false_and, not_false_eq_true, true_and,
      false_imp_iff]
    constructor
    · rintro ⟨input', asset, ⟨hdestination, h⟩, u, hpay, memo, hmemo, hcontent⟩
      cases h
      cases hcontent
      exact ⟨hdestination, hpay, memo, hmemo, rfl⟩
    · rintro ⟨hdestination, hpay, memo, hmemo, rfl⟩
      exact ⟨input, .native, ⟨hdestination, rfl⟩, (), hpay, memo, hmemo, rfl⟩
  · simp only [hxlm, if_false, ne_eq, not_false_eq_true, true_and, true_imp_iff, bind_eq_ok]
    constructor
    · rintro ⟨input', asset, ⟨hdestination, hissuer, u, hnew, h⟩, u', hpay, memo, hmemo, hcontent⟩
      cases h
      cases hcontent
      exact ⟨hdestination, hissuer, ⟨hnew, hpay⟩, memo, hmemo, rfl⟩
    · rintro ⟨hdestination, hissuer, ⟨hnew, hpay⟩, memo, hmemo, rfl⟩
      exact ⟨input, _, ⟨hdestination, hissuer, (), hnew, rfl⟩, (), hpay, memo, hmemo, rfl⟩

theorem batchPaymentInputSchema_one (hinput : paymentInputSchema sdk raw = .ok input) :
    batchPaymentInputSchema sdk ⟨some [raw], none⟩ = .ok ⟨[input], false⟩ := by
  have hissues : paymentIssues sdk [raw] = [] := by
    simp [paymentIssues, hinput, Spending.Batch.issuesOf]
  simp only [batchPaymentInputSchema, hissues, List.filterMap_cons, hinput, Except.toOption]
  rfl

/-- What is claimed of a batch of one: it is refused when the single payment is, and otherwise the
two transactions pay the same, with the same memo. -/
structure EqualsSingle (cfg : Spending.Tracker.Config) (sdk : Sdk) (publicKey : String)
    (raw : RawPayment) : Prop where
  rejected : Rejected .exact cfg sdk ⟨some [raw], none⟩ ↔ ∃ e, single sdk publicKey raw = .error e
  same : ∀ account receipt tx content,
    (execute .exact cfg sdk ⟨some [raw], none⟩ account receipt).submitted = some tx →
      single sdk publicKey raw = .ok content →
        tx.operations = [⟨content.destination, content.asset, content.amount⟩] ∧
          tx.memo = content.memo

theorem buildMemo_eq_none {numberText : Number → String} {memoType : MemoType}
    {memo : Option MemoValue} :
    buildMemo numberText memoType memo = .ok none ↔ memo = none := by
  cases memo with
  | none => exact iff_of_true rfl rfl
  | some v =>
    refine iff_of_false (fun h => ?_) nofun
    have hmap : ∀ {x : Except Fault String} {f : String → Memo},
        (x.map fun s => some (f s)) ≠ .ok none := by
      intro x f hx
      cases x <;> cases hx
    cases memoType <;> exact hmap h

theorem not_exceeds_one (hinput : paymentInputSchema sdk raw = .ok input)
    (hlimit : (parseFloat cfg.spendingLimit).lt (parseFloat input.amount) = false) :
    ¬Exceeds .exact cfg [input] := by
  obtain ⟨-, -, -, -, -, -, hamount⟩ := paymentInputSchema_ok hinput
  simp only [Spending.Guard.paymentAmountSchema, Bool.and_eq_true] at hamount
  obtain ⟨q, hq, -⟩ := parseFloat_of_isDecimal hamount.1.1
  have htotal : batchTotalIn .exact [input] = parseFloat input.amount := by
    have hsum := sum_finite [q]
    rw [List.sum_singleton] at hsum
    rw [batchTotalIn, Arithmetic.sum_exact, List.map_singleton, Arithmetic.parseFloat_exact, hq]
    exact hsum
  rw [Exceeds, htotal, Arithmetic.parseFloat_exact, hlimit]
  exact Bool.false_ne_true

/-- A payment that both tools can make, by the checks that they share. -/
def Usable (sdk : Sdk) (p : PaymentInput) : Prop := ¬LacksIssuer p ∧ Accepts sdk p

theorem rejected_one_iff (hinput : paymentInputSchema sdk raw = .ok input)
    (hlimit : (parseFloat cfg.spendingLimit).lt (parseFloat input.amount) = false) :
    Rejected .exact cfg sdk ⟨some [raw], none⟩ ↔ ¬Usable sdk input := by
  have h : Rejected .exact cfg sdk ⟨some [raw], some false⟩ ↔ _ :=
    rejected_iff (batchPaymentInputSchema_one hinput) false
  simp only [List.forall_mem_singleton, not_exceeds_one hinput hlimit, not_false_eq_true,
    true_and] at h
  exact h

theorem single_error_iff (hinput : paymentInputSchema sdk raw = .ok input) :
    (∃ e, single sdk publicKey raw = .error e) ↔
      ¬(input.destination ≠ publicKey ∧ Usable sdk input ∧
        ∃ memo, buildMemo sdk.numberText input.memoType input.memo = .ok memo) := by
  cases hsingle : single sdk publicKey raw with
  | error e =>
    refine iff_of_true ⟨e, rfl⟩ ?_
    rintro ⟨hdestination, husable, memo, hmemo⟩
    rw [(single_eq_ok hinput).mpr ⟨hdestination, husable.1, husable.2, memo, hmemo, rfl⟩] at hsingle
    cases hsingle
  | ok content =>
    obtain ⟨hdestination, hissuer, haccepts, memo, hmemo, -⟩ := (single_eq_ok hinput).mp hsingle
    exact iff_of_false nofun fun hnot =>
      hnot ⟨hdestination, ⟨hissuer, haccepts⟩, memo, hmemo⟩

/-- The two agree exactly when a payment that both can make goes to another account and has no
memo. -/
theorem batch_of_one_iff (cfg : Spending.Tracker.Config) (sdk : Sdk) (publicKey : String)
    (raw : RawPayment) (input : PaymentInput) (hinput : paymentInputSchema sdk raw = .ok input)
    (hlimit : (parseFloat cfg.spendingLimit).lt (parseFloat input.amount) = false) :
    EqualsSingle cfg sdk publicKey raw ↔
      (Usable sdk input → input.destination ≠ publicKey ∧ input.memo = none) := by
  have hschema := batchPaymentInputSchema_one hinput
  constructor
  · rintro ⟨hrejected, hsame⟩ husable
    rw [rejected_one_iff hinput hlimit, single_error_iff hinput, not_iff_not] at hrejected
    obtain ⟨hdestination, -, memo, hmemo⟩ := hrejected.mp husable
    have htx : (execute .exact cfg sdk ⟨some [raw], none⟩ (.ok 0) (.ok ⟨none, none⟩)).submitted =
        some ⟨0 + 1, [opOf input], none⟩ :=
      (execute_submitted hschema false (.ok 0) (.ok ⟨none, none⟩) _).mpr
        ⟨⟨not_exceeds_one hinput hlimit, List.forall_mem_singleton.mpr husable.1⟩,
          List.forall_mem_singleton.mpr husable.2, 0, rfl, rfl⟩
    have hsingle := (single_eq_ok hinput).mpr
      ⟨hdestination, husable.1, husable.2, memo, hmemo, rfl⟩
    have hnone : none = memo := (hsame _ _ _ _ htx hsingle).2
    rw [← hnone] at hmemo
    exact ⟨hdestination, buildMemo_eq_none.mp hmemo⟩
  · intro hcond
    refine ⟨?_, fun account receipt tx content htx hsingle => ?_⟩
    · rw [rejected_one_iff hinput hlimit, single_error_iff hinput, not_iff_not]
      refine ⟨fun husable => ?_, fun h => h.2.1⟩
      obtain ⟨hdestination, hmemo⟩ := hcond husable
      exact ⟨hdestination, husable, none, buildMemo_eq_none.mpr hmemo⟩
    · obtain ⟨-, -, sequence, -, rfl⟩ := (execute_submitted hschema false _ _ tx).mp htx
      obtain ⟨-, hissuer, haccepts, memo, hmemo, rfl⟩ := (single_eq_ok hinput).mp hsingle
      rw [buildMemo_eq_none.mpr (hcond ⟨hissuer, haccepts⟩).2] at hmemo
      cases hmemo
      exact ⟨rfl, rfl⟩

deriving instance DecidableEq for BatchInput

def limited : Spending.Tracker.Config := ⟨.testnet, "250", 60000, "USDC", by decide, by decide⟩

def euro (code : String) (issuer : Option String) : RawPayment :=
  ⟨some "GBBD47IF6LWK7P7MDEVSCWR7DPUWV3NY3DTQEVFL4NAT4AQH3ZLLFLA5", some "10", some code, issuer,
    none, none⟩

def euroInput (code : String) (issuer : Option String) : PaymentInput :=
  ⟨"GBBD47IF6LWK7P7MDEVSCWR7DPUWV3NY3DTQEVFL4NAT4AQH3ZLLFLA5", "10", code, issuer, .text, none⟩

/-- An SDK that refuses a code with a sign in it. -/
def alphanumeric : Sdk :=
  { lenient with
    newAsset := fun code _ =>
      if code.toList.all Char.isAlphanum then .ok ()
      else .error (.error "Asset code is invalid (maximum alphanumeric, 12 characters at max)") }

theorem batch_of_one_without_memo :
    EqualsSingle limited lenient "GAGENT" (euro "EURC" (some "GEURO")) :=
  (batch_of_one_iff limited lenient "GAGENT" (euro "EURC" (some "GEURO"))
    (euroInput "EURC" (some "GEURO")) (by decide +kernel) (by decide +kernel)).mpr
      fun _ => by decide +kernel

/-- The batch drops the memo. -/
theorem batch_of_one_with_memo :
    let raw : RawPayment := { euro "EURC" (some "GEURO") with memo := some (.string "invoice 7") }
    (execute .exact limited lenient ⟨some [raw], none⟩ (.ok 7) (.ok ⟨none, none⟩)).submitted =
        some ⟨8, [opOf (euroInput "EURC" (some "GEURO"))], none⟩ ∧
      single lenient "GAGENT" raw = .ok ⟨(euroInput "EURC" (some "GEURO")).destination,
        .issued "EURC" "GEURO", "10", some (.text "invoice 7")⟩ := by
  decide +kernel

theorem only_reports_missing_issuer :
    OnlyReports .double limited alphanumeric (some [euro "EURC" (some "GEURO"), euro "EURC" none])
      [euroInput "EURC" (some "GEURO"), euroInput "EURC" none] :=
  (only_reports_iff limited alphanumeric _ _ (by decide +kernel)).2.mpr
    (.inr (.inl ⟨euroInput "EURC" none, List.mem_cons_of_mem _ List.mem_cons_self, by decide⟩))

/-- An asset that the SDK refuses is noticed after the account has been loaded. -/
theorem refused_after_load :
    batchPaymentInputSchema alphanumeric ⟨some [euro "EUR$" (some "GEURO")], none⟩ =
        .ok ⟨[euroInput "EUR$" (some "GEURO")], false⟩ ∧
      Rejected .double limited alphanumeric ⟨some [euro "EUR$" (some "GEURO")], some true⟩ ∧
      (execute .double limited alphanumeric ⟨some [euro "EUR$" (some "GEURO")], some true⟩ (.ok 7)
        (.ok ⟨none, none⟩)).loaded = true := by
  have hschema : batchPaymentInputSchema alphanumeric ⟨some [euro "EUR$" (some "GEURO")], none⟩ =
      .ok ⟨[euroInput "EUR$" (some "GEURO")], false⟩ := by decide +kernel
  refine ⟨hschema, (rejected_iff hschema true).mpr fun h => ?_, by decide +kernel⟩
  have hnew := (h.2 _ List.mem_cons_self).1 (by decide)
  cases hnew

end PayFi.Tools.BatchPayment
