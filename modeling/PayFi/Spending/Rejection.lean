import PayFi.Spending.Guard

namespace PayFi.Spending.Rejection

open Library.Numbers Library.Doubles Library.Window Tracker Guard

inductive TaskType where
  | stellarPayment
  | x402Respond
  deriving DecidableEq

structure Task (Payload : Type) where
  type : TaskType
  payload : Payload

/-- The amount of a payload, when it is a string, and whether the tool, given the payload,
submits a transaction before it ends. Neither tool uses the tracker. -/
structure Tools (Payload : Type) where
  amount : Payload → Option String
  submits : TaskType → Payload → Bool

inductive Ending where
  | refused (e : SpendingError)
  | rejected
  | submitted

def Ending.submits : Ending → Bool
  | .submitted => true
  | _ => false

variable {Payload : Type}

/-- A payment task: the guard, and then the tool. The guard computes with doubles. -/
def executeTask (cfg : Config) (tools : Tools Payload) (s : State) (task : Task Payload)
    (now now' : ℤ) : Ending × State :=
  match assertWithinSpendingLimitIn .double cfg s (tools.amount task.payload) now now' with
  | (.error e, s) => (.refused e, s)
  | (.ok (), s) => (if tools.submits task.type task.payload then .submitted else .rejected, s)

/-- The window that ends at `t`, in the queue and in the table. -/
def windows (cfg : Config) (s : State) (t : ℤ) : List SpendingRecord × List SpendingRecord :=
  (since SpendingRecord.timestamp (t - cfg.windowMs) s.records,
    since SpendingRecord.timestamp (t - cfg.windowMs) s.db)

/-- The guard has nothing against the amount by itself, and `record` finds a number. -/
def records (A : Arithmetic) (cfg : Config) : Option String → Bool
  | none => false
  | some a =>
    let parsed := A.parseFloat a
    !parsed.isNaN && !(A.parseFloat cfg.spendingLimit).lt parsed &&
      !(cfg.network == .mainnet && mainnetSpendingCap.lt parsed)

variable {A : Arithmetic} {cfg : Config} {s : State} {now now' t : ℤ}

theorem pruneOld_windows (s : State) (h : now ≤ t) :
    windows cfg (pruneOld cfg s now) t = windows cfg s t := by
  have hcut : now - cfg.windowMs ≤ t - cfg.windowMs := by omega
  unfold windows pruneOld
  dsimp only
  split
  · rw [since_expire hcut, pruneSpendingRecords_eq, since_since hcut]
  · rw [since_expire hcut]

theorem record_windows_iff (s : State) {a : String} (ha : (A.parseFloat a).isNaN = false)
    (h : now ≤ now') (h' : now' ≤ t) :
    windows cfg (recordIn cfg A s a now now').2 t = windows cfg s t ↔ now < t - cfg.windowMs := by
  have hstate : (recordIn cfg A s a now now').2 = pruneOld cfg
      ⟨(pruneOld cfg s now).records ++ [⟨A.parseFloat a, now⟩],
        saveSpendingRecord (pruneOld cfg s now).db ⟨A.parseFloat a, now⟩⟩ now' := by
    simp only [recordIn, totalIn, ha, Bool.false_eq_true, if_false]
    exact (apply_ite Prod.snd _ _ _).trans (ite_self _)
  rw [hstate, pruneOld_windows _ h', ← pruneOld_windows s (h.trans h')]
  simp only [windows, saveSpendingRecord, Prod.mk.injEq, since_concat_eq_iff, and_self]

theorem guard_state (A : Arithmetic) (cfg : Config) (s : State) (a : String) (now now' : ℤ) :
    (assertWithinSpendingLimitIn A cfg s (some a) now now').2 =
      if records A cfg (some a) then (recordIn cfg A s a now now').2 else s := by
  by_cases hn : (A.parseFloat a).isNaN = true
  · simp [assertWithinSpendingLimitIn, records, hn, recordIn]
  · by_cases hl : (A.parseFloat cfg.spendingLimit).lt (A.parseFloat a) = true
    · simp [assertWithinSpendingLimitIn, records, hn, hl]
    · by_cases hc : (cfg.network == .mainnet && mainnetSpendingCap.lt (A.parseFloat a)) = true
      · simp [assertWithinSpendingLimitIn, records, hn, hl, hc]
      · simp only [Bool.not_eq_true] at hn hl hc
        simp only [assertWithinSpendingLimitIn, records, hn, hl, hc, Bool.not_false, Bool.true_and,
          Bool.and_false, Bool.and_self, Bool.false_eq_true, if_false, if_true]
        generalize recordIn cfg A s a now now' = r
        obtain ⟨out, s'⟩ := r
        cases out with
        | ok => rfl
        | error => rfl

theorem executeTask_state (cfg : Config) (tools : Tools Payload) (s : State) (task : Task Payload)
    (now now' : ℤ) : (executeTask cfg tools s task now now').2 =
      (assertWithinSpendingLimitIn .double cfg s (tools.amount task.payload) now now').2 := by
  unfold executeTask
  generalize assertWithinSpendingLimitIn .double cfg s (tools.amount task.payload) now now' = r
  obtain ⟨out, s'⟩ := r
  cases out with
  | ok => rfl
  | error => rfl

theorem guard_windows_iff (s : State) (amount : Option String) (h : now ≤ now') (h' : now' ≤ t) :
    windows cfg (assertWithinSpendingLimitIn A cfg s amount now now').2 t = windows cfg s t ↔
      records A cfg amount = false ∨ now < t - cfg.windowMs := by
  cases amount with
  | none => exact iff_of_true rfl (.inl rfl)
  | some a =>
    rw [guard_state]
    by_cases hr : records A cfg (some a) = true
    · have hn : (A.parseFloat a).isNaN = false := by
        simp only [records, Bool.and_eq_true, Bool.not_eq_true'] at hr
        exact hr.1.1
      rw [if_pos hr, record_windows_iff s hn h h', hr]
      simp
    · rw [if_neg hr]
      exact iff_of_true rfl (.inl (Bool.not_eq_true _ ▸ hr))

/-- A task that ends without a transaction leaves the window as it was exactly when its
guard does not record, or its record has expired by the end of the task. -/
theorem rejected_keeps_window_iff (cfg : Config) (tools : Tools Payload) (s : State)
    (task : Task Payload) (now now' t : ℤ) (h : now ≤ now') (h' : now' ≤ t) :
    ((executeTask cfg tools s task now now').1.submits = false →
        windows cfg (executeTask cfg tools s task now now').2 t = windows cfg s t) ↔
      ((executeTask cfg tools s task now now').1.submits = false →
        records .double cfg (tools.amount task.payload) = false ∨ now < t - cfg.windowMs) := by
  rw [executeTask_state]
  exact imp_congr_right fun _ => guard_windows_iff s _ h h'

/-- Payloads that are an amount, with tools that submit nothing. -/
def failing : Tools String := ⟨some, fun _ _ => false⟩

def hundred : Config := ⟨.testnet, "100", 1000, "USDC", by decide, by decide⟩

theorem rejected_keeps_window_above_limit :
    windows hundred (executeTask hundred failing ⟨[⟨.finite 60, 0⟩], [⟨.finite 60, 0⟩]⟩
      ⟨.stellarPayment, "101"⟩ 1 1).2 2 =
      windows hundred ⟨[⟨.finite 60, 0⟩], [⟨.finite 60, 0⟩]⟩ 2 :=
  (rejected_keeps_window_iff hundred failing _ ⟨.stellarPayment, "101"⟩ 1 1 2 (by decide)
    (by decide)).mpr (fun _ => .inl (by decide +kernel)) (by decide +kernel)

/-- After 60 of a limit of 100, a payment of 50 is refused and recorded, and then one of
40 is refused as well. And a tool that rejects its payload leaves a record behind. -/
theorem rejected_consumes_window :
    let s : State := ⟨[⟨.finite 60, 0⟩], [⟨.finite 60, 0⟩]⟩
    let refused := executeTask hundred failing s ⟨.stellarPayment, "50"⟩ 1 1
    let rejected := executeTask hundred failing ⟨[], []⟩ ⟨.x402Respond, "50"⟩ 1 1
    (refused.1.submits = false ∧ windows hundred refused.2 2 ≠ windows hundred s 2 ∧
        (assertWithinSpendingLimitIn .double hundred s (some "40") 2 2).1.toBool = true ∧
        (assertWithinSpendingLimitIn .double hundred refused.2 (some "40") 2 2).1.toBool = false) ∧
      (rejected.1.submits = false ∧
        windows hundred rejected.2 2 ≠ windows hundred ⟨[], []⟩ 2) := by
  decide +kernel

end PayFi.Spending.Rejection
