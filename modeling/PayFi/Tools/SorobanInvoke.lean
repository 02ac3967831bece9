import PayFi.Library.FixedPoint
import PayFi.Spending.Guard

namespace PayFi.Tools.SorobanInvoke

open Library.Numbers Library.Doubles Library.FixedPoint Spending.Tracker Spending.Accounting
open Spending.Guard

/-- What the SDK makes of a contract value. -/
inductive Native where
  | string (s : String)
  | bigint (n : ℤ)
  | number (n : Number)
  | other
  deriving DecidableEq

structure V0 (ScVal : Type) where
  topics : Option (List ScVal)
  data : ScVal

structure DiagnosticEvent (ScVal : Type) where
  inSuccessfulContractCall : Bool
  v0 : Option (V0 ScVal)

variable {ScVal : Type} (scValToNative : ScVal → Option Native)

/-- The data of a value-out event as base units; a value that is no integer counts nothing. -/
def amountOf : Native → ℤ
  | .bigint n => n
  | .number (.finite q) => if q.den = 1 then q.num else 0
  | _ => 0

/-- What one event adds to the total, `none` where the loop continues with the next. A value
that the SDK cannot convert is `none` too. -/
def debit (agentAddress : String) (diagnostic : DiagnosticEvent ScVal) : Option ℤ := do
  guard diagnostic.inSuccessfulContractCall
  let v0 ← diagnostic.v0
  let topics := v0.topics.getD []
  let name ← scValToNative (← topics[0]?)
  guard (name = .string "transfer" ∨ name = .string "transfer_from" ∨ name = .string "burn")
  let debited ← scValToNative (← topics[1]?)
  guard (debited = .string agentAddress)
  let amount ← scValToNative v0.data
  return amountOf amount

def extractSacTransferTotal (events : List (DiagnosticEvent ScVal)) (agentAddress : String) : ℤ :=
  events.foldl (fun total diagnostic =>
    match debit scValToNative agentAddress diagnostic with
    | none => total
    | some amount => total + amount) 0

def sacTokenDecimals : ℕ := 7

/-- Base units with seven decimals, by the truncated division of `bigint`. -/
def sacRawToDecimal (raw : ℤ) : String :=
  let divisor : ℤ := 10 ^ sacTokenDecimals
  let whole := raw.tdiv divisor
  let frac := String.ofList ((toString (raw.tmod divisor)).toList.leftpad sacTokenDecimals '0')
  toString whole ++ "." ++ frac

/-- The guard of an invocation. `record` is false on a dry run. -/
def assertSacTransfersWithinSpendingLimitIn (A : Arithmetic) (cfg : Config) (publicKey : String)
    (s : State) (events : List (DiagnosticEvent ScVal)) (record : Bool) (now now' : ℤ) :
    Except SpendingError Unit × State :=
  let totalRaw := extractSacTransferTotal scValToNative events publicKey
  if totalRaw ≤ 0 then (.ok (), s)
  else
    let amountStr := sacRawToDecimal totalRaw
    let parsed := A.parseFloat amountStr
    let limit := A.parseFloat cfg.spendingLimit
    let transfers := "Contract invocation transfers " ++ amountStr ++ " " ++ cfg.assetCode ++
      " exceeds "
    if !parsed.isNaN && !limit.isNaN && limit.lt parsed then
      (.error (.amount (transfers ++ "AGENT_SPENDING_LIMIT of " ++ cfg.spendingLimit)), s)
    else if !parsed.isNaN && cfg.network == .mainnet && mainnetSpendingCap.lt parsed then
      (.error (.amount (transfers ++ "mainnet spending cap of 10000")), s)
    else if record then
      match recordIn cfg A s amountStr now now' with
      | (.ok (), s) => (.ok (), s)
      | (.error e, s) => (.error (.cumulative e), s)
    else (.ok (), s)

def assertSacTransfersWithinSpendingLimit (cfg : Config) (publicKey : String) (s : State)
    (events : List (DiagnosticEvent ScVal)) (record : Bool) (now now' : ℤ) :
    Except SpendingError Unit × State :=
  assertSacTransfersWithinSpendingLimitIn scValToNative .exact cfg publicKey s events record now
    now'

/-- `merged` is `xs` with allowed elements put in at any places. -/
inductive Inserted {α : Type} (allowed : α → Prop) : List α → List α → Prop where
  | nil : Inserted allowed [] []
  | keep {xs merged : List α} (x : α) (h : Inserted allowed xs merged) :
      Inserted allowed (x :: xs) (x :: merged)
  | insert {xs merged : List α} {y : α} (hy : allowed y) (h : Inserted allowed xs merged) :
      Inserted allowed xs (y :: merged)

variable {scValToNative} {agentAddress : String}

theorem foldl_debit (events : List (DiagnosticEvent ScVal)) (total : ℤ) :
    events.foldl (fun total diagnostic =>
      match debit scValToNative agentAddress diagnostic with
      | none => total
      | some amount => total + amount) total =
      total + (events.filterMap (debit scValToNative agentAddress)).sum := by
  induction events generalizing total with
  | nil => simp
  | cons e events ih =>
    rw [List.foldl_cons, ih]
    cases h : debit scValToNative agentAddress e with
    | none => rw [List.filterMap_cons_none h]
    | some n => rw [List.filterMap_cons_some h, List.sum_cons, add_assoc]

theorem extractSacTransferTotal_eq (events : List (DiagnosticEvent ScVal)) :
    extractSacTransferTotal scValToNative events agentAddress =
      (events.filterMap (debit scValToNative agentAddress)).sum := by
  rw [extractSacTransferTotal, foldl_debit, zero_add]

theorem extractSacTransferTotal_cons (e : DiagnosticEvent ScVal)
    (events : List (DiagnosticEvent ScVal)) :
    extractSacTransferTotal scValToNative (e :: events) agentAddress =
      (debit scValToNative agentAddress e).getD 0 +
        extractSacTransferTotal scValToNative events agentAddress := by
  rw [extractSacTransferTotal_eq, extractSacTransferTotal_eq]
  cases h : debit scValToNative agentAddress e with
  | none => rw [List.filterMap_cons_none h, Option.getD_none, zero_add]
  | some n => rw [List.filterMap_cons_some h, List.sum_cons, Option.getD_some]

theorem total_le_of_inserted {allowed : DiagnosticEvent ScVal → Prop}
    {events merged : List (DiagnosticEvent ScVal)} (h : Inserted allowed events merged)
    (hn : ∀ e, allowed e → 0 ≤ (debit scValToNative agentAddress e).getD 0) :
    extractSacTransferTotal scValToNative events agentAddress ≤
      extractSacTransferTotal scValToNative merged agentAddress := by
  induction h with
  | nil => exact le_rfl
  | keep x _ ih =>
    rw [extractSacTransferTotal_cons, extractSacTransferTotal_cons]
    exact Int.add_le_add_left ih _
  | insert hy _ ih =>
    rw [extractSacTransferTotal_cons]
    have hpos := hn _ hy
    omega

theorem toList_sacRawToDecimal (n : ℕ) : (sacRawToDecimal n).toList = render 7 n := by
  have hdiv : (n : ℤ).tdiv (10 ^ sacTokenDecimals) = ((n / 10 ^ 7 : ℕ) : ℤ) := rfl
  have hmod : (n : ℤ).tmod (10 ^ sacTokenDecimals) = ((n % 10 ^ 7 : ℕ) : ℤ) := rfl
  have htext : ∀ m : ℕ, (toString (m : ℤ)).toList = Nat.toDigits 10 m := fun m =>
    Nat.toList_repr
  have hpad := leftpad_toDigits (n := n % 10 ^ 7) (k := 7) (Nat.mod_lt _ (by decide)) (by decide)
  simp only [sacRawToDecimal, hdiv, hmod, String.toList_append, String.toList_ofList, htext]
  rw [sacTokenDecimals, hpad, render, List.append_assoc]
  rfl

theorem parseFloat_sacRawToDecimal (n : ℕ) :
    parseFloat (sacRawToDecimal n) = .finite ((n : ℚ) / 10 ^ 7) :=
  parseFloat_render (toList_sacRawToDecimal n)

theorem sacRawToDecimal_exact {r : ℤ} (hr : 0 ≤ r) :
    isCanonical 7 (sacRawToDecimal r).toList = true ∧
      parseFloat (sacRawToDecimal r) = .finite (r / 10 ^ 7) := by
  obtain ⟨n, rfl⟩ := Int.eq_ofNat_of_zero_le hr
  refine ⟨?_, parseFloat_sacRawToDecimal n⟩
  rw [toList_sacRawToDecimal]
  exact render_canonical 7 n

/-- An amount that one of the two checks of a single amount refuses. -/
def Excessive (cfg : Config) (q : ℚ) : Prop :=
  Spending.Accounting.value cfg.spendingLimit < q ∨ cfg.network = .mainnet ∧ 10000 < q

variable {cfg : Config} {s : State} {now now' : ℤ} {events : List (DiagnosticEvent ScVal)}

theorem limit_lt (cfg : Config) (q : ℚ) :
    (parseFloat cfg.spendingLimit).lt (.finite q) = decide (value cfg.spendingLimit < q) := by
  rw [(limit_eq cfg).1, Number.lt]

theorem limit_isNaN (cfg : Config) : (parseFloat cfg.spendingLimit).isNaN = false := by
  rw [(limit_eq cfg).1]
  rfl

theorem finite_isNaN (q : ℚ) : (Number.finite q).isNaN = false := by
  simp only [Number.isNaN]

theorem cap_lt (q : ℚ) : mainnetSpendingCap.lt (.finite q) = decide (10000 < q) := by
  rw [mainnetSpendingCap, Number.lt]

theorem assertWithin_of_excessive {a : String} {q : ℚ} (ha : parseFloat a = .finite q)
    (h : Excessive cfg q) (s : State) (now now' : ℤ) :
    ∃ m, assertWithinSpendingLimit cfg s (some a) now now' = (.error (.amount m), s) := by
  simp only [assertWithinSpendingLimit, assertWithinSpendingLimitIn, Arithmetic.parseFloat_exact,
    recordIn_exact, ha, limit_lt, cap_lt, finite_isNaN, Bool.not_false,
    Bool.true_and, decide_eq_true_eq, Bool.and_eq_true, beq_iff_eq]
  by_cases hl : value cfg.spendingLimit < q
  · exact ⟨_, if_pos hl⟩
  · rw [if_neg hl, if_pos (h.resolve_left hl)]
    exact ⟨_, rfl⟩

theorem assertWithin_of_not_excessive {a : String} {q : ℚ} (ha : parseFloat a = .finite q)
    (h : ¬ Excessive cfg q) (s : State) (now now' : ℤ) :
    assertWithinSpendingLimit cfg s (some a) now now' =
      ((record cfg s a now now').1.mapError .cumulative, (record cfg s a now now').2) := by
  rw [Excessive, not_or] at h
  obtain ⟨m, hm⟩ | ⟨-, hrec⟩ := assertWithinSpendingLimit_cases cfg s a now now'
  · simp only [assertWithinSpendingLimit, assertWithinSpendingLimitIn,
      Arithmetic.parseFloat_exact, recordIn_exact, ha, limit_lt, cap_lt, finite_isNaN,
      Bool.not_false, Bool.true_and, decide_eq_true_eq, Bool.and_eq_true, beq_iff_eq, if_neg h.1,
      if_neg h.2] at hm
    split at hm <;> cases hm
  · exact hrec

theorem assertSac_of_excessive {n : ℕ} (hn : 0 < n)
    (ht : extractSacTransferTotal scValToNative events agentAddress = n)
    (h : Excessive cfg (n / 10 ^ 7)) (s : State) (rec : Bool) (now now' : ℤ) :
    ∃ m, assertSacTransfersWithinSpendingLimit scValToNative cfg agentAddress s events rec
      now now' = (.error (.amount m), s) := by
  simp only [assertSacTransfersWithinSpendingLimit, assertSacTransfersWithinSpendingLimitIn,
    Arithmetic.parseFloat_exact, recordIn_exact, ht, parseFloat_sacRawToDecimal, limit_lt,
    cap_lt, limit_isNaN, finite_isNaN, Bool.not_false, Bool.true_and, decide_eq_true_eq,
    Bool.and_eq_true, beq_iff_eq]
  rw [if_neg (by omega)]
  by_cases hl : value cfg.spendingLimit < n / 10 ^ 7
  · exact ⟨_, if_pos hl⟩
  · rw [if_neg hl, if_pos (h.resolve_left hl)]
    exact ⟨_, rfl⟩

theorem assertSac_of_not_excessive {n : ℕ} (hn : 0 < n)
    (ht : extractSacTransferTotal scValToNative events agentAddress = n)
    (h : ¬ Excessive cfg (n / 10 ^ 7)) (s : State) (rec : Bool) (now now' : ℤ) :
    assertSacTransfersWithinSpendingLimit scValToNative cfg agentAddress s events rec now now' =
      if rec then ((record cfg s (sacRawToDecimal n) now now').1.mapError .cumulative,
        (record cfg s (sacRawToDecimal n) now now').2) else (.ok (), s) := by
  rw [Excessive, not_or] at h
  simp only [assertSacTransfersWithinSpendingLimit, assertSacTransfersWithinSpendingLimitIn,
    Arithmetic.parseFloat_exact, recordIn_exact, ht, parseFloat_sacRawToDecimal, limit_lt,
    cap_lt, limit_isNaN, finite_isNaN, Bool.not_false, Bool.true_and, decide_eq_true_eq,
    Bool.and_eq_true, beq_iff_eq, if_neg h.1, if_neg h.2]
  rw [if_neg (by omega)]
  cases rec with
  | false => rfl
  | true =>
    generalize record cfg s (sacRawToDecimal n) now now' = r
    obtain ⟨out, s'⟩ := r
    cases out with
    | ok => rfl
    | error => rfl

theorem assertSac_eq_assertWithin (cfg : Config) {n : ℕ} (hn : 0 < n)
    (ht : extractSacTransferTotal scValToNative events agentAddress = n) (s : State)
    (now now' : ℤ) :
    let invocation := assertSacTransfersWithinSpendingLimit scValToNative cfg agentAddress s events
      true now now'
    let payment := assertWithinSpendingLimit cfg s (some (sacRawToDecimal n)) now now'
    invocation.1.isOk = payment.1.isOk ∧ invocation.2 = payment.2 := by
  intro invocation payment
  have hparse := parseFloat_sacRawToDecimal n
  by_cases he : Excessive cfg (n / 10 ^ 7)
  · obtain ⟨m, hm⟩ := assertSac_of_excessive hn ht he s true now now'
    obtain ⟨m', hm'⟩ := assertWithin_of_excessive hparse he s now now'
    have hi : invocation = (.error (.amount m), s) := hm
    have hp : payment = (.error (.amount m'), s) := hm'
    rw [hi, hp]
    exact ⟨rfl, rfl⟩
  · have hi := assertSac_of_not_excessive hn ht he s true now now'
    have hp := assertWithin_of_not_excessive hparse he s now now'
    have hsame : invocation = payment := hi.trans hp.symm
    rw [hsame]
    exact ⟨rfl, rfl⟩

theorem assertSac_dryRun (cfg : Config) {n : ℕ} (hn : 0 < n)
    (ht : extractSacTransferTotal scValToNative events agentAddress = n) (s : State)
    (now now' : ℤ) :
    let dryRun := assertSacTransfersWithinSpendingLimit scValToNative cfg agentAddress s events
      false now now'
    (dryRun.1.isOk = false ↔ Excessive cfg (n / 10 ^ 7)) ∧ dryRun.2 = s := by
  intro dryRun
  by_cases he : Excessive cfg (n / 10 ^ 7)
  · obtain ⟨m, hm⟩ := assertSac_of_excessive hn ht he s false now now'
    have hd : dryRun = (.error (.amount m), s) := hm
    rw [hd]
    exact ⟨iff_of_true rfl he, rfl⟩
  · have hd : dryRun = (.ok (), s) := assertSac_of_not_excessive hn ht he s false now now'
    rw [hd]
    exact ⟨iff_of_false Bool.noConfusion he, rfl⟩

/-- An invocation that is to be sent is refused exactly when a payment of its total would be,
and records the same. A dry run refuses by the amount alone and records nothing. -/
theorem guards_agree (scValToNative : ScVal → Option Native) (cfg : Config) (publicKey : String)
    (s : State) (events : List (DiagnosticEvent ScVal)) (now now' : ℤ)
    (h : 0 < extractSacTransferTotal scValToNative events publicKey) :
    let raw := extractSacTransferTotal scValToNative events publicKey
    let invocation := assertSacTransfersWithinSpendingLimit scValToNative cfg publicKey s events
      true now now'
    let payment := assertWithinSpendingLimit cfg s (some (sacRawToDecimal raw)) now now'
    let dryRun := assertSacTransfersWithinSpendingLimit scValToNative cfg publicKey s events
      false now now'
    (invocation.1.isOk = payment.1.isOk ∧ invocation.2 = payment.2) ∧
      ((dryRun.1.isOk = false ↔ Excessive cfg (raw / 10 ^ 7)) ∧ dryRun.2 = s) ∧
      ∀ r : ℤ, 0 ≤ r → isCanonical 7 (sacRawToDecimal r).toList = true ∧
        parseFloat (sacRawToDecimal r) = .finite (r / 10 ^ 7) := by
  intro raw invocation payment dryRun
  obtain ⟨n, hn⟩ := Int.eq_ofNat_of_zero_le h.le
  have hpos : 0 < n := by omega
  have hraw : raw = n := hn
  have hvalue : (raw : ℚ) = n := by
    rw [hraw, Int.cast_natCast]
  have hagree := assertSac_eq_assertWithin cfg hpos hn s now now'
  rw [← hraw] at hagree
  rw [hvalue]
  exact ⟨hagree, assertSac_dryRun cfg hpos hn s now now', fun r => sacRawToDecimal_exact⟩

/-- Contract values as far as a value-out event has them. -/
inductive Val where
  | symbol (s : String)
  | address (a : String)
  | i128 (n : ℤ)
  deriving DecidableEq

def Val.native : Val → Option Native
  | .symbol s => some (.string s)
  | .address a => some (.string a)
  | .i128 n => some (.bigint n)

def transfer (debited : String) (amount : ℤ) : DiagnosticEvent Val :=
  ⟨true, some ⟨some [.symbol "transfer", .address debited, .address "GOTHER"], .i128 amount⟩⟩

theorem guards_agree_transfer :
    let cfg : Config := ⟨.testnet, "100", 1000, "USDC", by decide, by decide⟩
    let raw := extractSacTransferTotal Val.native [transfer "GAGENT" 400000000] "GAGENT"
    let invocation := assertSacTransfersWithinSpendingLimit Val.native cfg "GAGENT" ⟨[], []⟩
      [transfer "GAGENT" 400000000] true 5 6
    let payment := assertWithinSpendingLimit cfg ⟨[], []⟩ (some (sacRawToDecimal raw)) 5 6
    let dryRun := assertSacTransfersWithinSpendingLimit Val.native cfg "GAGENT" ⟨[], []⟩
      [transfer "GAGENT" 400000000] false 5 6
    (invocation.1.isOk = payment.1.isOk ∧ invocation.2 = payment.2) ∧
      ((dryRun.1.isOk = false ↔ Excessive cfg (raw / 10 ^ 7)) ∧ dryRun.2 = ⟨[], []⟩) ∧
      ∀ r : ℤ, 0 ≤ r → isCanonical 7 (sacRawToDecimal r).toList = true ∧
        parseFloat (sacRawToDecimal r) = .finite (r / 10 ^ 7) :=
  guards_agree Val.native _ "GAGENT" ⟨[], []⟩ [transfer "GAGENT" 400000000] 5 6 (by decide)

/-- The amount check of the guard refuses a total, or on mainnet the cap does. -/
def Refused (A : Arithmetic) (cfg : Config) (raw : ℤ) : Prop :=
  (A.parseFloat cfg.spendingLimit).lt (A.round (raw / 10 ^ 7)) = true ∨
    cfg.network = .mainnet ∧ mainnetSpendingCap.lt (A.round (raw / 10 ^ 7)) = true

variable {A : Arithmetic}

theorem not_isNaN_and_lt (m n : Number) : (!m.isNaN && m.lt n) = m.lt n := by
  cases m <;> cases n <;> rfl

theorem not_isNaN_and_and_lt (b : Bool) (m n : Number) :
    (!n.isNaN && b && m.lt n) = (b && m.lt n) := by
  cases b <;> cases m <;> cases n <;> rfl

theorem round_sacRawToDecimal (A : Arithmetic) (n : ℕ) :
    A.parseFloat (sacRawToDecimal n) = A.round ((n : ℤ) / 10 ^ 7) := by
  rw [Arithmetic.parseFloat, parseFloat_sacRawToDecimal, Int.cast_natCast]
  rfl

theorem not_ok_of_refused
    (hpos : 0 < extractSacTransferTotal scValToNative events agentAddress)
    (h : Refused A cfg (extractSacTransferTotal scValToNative events agentAddress)) (rec : Bool) :
    (assertSacTransfersWithinSpendingLimitIn scValToNative A cfg agentAddress s events rec
      now now').1.isOk = false := by
  obtain ⟨n, hn⟩ := Int.eq_ofNat_of_zero_le hpos.le
  rw [hn] at h hpos
  simp only [assertSacTransfersWithinSpendingLimitIn, hn, if_neg (not_le.mpr hpos),
    not_isNaN_and_lt, not_isNaN_and_and_lt, round_sacRawToDecimal]
  simp only [Bool.and_eq_true, beq_iff_eq]
  by_cases hlimit : (A.parseFloat cfg.spendingLimit).lt (A.round ((n : ℤ) / 10 ^ 7)) = true
  · rw [if_pos hlimit]
    rfl
  · rw [if_neg hlimit, if_pos (h.resolve_left hlimit)]
    rfl

theorem refused_of_not_ok
    (hok : (assertSacTransfersWithinSpendingLimitIn scValToNative A cfg agentAddress s events false
      now now').1.isOk = false) :
    Refused A cfg (extractSacTransferTotal scValToNative events agentAddress) := by
  unfold assertSacTransfersWithinSpendingLimitIn at hok
  by_cases hpos : 0 < extractSacTransferTotal scValToNative events agentAddress
  · obtain ⟨n, hn⟩ := Int.eq_ofNat_of_zero_le hpos.le
    rw [hn] at hpos
    simp only [hn, if_neg (not_le.mpr hpos), not_isNaN_and_lt, not_isNaN_and_and_lt,
      round_sacRawToDecimal] at hok
    simp only [Bool.and_eq_true, beq_iff_eq] at hok
    rw [hn]
    split at hok
    · exact .inl ‹_›
    · split at hok
      · exact .inr ‹_›
      · cases hok
  · simp only [if_pos (not_lt.mp hpos)] at hok
    cases hok

theorem Refused.of_le {raw raw' : ℤ} (h : Refused .double cfg raw) (hraw : 0 ≤ raw)
    (hle : raw ≤ raw') : Refused .double cfg raw' := by
  have hnonneg : (0 : ℚ) ≤ raw / 10 ^ 7 := by positivity
  have hq : (raw : ℚ) / 10 ^ 7 ≤ raw' / 10 ^ 7 := by gcongr
  exact h.imp (lt_toDouble_of_le hnonneg hq) fun ⟨hnet, hcap⟩ =>
    ⟨hnet, lt_toDouble_of_le hnonneg hq hcap⟩

theorem pos_of_over {raw : ℤ} (h : value cfg.spendingLimit < raw / 10 ^ 7) : 0 < raw := by
  have hdiv : (0 : ℚ) < raw / 10 ^ 7 := (limit_eq cfg).2.trans_lt h
  rw [div_pos_iff_of_pos_right (by positivity)] at hdiv
  exact_mod_cast hdiv

theorem Inserted.refl {α : Type} (allowed : α → Prop) (xs : List α) : Inserted allowed xs xs := by
  induction xs with
  | nil => exact .nil
  | cons x xs ih => exact .keep x ih

/-- Events put in at any places neither lower the total nor let an excessive one pass, exactly
when none of them is a debit of a negative amount and the excess is one that doubles show. -/
theorem extraction_monotone_iff (scValToNative : ScVal → Option Native) (agentAddress : String)
    (allowed : DiagnosticEvent ScVal → Prop) (cfg : Config)
    (events : List (DiagnosticEvent ScVal)) :
    let total events := extractSacTransferTotal scValToNative events agentAddress
    (∀ merged, Inserted allowed events merged → total events ≤ total merged ∧
      (value cfg.spendingLimit < total events / 10 ^ 7 → ∀ s record now now',
        (assertSacTransfersWithinSpendingLimitIn scValToNative .double cfg agentAddress s merged
          record now now').1.isOk = false)) ↔
      (∀ e, allowed e → ∀ n, debit scValToNative agentAddress e = some n → 0 ≤ n) ∧
        (value cfg.spendingLimit < total events / 10 ^ 7 → Refused .double cfg (total events)) := by
  intro total
  constructor
  · refine fun h => ⟨fun e he n hn => ?_, fun hover => ?_⟩
    · have hle := (h (e :: events) (.insert he (.refl allowed events))).1
      simp only [total, extractSacTransferTotal_cons, hn, Option.getD_some] at hle
      omega
    · exact refused_of_not_ok ((h events (.refl allowed events)).2 hover ⟨[], []⟩ false 0 0)
  · rintro ⟨hnonneg, hshown⟩ merged hi
    have hle : total events ≤ total merged := by
      apply total_le_of_inserted hi
      intro e he
      cases hd : debit scValToNative agentAddress e with
      | none => exact le_rfl
      | some n => exact hnonneg e he n hd
    refine ⟨hle, fun hover s rec now now' => ?_⟩
    have hpos := pos_of_over hover
    exact not_ok_of_refused (hpos.trans_le hle) ((hshown hover).of_le hpos.le hle) rec

/-- A contract that emits a transfer of -150 from the agent hides a transfer of 200. -/
theorem extraction_lowered :
    let cfg : Config := ⟨.testnet, "100", 1000, "USDC", by decide, by decide⟩
    let genuine := [transfer "GAGENT" 2000000000]
    let merged := [transfer "GAGENT" 2000000000, transfer "GAGENT" (-1500000000)]
    let refused events := !(assertSacTransfersWithinSpendingLimitIn Val.native .double cfg "GAGENT"
      ⟨[], []⟩ events true 5 6).1.isOk
    Inserted (fun _ => True) genuine merged ∧
      extractSacTransferTotal Val.native merged "GAGENT" <
        extractSacTransferTotal Val.native genuine "GAGENT" ∧
      refused genuine = true ∧ refused merged = false := by
  refine ⟨.keep _ (.insert trivial .nil), ?_, ?_, ?_⟩
  · decide
  · decide +kernel
  · decide +kernel

end PayFi.Tools.SorobanInvoke
