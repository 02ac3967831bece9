import PayFi.Tools.Payment

namespace PayFi.Tools.TransactionBuilder

open Library.Numbers Library.Results Network.Submission Payment

/-- A value of any type. Of an object that is neither a plain one nor an asset only its text
matters here. -/
inductive Value where
  | undefined
  | null
  | boolean (b : Bool)
  | number (n : Number)
  | string (s : String)
  | array (vs : List Value)
  | object (fields : List (String × Value))
  | asset (a : Asset)
  | other (text : String)

def Value.get (v : Value) (key : String) : Value :=
  match v with
  | .object fields => (fields.lookup key).getD .undefined
  | _ => .undefined

def Value.truthy : Value → Bool
  | .undefined | .null => false
  | .boolean b => b
  | .number n => !n.isNaN && n ≠ .finite 0
  | .string s => s ≠ ""
  | _ => true

/-- The operator `??`. -/
def Value.orElse (v w : Value) : Value :=
  match v with
  | .undefined | .null => w
  | v => v

def Value.isString (v : Value) (s : String) : Bool :=
  match v with
  | .string t => t = s
  | _ => false

def assetText : Asset → String
  | .native => "native"
  | .issued code issuer => code ++ ":" ++ issuer

mutual

/-- What `String` makes of a value, with the texts of numbers given. -/
def Value.text (numberText : Number → String) : Value → String
  | .undefined => "undefined"
  | .null => "null"
  | .boolean b => toString b
  | .number n => numberText n
  | .string s => s
  | .array vs => ",".intercalate (texts numberText vs)
  | .object _ => "[object Object]"
  | .asset a => assetText a
  | .other text => text

def texts (numberText : Number → String) : List Value → List String
  | [] => []
  | .undefined :: vs => "" :: texts numberText vs
  | .null :: vs => "" :: texts numberText vs
  | v :: vs => v.text numberText :: texts numberText vs

end

inductive Operation where
  | payment (destination : String) (asset : Asset) (amount : String) (source : Option String)
  | changeTrust (asset : Asset) (limit : Option String) (source : Option String)
  | manageSellOffer (selling buying : Asset) (amount price offerId : String)
      (source : Option String)
  | pathPaymentStrictReceive (sendAsset : Asset) (sendMax destination : String)
      (destAsset : Asset) (destAmount : String) (path : List Asset) (source : Option String)
  | pathPaymentStrictSend (sendAsset : Asset) (sendAmount destination : String)
      (destAsset : Asset) (destMin : String) (path : List Asset) (source : Option String)
  | createAccount (destination startingBalance : String) (source : Option String)
  | accountMerge (destination : String) (source : Option String)
  | manageData (name : String) (value : Value) (source : Option String)
  | setOptions (payload : Value)
  | call (contractId method : String) (args : List Value)
  | named (type : String) (payload : Value)

def times : Number → ℕ → Number
  | .finite q, n => .finite (q * n)
  | .infinity _, 0 => .nan
  | .infinity negative, _ => .infinity negative
  | .nan, _ => .nan

/-- The SDK's builder, by what it has been called with. The fee is the number that its text
is for. -/
structure Builder where
  source : String
  sequence : ℤ
  fee : Number
  networkPassphrase : String
  timebounds : Option (Number × Number)
  memo : Option Memo
  timeout : Option Number
  operations : List Operation

structure Transaction where
  source : String
  sequence : ℤ
  fee : Number
  timebounds : Number × Number
  memo : Option Memo
  operations : List Operation
  signatures : List String

/-- The tool with its key and its network, what it takes from the SDK, and the conversions
between numbers and texts. The SDK charges the fee of the options for each operation. -/
structure Setup where
  publicKey : String
  networkPassphrase : String
  numberText : Number → String
  toNumber : String → Number
  sdk : Sdk
  isOperation : String → Bool
  operation : Operation → Except Fault Unit
  memo : MemoType → String → Except Fault Memo
  build : Builder → Except Fault Transaction
  toXDR : Transaction → Except Fault String
  sign : Transaction → String
  fee_eq : ∀ b tx, build b = .ok tx → tx.fee = times b.fee b.operations.length

variable {su : Setup}

/-- `new Asset`; a code or an issuer that is no text does not get through the SDK. -/
def newAsset (su : Setup) (code issuer : Value) : Except Fault Asset :=
  match code, issuer with
  | .string code, .string issuer =>
    (su.sdk.newAsset code issuer).map fun _ => .issued code issuer
  | _, _ => .error (.error "Asset code is invalid (maximum alphanumeric, 12 characters at max)")

def parseAsset (su : Setup) (assetInput : Value) : Except Fault Asset :=
  if !assetInput.truthy then .ok .native
  else
    match assetInput with
    | .asset a => .ok a
    | .string s =>
      if s = "XLM" ∨ s = "native" then .ok .native
      else
        match s.splitOn ":" with
        | [code, issuer] =>
          if code ≠ "" ∧ issuer ≠ "" then newAsset su (.string code) (.string issuer)
          else .ok .native
        | _ => .ok .native
    | .object _ =>
      let code := (assetInput.get "code").orElse (assetInput.get "assetCode")
      let issuer := (assetInput.get "issuer").orElse (assetInput.get "assetIssuer")
      if !code.truthy || code.isString "XLM" || !issuer.truthy then .ok .native
      else newAsset su code issuer
    | _ => .ok .native

def field (su : Setup) (payload : Value) (key : String) : String :=
  (payload.get key).text su.numberText

def sourceOf (su : Setup) (payload : Value) : Option String :=
  if (payload.get "source").truthy then some (field su payload "source") else none

def arrayOf (payload : Value) (key : String) : List Value :=
  match payload.get key with
  | .array vs => vs
  | _ => []

/-- The asset of the fields `assetCode` and `assetIssuer`. -/
def codedAsset (su : Setup) (payload : Value) : Except Fault Asset :=
  newAsset su (.string (field su payload "assetCode"))
    (.string (field su payload "assetIssuer"))

def payment (su : Setup) (payload : Value) : Except Fault Operation := do
  let asset ←
    if (payload.get "assetCode").truthy && !(payload.get "assetCode").isString "XLM" &&
        (payload.get "assetIssuer").truthy then
      codedAsset su payload
    else parseAsset su (payload.get "asset")
  return .payment (field su payload "destination") asset (field su payload "amount")
    (sourceOf su payload)

def changeTrust (su : Setup) (payload : Value) : Except Fault Operation := do
  let asset ←
    if (payload.get "assetCode").truthy && (payload.get "assetIssuer").truthy then
      codedAsset su payload
    else parseAsset su (payload.get "asset")
  let limit :=
    if (payload.get "action").isString "remove" then some "0"
    else
      match payload.get "limit" with
      | .undefined => none
      | _ => some (field su payload "limit")
  return .changeTrust asset limit (sourceOf su payload)

def dexOffer (su : Setup) (payload : Value) : Except Fault Operation := do
  let selling ← parseAsset su (payload.get "selling")
  let buying ← parseAsset su (payload.get "buying")
  let amount :=
    if (payload.get "action").isString "delete" then "0" else field su payload "amount"
  let offerId :=
    match payload.get "offerId" with
    | .undefined => "0"
    | _ => field su payload "offerId"
  return .manageSellOffer selling buying amount (field su payload "price") offerId
    (sourceOf su payload)

/-- The asset of a payload under its own key, or else by its code and its issuer. -/
def splitAsset (payload : Value) (key codeKey issuerKey : String) : Value :=
  (payload.get key).orElse
    (.object [("code", payload.get codeKey), ("issuer", payload.get issuerKey)])

def pathPaymentStrictReceive (su : Setup) (payload : Value) : Except Fault Operation := do
  let sendAsset ←
    parseAsset su (splitAsset payload "sendAsset" "sendAssetCode" "sendAssetIssuer")
  let destAsset ←
    parseAsset su (splitAsset payload "destAsset" "destAssetCode" "destAssetIssuer")
  let path ← (arrayOf payload "path").mapM (parseAsset su)
  return .pathPaymentStrictReceive sendAsset (field su payload "sendMax")
    (field su payload "destination") destAsset (field su payload "destAmount") path
    (sourceOf su payload)

def pathPaymentStrictSend (su : Setup) (payload : Value) : Except Fault Operation := do
  let sendAsset ← parseAsset su (payload.get "sendAsset")
  let destAsset ← parseAsset su (payload.get "destAsset")
  let path ← (arrayOf payload "path").mapM (parseAsset su)
  return .pathPaymentStrictSend sendAsset (field su payload "sendAmount")
    (field su payload "destination") destAsset (field su payload "destMin") path
    (sourceOf su payload)

/-- An operation of the SDK by its own name, for a type that is none of the tasks'. -/
def named (su : Setup) (type : String) (payload : Value) : Except Fault Operation :=
  match payload.get "type" with
  | .string name =>
    if su.isOperation name then .ok (.named name payload)
    else .error (.error ("Unsupported task type for multi-op transaction builder: " ++ type))
  | _ => .error (.error ("Unsupported task type for multi-op transaction builder: " ++ type))

def payloadOf (task : Value) : Value :=
  let payload := (task.get "payload").orElse task
  if payload.truthy then payload else .object []

def operationOf (su : Setup) (type : String) (payload : Value) : Except Fault Operation :=
  match type with
  | "stellar_payment" | "payment" => payment su payload
  | "change_trust" => changeTrust su payload
  | "dex_offer" => dexOffer su payload
  | "path_payment" | "path_payment_strict_receive" => pathPaymentStrictReceive su payload
  | "path_payment_strict_send" => pathPaymentStrictSend su payload
  | "create_account" => .ok (.createAccount (field su payload "destination")
      (field su payload "startingBalance") (sourceOf su payload))
  | "account_merge" => .ok (.accountMerge (field su payload "destination") (sourceOf su payload))
  | "manage_data" =>
    .ok (.manageData (field su payload "name") (payload.get "value") (sourceOf su payload))
  | "set_options" => .ok (.setOptions payload)
  | "soroban_invoke" =>
    .ok (.call (field su payload "contractId") (field su payload "method") (arrayOf payload "args"))
  | _ => named su type payload

def taskToOperation (su : Setup) (task : Value) : Except Fault Operation :=
  match task with
  | .undefined => .error (.type "Cannot read properties of undefined (reading 'type')")
  | .null => .error (.type "Cannot read properties of null (reading 'type')")
  | task => do
    let type := ((task.get "type").orElse (.string "")).text su.numberText
    let operation ← operationOf su type (payloadOf task)
    su.operation operation
    return operation

inductive MemoInput where
  | string (s : String)
  | object (type : Option String) (value : MemoValue)
  | memo (m : Option Memo)

inductive TimeBounds where
  | seconds (n : Number)
  | bounds (minTime maxTime : Option MemoValue)

structure RawTransaction where
  operations : Option (List Value)
  memo : Option MemoInput
  timeBounds : Option TimeBounds
  simulateOnly : Option Bool
  baseFee : Option Number

structure TransactionBuilderInput where
  operations : List Value
  memo : Option MemoInput
  timeBounds : Option TimeBounds
  simulateOnly : Bool
  baseFee : Option Number
  nonempty : operations ≠ []

def operationsIssues : Option (List Value) → List Issue
  | none => [⟨["operations"], "Required"⟩]
  | some [] => [⟨["operations"], "At least one operation is required"⟩]
  | some _ => []

def isNaN : MemoValue → Bool
  | .string _ => false
  | .number n => n.isNaN

def memoIssues : Option MemoInput → List Issue
  | some (.object type value) =>
    ensure ((memoTypeOf type).isSome && !isNaN value) ["memo"] "Invalid input"
  | _ => []

def timeBoundsIssues : Option TimeBounds → List Issue
  | some (.seconds n) => ensure (!n.isNaN) ["timeBounds"] "Invalid input"
  | some (.bounds minTime maxTime) =>
    ensure (!(minTime.any isNaN || maxTime.any isNaN)) ["timeBounds"] "Invalid input"
  | none => []

def baseFeeIssues (baseFee : Option Number) : List Issue :=
  ensure (!baseFee.any Number.isNaN) ["baseFee"] "Expected number, received nan"

def transactionBuilderInputSchema (raw : RawTransaction) :
    Except (List Issue) TransactionBuilderInput :=
  let issues := operationsIssues raw.operations ++ memoIssues raw.memo ++
    timeBoundsIssues raw.timeBounds ++ baseFeeIssues raw.baseFee
  match issues, raw.operations with
  | [], some (op :: ops) => .ok ⟨op :: ops, raw.memo, raw.timeBounds, raw.simulateOnly.getD false,
      raw.baseFee, List.cons_ne_nil op ops⟩
  | issues, _ => .error issues

def addMemo (su : Setup) : Option MemoInput → Except Fault (Option Memo)
  | none => .ok none
  | some (.string s) => if s = "" then .ok none else (su.memo .text s).map some
  | some (.object type (.string s)) => (su.memo ((memoTypeOf type).getD .text) s).map some
  | some (.object type (.number n)) =>
    (su.memo ((memoTypeOf type).getD .text) (su.numberText n)).map some
  | some (.memo m) => .ok m

def timeOf (su : Setup) : Option MemoValue → Number
  | none => .finite 0
  | some (.string s) => su.toNumber s
  | some (.number n) => n

def timebounds (su : Setup) : Option TimeBounds → Option (Number × Number)
  | some (.bounds minTime maxTime) => some (timeOf su minTime, timeOf su maxTime)
  | _ => none

def timeout : Option TimeBounds → Option Number
  | some (.seconds n) => some n
  | some (.bounds _ _) => none
  | none => some (.finite 30)

def baseFeeOf (input : TransactionBuilderInput) : Number := input.baseFee.getD (.finite 100)

/-- What `execute` does up to the transaction, with the sequence number of the account. -/
def compose (su : Setup) (raw : RawTransaction) (account : Except Fault ℤ) :
    Except Fault (TransactionBuilderInput × Transaction) := do
  let input ← (transactionBuilderInputSchema raw).mapError .zod
  let operations ← input.operations.mapM (taskToOperation su)
  let sequence ← account
  let totalFee := times (baseFeeOf input) (max 1 operations.length)
  let memo ← addMemo su input.memo
  let tx ← su.build ⟨su.publicKey, sequence, totalFee, su.networkPassphrase,
    timebounds su input.timeBounds, memo, timeout input.timeBounds, operations⟩
  return (input, tx)

structure TransactionBuilderResult where
  txHash : Option String
  ledger : Option ℕ
  xdr : String
  operationsCount : ℕ

/-- How a call ends, the transaction it has built, and the one it has handed to
`submitTransaction`. -/
structure Outcome where
  result : Except Fault TransactionBuilderResult
  built : Option Transaction
  submitted : Option Transaction

def execute (su : Setup) (raw : RawTransaction) (account : Except Fault ℤ)
    (receipt : Except Fault SubmitResult) : Outcome :=
  match compose su raw account with
  | .error e => ⟨.error e, none, none⟩
  | .ok (input, tx) =>
    match su.toXDR tx with
    | .error e => ⟨.error e, some tx, none⟩
    | .ok xdr =>
      if input.simulateOnly then
        ⟨.ok ⟨none, none, xdr, input.operations.length⟩, some tx, none⟩
      else
        ⟨receipt.map fun r => ⟨r.hash, r.ledger, xdr, input.operations.length⟩, some tx,
          some { tx with signatures := tx.signatures ++ [su.sign tx] }⟩

variable {raw : RawTransaction} {account : Except Fault ℤ} {receipt : Except Fault SubmitResult}
  {input : TransactionBuilderInput} {tx : Transaction}

/-- A fee for all operations charged once more for each is the same only for one operation,
or when there is none to pay. -/
theorem times_times_eq_iff {x : Number} {n : ℕ} (hn : n ≠ 0) :
    times (times x n) n = times x n ↔ ∀ q, x = .finite q → n = 1 ∨ q = 0 := by
  cases x with
  | nan => simp [times]
  | infinity negative =>
    cases n with
    | zero => exact absurd rfl hn
    | succ n => simp [times]
  | finite q =>
    have hcast : (n : ℚ) ≠ 0 := Nat.cast_ne_zero.mpr hn
    simp only [times, Number.finite.injEq, forall_eq', mul_right_eq_self₀, Nat.cast_eq_one,
      mul_eq_zero, hcast, or_false]

theorem compose_ok (h : compose su raw account = .ok (input, tx)) :
    transactionBuilderInputSchema raw = .ok input ∧
      ∃ operations sequence memo, input.operations.mapM (taskToOperation su) = .ok operations ∧
        account = .ok sequence ∧ addMemo su input.memo = .ok memo ∧
        su.build ⟨su.publicKey, sequence, times (baseFeeOf input) (max 1 operations.length),
          su.networkPassphrase, timebounds su input.timeBounds, memo, timeout input.timeBounds,
          operations⟩ = .ok tx := by
  simp only [compose, bind_eq_ok, mapError_eq_ok] at h
  obtain ⟨input', hinput, operations, hoperations, sequence, haccount, memo, hmemo, h⟩ := h
  obtain ⟨tx', htx, h⟩ := h
  cases h
  exact ⟨hinput, operations, sequence, memo, hoperations, haccount, hmemo, htx⟩

theorem execute_built (h : (execute su raw account receipt).built = some tx) :
    ∃ input, compose su raw account = .ok (input, tx) := by
  unfold execute at h
  split at h
  · cases h
  · rename_i input tx' hcompose
    have htx : tx' = tx := by
      split at h
      · exact Option.some.inj h
      · split at h <;> exact Option.some.inj h
    rw [← htx]
    exact ⟨input, hcompose⟩

theorem built_fee (h : compose su raw account = .ok (input, tx)) :
    tx.fee = times (times (baseFeeOf input) input.operations.length) input.operations.length := by
  obtain ⟨-, operations, sequence, memo, hoperations, -, -, hbuild⟩ := compose_ok h
  have hlength : operations.length = input.operations.length :=
    (mapM_eq_ok.mp hoperations).length_eq.symm
  have hpos : 1 ≤ input.operations.length := List.length_pos_iff.mpr input.nonempty
  rw [su.fee_eq _ _ hbuild, hlength, Nat.max_eq_right hpos]

/-- The fee of a transaction that is built is the base fee times the operations exactly when
there is one operation, or when the base fee is zero or no finite number. -/
theorem fee_per_operation_iff (su : Setup) (raw : RawTransaction) (account : Except Fault ℤ)
    (receipt : Except Fault SubmitResult) (input : TransactionBuilderInput) (tx : Transaction)
    (hinput : transactionBuilderInputSchema raw = .ok input)
    (h : (execute su raw account receipt).built = some tx) :
    tx.fee = times (baseFeeOf input) input.operations.length ↔
      ∀ q, baseFeeOf input = .finite q → input.operations.length = 1 ∨ q = 0 := by
  obtain ⟨input', hcompose⟩ := execute_built h
  have hinput' := (compose_ok hcompose).1
  rw [hinput] at hinput'
  cases hinput'
  rw [built_fee hcompose, times_times_eq_iff]
  exact (List.length_pos_iff.mpr input.nonempty).ne'

/-- A tool whose SDK accepts everything. -/
def tool : Setup where
  publicKey := "GAGENT"
  networkPassphrase := "Test SDF Network ; September 2015"
  numberText := fun _ => "0"
  toNumber := fun _ => .nan
  sdk := ⟨fun _ => true, fun _ _ => .ok (), fun _ _ _ => .ok (), fun _ _ _ _ _ _ => .ok (),
    fun _ => ""⟩
  isOperation := fun _ => false
  operation := fun _ => .ok ()
  memo := fun _ s => .ok (.text s)
  build := fun b => .ok ⟨b.source, b.sequence + 1, times b.fee b.operations.length,
    b.timebounds.getD (.finite 0, .finite 30), b.memo, b.operations, []⟩
  toXDR := fun _ => .ok "AAAA"
  sign := fun _ => "agent"
  fee_eq := fun b tx h => by
    cases h
    rfl

def mergeTask : Value :=
  .object [("type", .string "account_merge"),
    ("payload", .object [("destination", .string "GDESTINATION")])]

def batch (n : ℕ) (baseFee : Option Number) : RawTransaction :=
  ⟨some (List.replicate n mergeTask), none, none, some true, baseFee⟩

def builtFee (raw : RawTransaction) : Option Number :=
  (execute tool raw (.ok 7) (.ok ⟨none, none⟩)).built.map Transaction.fee

theorem fee_of_one_operation :
    times (times (.finite 100) 1) 1 = times (.finite 100) 1 :=
  (fee_per_operation_iff tool (batch 1 none) (.ok 7) (.ok ⟨none, none⟩)
    ⟨[mergeTask], none, none, true, none, List.cons_ne_nil _ _⟩
    ⟨"GAGENT", 8, times (times (.finite 100) 1) 1, (.finite 0, .finite 30), none,
      [.accountMerge "GDESTINATION" none], []⟩ rfl rfl).mpr fun _ _ => .inl rfl

/-- Two operations cost four times the default base fee. -/
theorem fee_of_two_operations : builtFee (batch 2 none) = some (.finite 400) ∧
    times (.finite 100) 2 = .finite 200 := by
  decide +kernel

end PayFi.Tools.TransactionBuilder
