import PayFi.Tools.Payment

namespace PayFi.Tools.Rebuilding

open Spending.Guard Library.Numbers Network.Submission Payment

/-- What one call of `execute` meets: two loads of the account's sequence number and
two submissions. -/
structure Network where
  load : Except Fault ℤ
  first : Script
  reload : Except Fault ℤ
  second : Script

variable {Op σ : Type}

def submitResultSchema (r : SubmitResult) : Except (List Issue) (String × ℕ) :=
  match r.hash, r.ledger with
  | some hash, some ledger => .ok (hash, ledger)
  | hash, ledger => .error (ensure hash.isSome ["hash"] "Required" ++
      ensure ledger.isSome ["ledger"] "Required")

def parse (out : Except Fault SubmitResult × σ) : Except Fault (String × ℕ) × σ :=
  (out.1.bind fun r => (submitResultSchema r).mapError .zod, out.2)

def submit (retries : ℕ) (s : Script) (tx : Transaction Op) (l : Ledger Op) :
    Except Fault (String × ℕ) × Ledger Op :=
  parse (submitTransaction retries s tx l)

/-- The account as it is loaded and reloaded, and the two ways to submit to whatever `σ` is. -/
structure Connection (σ Op : Type) where
  load : Except Fault ℤ
  first : Transaction Op → σ → Except Fault SubmitResult × σ
  reload : Except Fault ℤ
  second : Transaction Op → σ → Except Fault SubmitResult × σ

def Network.connection (retries : ℕ) (net : Network) : Connection (Ledger Op) Op :=
  ⟨net.load, submitTransaction retries net.first, net.reload, submitTransaction retries net.second⟩

def mentionsBadSeq (e : Fault) : Bool := includes e.message "tx_bad_seq"

def submitRebuildingOn (c : Connection σ Op) (content : Except Fault Op) (s : σ) :
    Except Fault (String × ℕ) × σ :=
  match c.load, content with
  | .error e, _ => (.error e, s)
  | .ok _, .error e => (.error e, s)
  | .ok sequence, .ok operation =>
    match parse (c.first ⟨sequence + 1, operation⟩ s) with
    | (.ok receipt, s) => (.ok receipt, s)
    | (.error e, s) =>
      if mentionsBadSeq e then
        match c.reload with
        | .error e => (.error e, s)
        | .ok sequence => parse (c.second ⟨sequence + 1, operation⟩ s)
      else (.error e, s)

def submitRebuilding (retries : ℕ) (net : Network) (content : Except Fault Op) (l : Ledger Op) :
    Except Fault (String × ℕ) × Ledger Op :=
  submitRebuildingOn (net.connection retries) content l

namespace StellarPaymentTool

def executeOn (sdk : Sdk) (publicKey : String) (raw : RawPayment)
    (c : Connection σ PaymentContent) (s : σ) : Except Fault (String × ℕ) × σ :=
  match prepare sdk publicKey raw with
  | .error e => (.error e, s)
  | .ok (input, asset) => submitRebuildingOn c (content sdk input asset) s

def execute (retries : ℕ) (sdk : Sdk) (publicKey : String) (raw : RawPayment) (net : Network)
    (l : Ledger PaymentContent) : Except Fault (String × ℕ) × Ledger PaymentContent :=
  executeOn sdk publicKey raw (net.connection retries) l

end StellarPaymentTool

namespace PathPaymentTool

structure RawAsset where
  code : Option String
  issuer : Option String

structure RawPathPayment where
  destination : Option String
  sendAsset : RawAsset
  sendAmount : Option String
  destAsset : RawAsset
  destMinAmount : Option String
  path : List RawAsset
  allowSelfPayment : Option Bool
  memoType : Option String
  memo : Option MemoValue

structure AssetInput where
  code : String
  issuer : Option String

structure PathPaymentInput where
  destination : String
  sendAsset : AssetInput
  sendAmount : String
  destAsset : AssetInput
  destMinAmount : String
  path : List AssetInput
  allowSelfPayment : Bool
  memoType : MemoType
  memo : Option MemoValue

def amountIssues (field : String) : Option String → List Issue
  | none => [⟨[field], "Required"⟩]
  | some a => ensure (isDecimal a.toList && !isZero a.toList) [field]
        (field ++ " must be a valid Stellar decimal") ++
      ensure ((Number.finite 0).lt (parseFloat a)) [field] (field ++ " must be greater than zero")

def assetSchema (path : List String) (raw : RawAsset) : Except (List Issue) AssetInput :=
  match raw.code with
  | some code => .ok ⟨code, raw.issuer⟩
  | none => .error [⟨path ++ ["code"], "Required"⟩]

def issuesOf {α : Type} : Except (List Issue) α → List Issue
  | .ok _ => []
  | .error issues => issues

def pathIssues (path : List RawAsset) : List Issue :=
  (path.zipIdx.map fun (a, i) => issuesOf (assetSchema ["path", toString i] a)).flatten

def pathPaymentInputSchema (raw : RawPathPayment) : Except (List Issue) PathPaymentInput :=
  let issues := (match raw.destination with
      | none => [⟨["destination"], "Required"⟩]
      | some d => ensure (jsLength d == 56) ["destination"] "Invalid Stellar public key") ++
    issuesOf (assetSchema ["sendAsset"] raw.sendAsset) ++
    amountIssues "sendAmount" raw.sendAmount ++
    issuesOf (assetSchema ["destAsset"] raw.destAsset) ++
    amountIssues "destMinAmount" raw.destMinAmount ++ pathIssues raw.path ++
    memoTypeIssues raw.memoType ++ memoValueIssues raw.memo
  match raw.destination, raw.sendAsset.code, raw.sendAmount, raw.destAsset.code,
    raw.destMinAmount, memoTypeOf raw.memoType with
  | some destination, some sendCode, some sendAmount, some destCode, some destMinAmount,
    some memoType =>
    if issues = [] then
      .ok ⟨destination, ⟨sendCode, raw.sendAsset.issuer⟩, sendAmount,
        ⟨destCode, raw.destAsset.issuer⟩, destMinAmount,
        raw.path.map fun a => ⟨a.code.getD "", a.issuer⟩, raw.allowSelfPayment.getD false,
        memoType, raw.memo⟩
    else .error issues
  | _, _, _, _, _, _ => .error issues

structure PathContent where
  sendAsset : Asset
  sendAmount : String
  destination : String
  destAsset : Asset
  destMin : String
  path : List Asset
  memo : Option Memo
  deriving DecidableEq

def toAsset (sdk : Sdk) (a : AssetInput) : Except Fault Asset := do
  if a.code = "XLM" then return .native
  if !truthy a.issuer then
    throw (.error ("Asset issuer is required for non-native asset " ++ a.code))
  let issuer := a.issuer.getD ""
  sdk.newAsset a.code issuer
  return .issued a.code issuer

def findPath (strictSendPaths : Except Fault (List (List Asset))) (path : List Asset) :
    Except Fault (List Asset) := do
  if path ≠ [] then return path
  match ← strictSendPaths with
  | [] => throw (.error "No path found between assets")
  | best :: _ => return best

/-- What `execute` settles before it loads the account. -/
def prepare (sdk : Sdk) (publicKey : String) (strictSendPaths : Except Fault (List (List Asset)))
    (raw : RawPathPayment) : Except Fault (PathPaymentInput × Asset × Asset × List Asset) := do
  let input ← (pathPaymentInputSchema raw).mapError .zod
  if !input.allowSelfPayment ∧ input.destination = publicKey then
    throw (.error "Payment destination cannot be the agent's own address")
  let sendAsset ← toAsset sdk input.sendAsset
  let destAsset ← toAsset sdk input.destAsset
  let given ← input.path.mapM (toAsset sdk)
  let path ← findPath strictSendPaths given
  return (input, sendAsset, destAsset, path)

def content (sdk : Sdk) (input : PathPaymentInput) (sendAsset destAsset : Asset)
    (path : List Asset) : Except Fault PathContent := do
  sdk.pathPayment sendAsset input.sendAmount input.destination destAsset input.destMinAmount path
  let memo ← buildMemo sdk.numberText input.memoType input.memo
  return ⟨sendAsset, input.sendAmount, input.destination, destAsset, input.destMinAmount, path,
    memo⟩

def executeOn (sdk : Sdk) (publicKey : String)
    (strictSendPaths : Except Fault (List (List Asset))) (raw : RawPathPayment)
    (c : Connection σ PathContent) (s : σ) : Except Fault (String × ℕ) × σ :=
  match prepare sdk publicKey strictSendPaths raw with
  | .error e => (.error e, s)
  | .ok (input, sendAsset, destAsset, path) =>
    submitRebuildingOn c (content sdk input sendAsset destAsset path) s

def execute (retries : ℕ) (sdk : Sdk) (publicKey : String)
    (strictSendPaths : Except Fault (List (List Asset))) (raw : RawPathPayment) (net : Network)
    (l : Ledger PathContent) : Except Fault (String × ℕ) × Ledger PathContent :=
  executeOn sdk publicKey strictSendPaths raw (net.connection retries) l

end PathPaymentTool

variable {retries : ℕ} {net : Network} {operation : Op} {l l' : Ledger Op}
  {receipt : String × ℕ}

theorem parse_ok {out : Except Fault SubmitResult × σ} {s : σ} (h : parse out = (.ok receipt, s)) :
    ∃ result, out = (.ok result, s) := by
  obtain ⟨out, s'⟩ := out
  obtain ⟨hout, rfl⟩ := Prod.mk.inj h
  cases out with
  | ok result => exact ⟨result, rfl⟩
  | error e => cases hout

theorem submit_ok {s : Script} {tx : Transaction Op}
    (h : submit retries s tx l = (.ok receipt, l')) : l'.applied.getLast? = some tx := by
  obtain ⟨result, hresult⟩ := parse_ok h
  exact submitTransaction_ok hresult

theorem submitRebuilding_ok {content : Except Fault Op}
    (h : submitRebuilding retries net content l = (.ok receipt, l')) :
    ∃ tx, content = .ok tx.operation ∧ l'.applied.getLast? = some tx := by
  unfold submitRebuilding submitRebuildingOn at h
  split at h
  · cases h
  · cases h
  · rename_i sequence operation _
    split at h
    · rename_i hfirst
      cases h
      exact ⟨⟨sequence + 1, operation⟩, rfl, submit_ok hfirst⟩
    · split at h
      · split at h
        · cases h
        · rename_i sequence' _
          exact ⟨⟨sequence' + 1, operation⟩, rfl, submit_ok h⟩
      · cases h

theorem execute_ok {sdk : Sdk} {publicKey : String} {raw : RawPayment}
    {l l' : Ledger PaymentContent}
    (h : StellarPaymentTool.execute retries sdk publicKey raw net l = (.ok receipt, l')) :
    ∃ input asset tx, prepare sdk publicKey raw = .ok (input, asset) ∧
      content sdk input asset = .ok tx.operation ∧ l'.applied.getLast? = some tx := by
  unfold StellarPaymentTool.execute StellarPaymentTool.executeOn at h
  split at h
  · cases h
  · rename_i input asset hprepare
    obtain ⟨tx, hcontent, hlast⟩ := submitRebuilding_ok h
    exact ⟨input, asset, tx, hprepare, hcontent, hlast⟩

end PayFi.Tools.Rebuilding
