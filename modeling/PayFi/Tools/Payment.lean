import PayFi.Library.Results
import PayFi.Network.Submission
import PayFi.Spending.Guard

namespace PayFi.Tools.Payment

open Library.Numbers Library.Results Spending.Guard Network.Submission

inductive Asset where
  | native
  | issued (code issuer : String)
  deriving DecidableEq

/-- A memo of a transaction, with its value. -/
inductive Memo where
  | text (value : String)
  | id (value : String)
  | hash (value : String)
  | ret (value : String)
  deriving DecidableEq

/-- The checks of the SDK: of a public key, of a new asset and of a payment operation; and how
JavaScript prints a number. -/
structure Sdk where
  isValidEd25519PublicKey : String → Bool
  newAsset : String → String → Except Fault Unit
  payment : String → Asset → String → Except Fault Unit
  pathPayment : Asset → String → String → Asset → String → List Asset → Except Fault Unit
  numberText : Number → String

inductive MemoType where
  | text
  | id
  | hash
  | ret
  deriving DecidableEq

inductive MemoValue where
  | string (s : String)
  | number (n : Number)
  deriving DecidableEq

structure RawPayment where
  destination : Option String
  amount : Option String
  assetCode : Option String
  assetIssuer : Option String
  memoType : Option String
  memo : Option MemoValue

structure PaymentInput where
  destination : String
  amount : String
  assetCode : String
  assetIssuer : Option String
  memoType : MemoType
  memo : Option MemoValue
  deriving DecidableEq

def ensure (holds : Bool) (path : List String) (message : String) : List Issue :=
  if holds then [] else [⟨path, message⟩]

/-- A string's length as JavaScript counts it, in UTF-16 code units. -/
def jsLength (s : String) : ℕ := (s.toList.map fun c => if c.toNat < 0x10000 then 1 else 2).sum

def byteLength (s : String) : ℕ := (s.toList.map Char.utf8Size).sum

def memoTypeOf : Option String → Option MemoType
  | none => some .text
  | some "text" => some .text
  | some "id" => some .id
  | some "hash" => some .hash
  | some "return" => some .ret
  | some _ => none

def destinationIssues (sdk : Sdk) : Option String → List Issue
  | none => [⟨["destination"], "Required"⟩]
  | some d => ensure (jsLength d == 56) ["destination"] "Invalid Stellar public key" ++
      ensure (sdk.isValidEd25519PublicKey d) ["destination"]
        "Destination must be a valid Stellar public key (G...)"

def amountIssues : Option String → List Issue
  | none => [⟨["amount"], "Required"⟩]
  | some a => ensure (isDecimal a.toList && !isZero a.toList) ["amount"]
        "Amount must be a valid Stellar decimal" ++
      ensure ((Number.finite 0).lt (parseFloat a)) ["amount"] "Amount must be greater than zero"

def memoTypeIssues (memoType : Option String) : List Issue :=
  ensure (memoTypeOf memoType).isSome ["memoType"] ("Invalid enum value. Expected 'text' | 'id' " ++
    "| 'hash' | 'return', received '" ++ memoType.getD "" ++ "'")

def memoValueIssues : Option MemoValue → List Issue
  | some (.number .nan) => [⟨["memo"], "Invalid input"⟩]
  | _ => []

def memoIssues : MemoType → Option MemoValue → List Issue
  | .text, some (.string s) =>
    ensure (byteLength s ≤ 28) ["memo"] "MEMO_TEXT must not exceed 28 bytes (UTF-8 encoded)"
  | _, _ => []

/-- The fields are checked one by one; the length of the memo only when they all have a value. -/
def paymentInputSchema (sdk : Sdk) (raw : RawPayment) : Except (List Issue) PaymentInput :=
  let issues := destinationIssues sdk raw.destination ++ amountIssues raw.amount ++
    memoTypeIssues raw.memoType ++ memoValueIssues raw.memo
  match raw.destination, raw.amount, memoTypeOf raw.memoType with
  | some destination, some amount, some memoType =>
    let issues := issues ++ memoIssues memoType raw.memo
    if issues = [] then
      .ok ⟨destination, amount, raw.assetCode.getD "XLM", raw.assetIssuer, memoType, raw.memo⟩
    else .error issues
  | _, _, _ => .error issues

/-- What a payment transaction does, next to its source and sequence number. -/
structure PaymentContent where
  destination : String
  asset : Asset
  amount : String
  memo : Option Memo
  deriving DecidableEq

def isHex (s : String) : Bool :=
  s.toList.all fun c => c.isDigit || ('a' ≤ c && c ≤ 'f') || ('A' ≤ c && c ≤ 'F')

def stripHexPrefix (s : String) : String :=
  match s.toList with
  | '0' :: 'x' :: cs => String.ofList cs
  | _ => s

def hexMemo (name : String) : MemoValue → Except Fault String
  | .number _ => .error (.error ("Memo " ++ name ++ " must be a string"))
  | .string s =>
    let hex := stripHexPrefix s
    if jsLength hex ≠ 64 then
      .error (.error ("Memo " ++ name ++ " must be a 32-byte hex string (64 hex characters)"))
    else if !isHex hex then
      .error (.error ("Memo " ++ name ++ " must contain only valid hex characters"))
    else .ok hex

def notAnInteger (numberText : Number → String) (n : Number) : Fault :=
  .error ("The number " ++ numberText n ++
    " cannot be converted to a BigInt because it is not an integer")

def idMemo (numberText : Number → String) : MemoValue → Except Fault String
  | .string _ => .error (.error "Memo ID must be a number")
  | .number (.finite q) =>
    if q.den ≠ 1 then .error (notAnInteger numberText (.finite q))
    else if q.num < 0 ∨ 18446744073709551615 < q.num then
      .error (.error "Memo ID must be a 64-bit unsigned integer (0 to 2^64-1)")
    else .ok (toString q.num)
  | .number n => .error (notAnInteger numberText n)

def textMemo : MemoValue → Except Fault String
  | .number _ => .error (.error "Memo text must be a string")
  | .string s =>
    if 28 < byteLength s then .error (.error "Memo text must be at most 28 bytes") else .ok s

def buildMemo (numberText : Number → String) :
    MemoType → Option MemoValue → Except Fault (Option Memo)
  | _, none => .ok none
  | .id, some v => (idMemo numberText v).map fun s => some (.id s)
  | .hash, some v => (hexMemo "hash" v).map fun s => some (.hash s)
  | .ret, some v => (hexMemo "return" v).map fun s => some (.ret s)
  | .text, some v => (textMemo v).map fun s => some (.text s)

def truthy (s : Option String) : Bool := s.any (· ≠ "")

variable {sdk : Sdk}

theorem ensure_eq_nil {holds : Bool} {path : List String} {message : String} :
    ensure holds path message = [] ↔ holds = true := by
  cases holds <;> simp [ensure]

/-- An accepted input has the fields of the raw one, and its own amount passes the
checks of the payment guard. -/
theorem paymentInputSchema_ok {raw : RawPayment} {input : PaymentInput}
    (h : paymentInputSchema sdk raw = .ok input) :
    raw.destination = some input.destination ∧ raw.amount = some input.amount ∧
      input.assetCode = raw.assetCode.getD "XLM" ∧ input.assetIssuer = raw.assetIssuer ∧
      memoTypeOf raw.memoType = some input.memoType ∧ input.memo = raw.memo ∧
      paymentAmountSchema input.amount = true := by
  simp only [paymentInputSchema] at h
  split at h
  · rename_i destination amount memoType hd ha hm
    split at h
    · rename_i hissues
      cases h
      refine ⟨hd, ha, rfl, rfl, hm, rfl, ?_⟩
      simp only [ha, amountIssues, List.append_eq_nil_iff, ensure_eq_nil] at hissues
      rw [paymentAmountSchema, Bool.and_eq_true]
      exact hissues.1.1.1.2
    · cases h
  · cases h

/-- What `execute` settles before it loads the account: the validated input and its asset. -/
def prepare (sdk : Sdk) (publicKey : String) (raw : RawPayment) :
    Except Fault (PaymentInput × Asset) := do
  let input ← (paymentInputSchema sdk raw).mapError .zod
  if input.destination = publicKey then
    throw (.error "Payment destination cannot be the agent's own address")
  if input.assetCode ≠ "XLM" ∧ !truthy input.assetIssuer then
    throw (.error ("Asset issuer is required for non-native asset " ++ input.assetCode))
  if input.assetCode = "XLM" then return (input, .native)
  let issuer := input.assetIssuer.getD ""
  sdk.newAsset input.assetCode issuer
  return (input, .issued input.assetCode issuer)

/-- The operation and the memo that `buildTx` puts into every envelope. -/
def content (sdk : Sdk) (input : PaymentInput) (asset : Asset) : Except Fault PaymentContent := do
  sdk.payment input.destination asset input.amount
  let memo ← buildMemo sdk.numberText input.memoType input.memo
  return ⟨input.destination, asset, input.amount, memo⟩

theorem prepare_ok {publicKey : String} {raw : RawPayment} {input : PaymentInput} {asset : Asset}
    (h : prepare sdk publicKey raw = .ok (input, asset)) :
    paymentInputSchema sdk raw = .ok input ∧
      (input.assetCode = "XLM" ∧ asset = .native ∨
        input.assetCode ≠ "XLM" ∧
          sdk.newAsset input.assetCode (input.assetIssuer.getD "") = .ok () ∧
          asset = .issued input.assetCode (input.assetIssuer.getD "")) := by
  simp only [prepare, bind_eq_ok, mapError_eq_ok, throwIf_eq_ok] at h
  obtain ⟨input', hin, -, -, h⟩ := h
  split at h
  · rename_i hxlm
    cases h
    exact ⟨hin, .inl ⟨hxlm, rfl⟩⟩
  · rename_i hxlm
    obtain ⟨⟨⟩, hnew, h⟩ := bind_eq_ok.mp h
    cases h
    exact ⟨hin, .inr ⟨hxlm, hnew, rfl⟩⟩

theorem prepare_issuer {publicKey : String} {raw : RawPayment} {input : PaymentInput}
    {asset : Asset} (h : prepare sdk publicKey raw = .ok (input, asset))
    (hcode : input.assetCode ≠ "XLM") : truthy input.assetIssuer = true := by
  simp only [prepare, bind_eq_ok, mapError_eq_ok, throwIf_eq_ok] at h
  obtain ⟨input', -, -, hissuer, h⟩ := h
  have hinput : input' = input := by
    split at h
    · cases h
      rfl
    · obtain ⟨⟨⟩, -, h⟩ := bind_eq_ok.mp h
      cases h
      rfl
  rw [hinput] at hissuer
  by_contra ht
  exact hissuer ⟨hcode, by rw [Bool.not_eq_true'] ; exact Bool.eq_false_iff.mpr ht⟩

theorem content_ok {input : PaymentInput} {asset : Asset} {p : PaymentContent}
    (h : content sdk input asset = .ok p) :
    ∃ memo, buildMemo sdk.numberText input.memoType input.memo = .ok memo ∧
      p = ⟨input.destination, asset, input.amount, memo⟩ := by
  simp only [content, bind_eq_ok] at h
  obtain ⟨-, -, memo, hmemo, hp⟩ := h
  cases hp
  exact ⟨memo, hmemo, rfl⟩

end PayFi.Tools.Payment
