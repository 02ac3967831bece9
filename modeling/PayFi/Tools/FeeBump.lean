import Mathlib.Data.Rat.Floor
import PayFi.Tools.MultiSig

namespace PayFi.Tools.FeeBump

open Library.Numbers Library.Results Network.Submission Payment Rebuilding

structure RawFeeBump where
  innerTxXdr : Option String
  feeAccount : Option String
  baseFeeMultiplier : Option Number

structure FeeBumpInput where
  innerTxXdr : String
  feeAccount : Option String
  baseFeeMultiplier : ℤ
  deriving DecidableEq

def innerTxXdrIssues : Option String → List Issue
  | none => [⟨["innerTxXdr"], "Required"⟩]
  | some s =>
    ensure (1 ≤ jsLength s) ["innerTxXdr"] "innerTxXdr must be a non-empty base64 XDR string"

def feeAccountIssues : Option String → List Issue
  | none => []
  | some a => ensure (jsLength a == 56) ["feeAccount"] "Invalid Stellar public key"

def multiplierIssues : Option Number → List Issue
  | none => []
  | some .nan => [⟨["baseFeeMultiplier"], "Expected number, received nan"⟩]
  | some m =>
    ensure (MultiSig.integer m).isSome ["baseFeeMultiplier"] "Expected integer, received float" ++
      ensure (!m.lt (.finite 2)) ["baseFeeMultiplier"] "Number must be greater than or equal to 2"

def feeBumpInputSchema (raw : RawFeeBump) : Except (List Issue) FeeBumpInput :=
  let issues := innerTxXdrIssues raw.innerTxXdr ++ feeAccountIssues raw.feeAccount ++
    multiplierIssues raw.baseFeeMultiplier
  match issues, raw.innerTxXdr, MultiSig.integer (raw.baseFeeMultiplier.getD (.finite 2)) with
  | [], some innerTxXdr, some m => .ok ⟨innerTxXdr, raw.feeAccount, m⟩
  | issues, _, _ => .error issues

def maxXdrBytes : ℕ := 65536

def isBase64Char (c : Char) : Bool := c.isAlphanum || c = '+' || c = '/'

/-- Groups of four characters, the last one padded with one or two `=`. -/
def isBase64 (s : String) : Bool :=
  s.toList.length % 4 = 0 && (s.toList.dropWhile isBase64Char) ∈ [[], ['='], ['=', '=']]

def validateXDR (s : String) : Except Fault Unit :=
  let issues := ensure (1 ≤ jsLength s) [] "XDR payload must not be empty" ++
    ensure (jsLength s ≤ maxXdrBytes) []
      ("Payload exceeds maximum XDR size of " ++ toString maxXdrBytes ++ " bytes") ++
    ensure (isBase64 s) [] "Invalid base64 encoding"
  match issues with
  | [] => .ok ()
  | issue :: _ => .error (.error issue.message)

structure DecoratedSignature where
  hint : String
  signature : String
  deriving DecidableEq

structure InnerTx (Op : Type) where
  source : String
  fee : String
  operations : List Op
  signatures : List DecoratedSignature
  deriving DecidableEq

inductive Parsed (Op : Type) where
  | transaction (tx : InnerTx Op)
  | feeBump

structure FeeBumpTx (Op : Type) where
  feeSource : String
  fee : ℤ
  innerTx : InnerTx Op
  signatures : List DecoratedSignature
  deriving DecidableEq

/-- The tool with its key and its network, and what it takes from the SDK. The SDK charges
the base fee for each operation and once for the envelope. -/
structure Setup (Op : Type) where
  publicKey : String
  networkPassphrase : String
  fromXDR : String → String → Except String (Parsed Op)
  fromPublicKey : String → Except Fault Unit
  signatureHint : String → String
  verify : String → String → String → Bool
  hash : InnerTx Op → String → String
  buildFeeBumpTransaction : String → String → InnerTx Op → String → Except Fault (FeeBumpTx Op)
  sign : FeeBumpTx Op → DecoratedSignature
  fee_eq : ∀ feeSource (baseFee : ℕ) innerTx passphrase tx,
    buildFeeBumpTransaction feeSource (toString baseFee) innerTx passphrase = .ok tx →
      tx.fee = baseFee * (innerTx.operations.length + 1)

variable {Op : Type} {su : Setup Op} {raw : RawFeeBump} {input : FeeBumpInput} {tx : FeeBumpTx Op}
  {innerTx : InnerTx Op}

/-- XDR does not say which network it is for: the source's own signature does, if there is
one. -/
def checkNetwork (su : Setup Op) (innerTx : InnerTx Op) : Except Fault Unit := do
  if innerTx.signatures = [] then return ()
  su.fromPublicKey innerTx.source
  match innerTx.signatures.find? fun d => d.hint = su.signatureHint innerTx.source with
  | none => return ()
  | some sourceSig =>
    if su.verify innerTx.source (su.hash innerTx su.networkPassphrase) sourceSig.signature then
      return ()
    else throw (.error ("Inner transaction was signed for a different network passphrase. " ++
      "Ensure the inner XDR originates from the same network as the agent (" ++
      su.networkPassphrase ++ ")."))

def newFeePerOp (baseFee : ℤ) (operationCount : ℕ) (baseFeeMultiplier : ℤ) : ℤ :=
  max (⌈(baseFee / operationCount : ℚ)⌉ * baseFeeMultiplier) 100

def feeBumpFee (innerTx : InnerTx Op) (baseFeeMultiplier : ℤ) : String :=
  match parseInt innerTx.fee with
  | none => "NaN"
  | some baseFee =>
    let operationCount := if innerTx.operations.length = 0 then 1 else innerTx.operations.length
    toString ((operationCount + 1) * newFeePerOp baseFee operationCount baseFeeMultiplier)

/-- What `execute` does before it submits. -/
def build (su : Setup Op) (raw : RawFeeBump) : Except Fault (FeeBumpTx Op) := do
  let input ← (feeBumpInputSchema raw).mapError .zod
  validateXDR input.innerTxXdr
  match su.fromXDR input.innerTxXdr su.networkPassphrase with
  | .error _ => throw (.error "Invalid inner transaction XDR: unable to deserialize")
  | .ok .feeBump =>
    throw (.error "Inner transaction must not itself be a fee-bump transaction")
  | .ok (.transaction innerTx) =>
    checkNetwork su innerTx
    let tx ← su.buildFeeBumpTransaction (input.feeAccount.getD su.publicKey)
      (feeBumpFee innerTx input.baseFeeMultiplier) innerTx su.networkPassphrase
    return { tx with signatures := tx.signatures ++ [su.sign tx] }

/-- How a call ends, and the envelope it has handed to `submitTransaction`. -/
structure Outcome (Op : Type) where
  result : Except Fault (String × ℕ)
  submitted : Option (FeeBumpTx Op)

def execute (su : Setup Op) (raw : RawFeeBump) (receipt : Except Fault SubmitResult) :
    Outcome Op :=
  match build su raw with
  | .error e => ⟨.error e, none⟩
  | .ok tx => ⟨receipt.bind fun r => (submitResultSchema r).mapError .zod, some tx⟩

/-- The total that the design gives an envelope around `n` operations with fee `f`. -/
def documentedFee (f n : ℕ) (baseFeeMultiplier : ℤ) : ℤ :=
  (n + 1) * newFeePerOp f n baseFeeMultiplier

theorem newFeePerOp_pos (baseFee : ℤ) (n : ℕ) (m : ℤ) : 0 < newFeePerOp baseFee n m :=
  lt_max_of_lt_right (by decide)

theorem documentedFee_pos (f n : ℕ) (m : ℤ) : 0 < documentedFee f n m := by
  apply mul_pos _ (newFeePerOp_pos f n m)
  omega

theorem feeBumpFee_eq {f : ℕ} (m : ℤ) (hfee : innerTx.fee = toString f)
    (hn : innerTx.operations ≠ []) :
    feeBumpFee innerTx m = toString (documentedFee f innerTx.operations.length m) := by
  have hlength : innerTx.operations.length ≠ 0 := by
    simpa using hn
  simp only [feeBumpFee, hfee, parseInt_toString, if_neg hlength, documentedFee]

theorem build_ok (hinput : feeBumpInputSchema raw = .ok input)
    (hinner : su.fromXDR input.innerTxXdr su.networkPassphrase = .ok (.transaction innerTx))
    (h : build su raw = .ok tx) :
    ∃ tx', su.buildFeeBumpTransaction (input.feeAccount.getD su.publicKey)
        (feeBumpFee innerTx input.baseFeeMultiplier) innerTx su.networkPassphrase = .ok tx' ∧
      tx = { tx' with signatures := tx'.signatures ++ [su.sign tx'] } := by
  simp only [build, bind_eq_ok, mapError_eq_ok] at h
  obtain ⟨input', hinput', -, -, h⟩ := h
  rw [hinput] at hinput'
  cases hinput'
  rw [hinner] at h
  obtain ⟨-, -, h⟩ := bind_eq_ok.mp h
  obtain ⟨tx', htx', h⟩ := bind_eq_ok.mp h
  cases h
  exact ⟨tx', htx', rfl⟩

theorem execute_submitted {receipt : Except Fault SubmitResult}
    (h : (execute su raw receipt).submitted = some tx) : build su raw = .ok tx := by
  unfold execute at h
  split at h
  · cases h
  · rename_i tx' hbuild
    cases h
    exact hbuild

theorem submitted_fee {receipt : Except Fault SubmitResult} {f : ℕ}
    (hinput : feeBumpInputSchema raw = .ok input)
    (hinner : su.fromXDR input.innerTxXdr su.networkPassphrase = .ok (.transaction innerTx))
    (hfee : innerTx.fee = toString f) (hn : innerTx.operations ≠ [])
    (h : (execute su raw receipt).submitted = some tx) :
    tx.fee = (innerTx.operations.length + 1) *
      documentedFee f innerTx.operations.length input.baseFeeMultiplier := by
  obtain ⟨tx', htx', rfl⟩ := build_ok hinput hinner (execute_submitted h)
  obtain ⟨total, htotal⟩ := Int.eq_ofNat_of_zero_le
    (documentedFee_pos f innerTx.operations.length input.baseFeeMultiplier).le
  rw [feeBumpFee_eq _ hfee hn, htotal] at htx'
  change tx'.fee = _
  rw [htotal, mul_comm]
  exact su.fee_eq _ total _ _ tx' htx'

/-- No envelope around a transaction with an operation has the documented fee. -/
theorem fee_undocumented (su : Setup Op) (raw : RawFeeBump) (receipt : Except Fault SubmitResult)
    (input : FeeBumpInput) (innerTx : InnerTx Op) (f : ℕ) (tx : FeeBumpTx Op)
    (hinput : feeBumpInputSchema raw = .ok input)
    (hinner : su.fromXDR input.innerTxXdr su.networkPassphrase = .ok (.transaction innerTx))
    (hfee : innerTx.fee = toString f) (hn : 1 ≤ innerTx.operations.length)
    (h : (execute su raw receipt).submitted = some tx) :
    tx.fee ≠ documentedFee f innerTx.operations.length input.baseFeeMultiplier := by
  have hne : innerTx.operations ≠ [] := List.ne_nil_of_length_pos hn
  have hpos := documentedFee_pos f innerTx.operations.length input.baseFeeMultiplier
  rw [submitted_fee hinput hinner hfee hne h, ne_eq, mul_eq_right₀ hpos.ne']
  omega

/-- An SDK that has one transaction to parse, of the network, with one operation and the
smallest fee. -/
def sponsor : Setup String where
  publicKey := "GAGENT"
  networkPassphrase := "Test SDF Network ; September 2015"
  fromXDR := fun _ _ => .ok (.transaction ⟨"GSOURCE", "100", ["payment"], [⟨"hint", "signed"⟩]⟩)
  fromPublicKey := fun _ => .ok ()
  signatureHint := fun _ => "hint"
  verify := fun _ _ signature => signature = "signed"
  hash := fun _ _ => "hash"
  buildFeeBumpTransaction := fun feeSource baseFee innerTx _ =>
    match parseInt baseFee with
    | none => .error (.error "Invalid baseFee")
    | some b =>
      if b < 100 then .error (.error "Invalid baseFee, it should be at least 100 stroops.")
      else .ok ⟨feeSource, b * (innerTx.operations.length + 1), innerTx, []⟩
  sign := fun _ => ⟨"agent", "signature"⟩
  fee_eq := by
    intro feeSource baseFee innerTx passphrase tx h
    simp only [parseInt_toString] at h
    split at h
    · cases h
    · cases h
      rfl

def retry : RawFeeBump := ⟨some "AAAA", none, none⟩

theorem fee_undocumented_once : (800 : ℤ) ≠ documentedFee 100 1 2 :=
  fee_undocumented sponsor retry (.ok ⟨some "hash", some 200⟩) ⟨"AAAA", none, 2⟩
    ⟨"GSOURCE", "100", ["payment"], [⟨"hint", "signed"⟩]⟩ 100
    ⟨"GAGENT", 800, ⟨"GSOURCE", "100", ["payment"], [⟨"hint", "signed"⟩]⟩,
      [⟨"agent", "signature"⟩]⟩
    (by decide +kernel) rfl (by decide +kernel) (by decide) (by decide +kernel)

/-- One operation with a fee of 100 is to be bumped to 400 by default; 800 are paid. -/
theorem fee_doubled : documentedFee 100 1 2 = 400 ∧
    (execute sponsor retry (.ok ⟨some "hash", some 200⟩)).submitted.map FeeBumpTx.fee =
      some 800 := by
  decide +kernel

end PayFi.Tools.FeeBump
