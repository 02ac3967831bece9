import PayFi.Network.Sequence
import PayFi.Tools.Rebuilding

namespace PayFi.Tools.MultiSig

open Library.Numbers Network.Submission Network.AccountCache Network.Sequence Payment Rebuilding

structure RawMultiSig where
  destination : Option String
  amount : Option String
  assetCode : Option String
  assetIssuer : Option String
  memo : Option String
  additionalSigners : Option (List String)
  minSignatures : Option Number
  signatures : Option (List String)

structure MultiSigInput where
  destination : String
  amount : String
  assetCode : String
  assetIssuer : Option String
  memo : Option String
  additionalSigners : List String
  minSignatures : ℤ
  signatures : Option (List String)
  deriving DecidableEq

def destinationIssues : Option String → List Issue
  | none => [⟨["destination"], "Required"⟩]
  | some d => ensure (jsLength d == 56) ["destination"] "Invalid Stellar public key"

def memoIssues : Option String → List Issue
  | none => []
  | some m => ensure (byteLength m ≤ 28) ["memo"] "Memo must be at most 28 bytes"

def signerIssues (sdk : Sdk) : Option (List String) → List Issue
  | none => [⟨["additionalSigners"], "Required"⟩]
  | some signers => (signers.zipIdx.map fun (signer, i) =>
      let path := ["additionalSigners", toString i]
      ensure (jsLength signer == 56) path "Invalid signer public key" ++
        ensure (sdk.isValidEd25519PublicKey signer) path "Invalid signer public key").flatten

def integer : Number → Option ℤ
  | .finite q => if q.den = 1 then some q.num else none
  | _ => none

def minSignaturesIssues : Option Number → List Issue
  | none => [⟨["minSignatures"], "Required"⟩]
  | some .nan => [⟨["minSignatures"], "Expected number, received nan"⟩]
  | some n => ensure (integer n).isSome ["minSignatures"] "Expected integer, received float" ++
      ensure (!n.lt (.finite 1)) ["minSignatures"] "Number must be greater than or equal to 1"

/-- The fields one by one; the threshold against the signers when they all have a value. -/
def multiSigInputSchema (sdk : Sdk) (raw : RawMultiSig) : Except (List Issue) MultiSigInput :=
  let issues := destinationIssues raw.destination ++ amountIssues raw.amount ++
    memoIssues raw.memo ++ signerIssues sdk raw.additionalSigners ++
    minSignaturesIssues raw.minSignatures
  match raw.destination, raw.amount, raw.additionalSigners, raw.minSignatures with
  | some destination, some amount, some signers, some n =>
    let issues := issues ++ ensure (!(Number.finite (signers.length + 1)).lt n) ["minSignatures"]
      "minSignatures exceeds total available signers (additionalSigners + 1)"
    match issues, integer n with
    | [], some minSignatures => .ok ⟨destination, amount, raw.assetCode.getD "XLM",
        raw.assetIssuer, raw.memo, signers, minSignatures, raw.signatures⟩
    | issues, _ => .error issues
  | _, _, _, _ => .error issues

structure Envelope where
  source : String
  fee : ℕ
  sequence : ℤ
  minTime : ℤ
  maxTime : ℤ
  operation : PaymentContent
  signatures : List String
  deriving DecidableEq

inductive MultiSigResult where
  | unsignedXDR (tx : Envelope)
  | settled (txHash : String) (ledger : ℕ)
  deriving DecidableEq

/-- The tool with its key and its network, the client's cache lifetime, and what it takes
from the SDK: signing, and decoding a signature. -/
structure Setup where
  sdk : Sdk
  publicKey : String
  networkPassphrase : String
  ttl : ℕ
  sign : String × Envelope → String
  decoratedSignature : String → Except String String

/-- What a call of `execute` meets: the clock when the account is loaded, whether Horizon
answers, the clock of the cache entry and that of the time bounds; and how the submission
ends. -/
structure Exchange where
  now : ℤ
  answers : Bool
  now' : ℤ
  builtAt : ℤ
  loadFault : Fault
  submission : Submission
  receipt : Except Fault SubmitResult

/-- What the signers sign: the network and all of the transaction but its signatures. -/
def payload (su : Setup) (tx : Envelope) : String × Envelope :=
  (su.networkPassphrase, { tx with signatures := [] })

def baseFee : ℕ := 100

/-- `setTimeout(30)`: the transaction is valid until thirty seconds after this one. -/
def maxTime (builtAt : ℤ) : ℤ := builtAt / 1000 + 30

def envelope (su : Setup) (input : MultiSigInput) (asset : Asset) (sequence builtAt : ℤ) :
    Envelope where
  source := su.publicKey
  fee := baseFee
  sequence := sequence
  minTime := 0
  maxTime := maxTime builtAt
  operation := ⟨input.destination, asset, input.amount,
    if truthy input.memo then input.memo.map .text else none⟩
  signatures := []

/-- What `execute` settles before it loads the account. -/
def prepare (su : Setup) (raw : RawMultiSig) : Except Fault (MultiSigInput × Asset) :=
  match multiSigInputSchema su.sdk raw with
  | .error issues => .error (.error ((issues.head?.map Issue.message).getD ""))
  | .ok input =>
    if (input.additionalSigners.length : ℤ) + 1 < input.minSignatures then
      .error (.error ("minSignatures (" ++ toString input.minSignatures ++
        ") exceeds total available signers (" ++
        toString (input.additionalSigners.length + 1) ++ ")"))
    else if input.assetCode ≠ "XLM" ∧ !truthy input.assetIssuer then
      .error (.error ("Asset issuer is required for non-native asset " ++ input.assetCode))
    else if input.assetCode = "XLM" then .ok (input, .native)
    else
      let issuer := input.assetIssuer.getD ""
      (su.sdk.newAsset input.assetCode issuer).map fun _ => (input, .issued input.assetCode issuer)

def collected (input : MultiSigInput) : Option (List String) :=
  input.signatures.filter fun signatures => input.minSignatures ≤ signatures.length

def decode (su : Setup) (signatures : List String) : Except Fault (List String) :=
  signatures.mapM fun s => (su.decoratedSignature s).mapError fun m =>
    .error ("Invalid signature XDR: " ++ m)

/-- How a call ends: its result, the transaction it has handed to `submitTransaction`, and
the world it leaves. -/
structure Outcome where
  result : Except Fault MultiSigResult
  submitted : Option Envelope
  world : World String

def Outcome.unsignedXDR (o : Outcome) : Option Envelope :=
  match o.result with
  | .ok (.unsignedXDR tx) => some tx
  | _ => none

/-- `execute` with a transaction built: sign and submit it, or return it unsigned. -/
def finish (su : Setup) (input : MultiSigInput) (tx : Envelope) (x : Exchange)
    (w : World String) : Outcome :=
  match collected input with
  | none => ⟨.ok (.unsignedXDR tx), none, w⟩
  | some signatures =>
    match decode su signatures with
    | .error e => ⟨.error e, none, w⟩
    | .ok decorated =>
      let signed := { tx with signatures := su.sign (payload su tx) :: decorated }
      ⟨x.receipt.bind fun r => ((submitResultSchema r).mapError .zod).map fun (hash, ledger) =>
          .settled hash ledger,
        some signed, Network.Sequence.submitTransaction w tx.sequence x.submission⟩

def execute (su : Setup) (w : World String) (raw : RawMultiSig) (x : Exchange) : Outcome :=
  match prepare su raw with
  | .error e => ⟨.error e, none, w⟩
  | .ok (input, asset) =>
    match loadAccount su.ttl su.publicKey su.publicKey w.sequence w false
      ⟨x.now, x.answers, x.now', false, true⟩ with
    | (none, w) => ⟨.error x.loadFault, none, w⟩
    | (some account, w) =>
      match su.sdk.payment input.destination asset input.amount with
      | .error e => ⟨.error e, none, w⟩
      | .ok () =>
        let (sequence, w) := build su.publicKey w account
        finish su input (envelope su input asset sequence x.builtAt) x w

/-- The fields of the payment itself. -/
def RawMultiSig.payment (raw : RawMultiSig) :
    Option String × Option String × Option String × Option String × Option String :=
  (raw.destination, raw.amount, raw.assetCode, raw.assetIssuer, raw.memo)

/-- The sequence number of the account record that a load at this time is served with: that
of the cached record, as its builders have left it, or else the ledger's. -/
def startingSequence (su : Setup) (w : World String) (now : ℤ) : ℤ :=
  match (lookup su.ttl w.cache su.publicKey false now).1 with
  | some account => w.records account
  | none => w.sequence

variable {su : Setup} {w w₁ w₂ : World String} {raw raw₁ raw₂ : RawMultiSig}
  {x x₁ x₂ : Exchange} {input : MultiSigInput} {asset : Asset} {tx : Envelope}

theorem multiSigInputSchema_ok {sdk : Sdk} (h : multiSigInputSchema sdk raw = .ok input) :
    raw.payment = (some input.destination, some input.amount, raw.assetCode,
        input.assetIssuer, input.memo) ∧
      input.assetCode = raw.assetCode.getD "XLM" := by
  unfold multiSigInputSchema at h
  dsimp only at h
  split at h
  · rename_i destination amount signers n hd ha hs hn
    split at h
    · cases h
      simp [RawMultiSig.payment, hd, ha]
    · cases h
  · cases h

def assetOf (code : String) (issuer : Option String) : Asset :=
  if code = "XLM" then .native else .issued code (issuer.getD "")

theorem prepare_ok (h : prepare su raw = .ok (input, asset)) :
    multiSigInputSchema su.sdk raw = .ok input ∧
      asset = assetOf input.assetCode input.assetIssuer := by
  unfold prepare at h
  split at h
  · cases h
  · rename_i input' hinput
    split at h
    · cases h
    · split at h
      · cases h
      · split at h
        · rename_i hxlm
          cases h
          exact ⟨hinput, by rw [assetOf, if_pos hxlm]⟩
        · rename_i hxlm
          dsimp only at h
          cases hnew : su.sdk.newAsset input'.assetCode (input'.assetIssuer.getD "") with
          | error e =>
            rw [hnew] at h
            cases h
          | ok =>
            rw [hnew] at h
            cases h
            exact ⟨hinput, by rw [assetOf, if_neg hxlm]⟩

theorem loadAccount_records {a : Network.Sequence.Attempt} {account : ℕ}
    (h : loadAccount su.ttl su.publicKey su.publicKey w₁.sequence w₁ false a = (some account, w)) :
    w.records account = startingSequence su w₁ a.now := by
  unfold loadAccount at h
  unfold startingSequence
  split at h
  · rename_i account' cache hlookup
    cases h
    rw [hlookup]
  · rename_i cache hlookup
    split at h
    · cases h
      rw [hlookup]
      exact Function.update_self ..
    · cases h

/-- What a call builds, when it gets as far as a transaction: it returns it unsigned, or
submits it signed. -/
def Built (su : Setup) (w : World String) (raw : RawMultiSig) (x : Exchange) (tx : Envelope) :
    Prop :=
  ∃ input asset, prepare su raw = .ok (input, asset) ∧
    payload su tx =
      payload su (envelope su input asset (startingSequence su w x.now + 1) x.builtAt)

theorem finish_unsigned {tx' : Envelope} (h : (finish su input tx x w).unsignedXDR = some tx') :
    tx' = tx ∧ (finish su input tx x w).world = w := by
  cases hc : collected input with
  | none =>
    have hfinish : finish su input tx x w = ⟨.ok (.unsignedXDR tx), none, w⟩ := by
      simp only [finish, hc]
    rw [hfinish] at h ⊢
    cases h
    exact ⟨rfl, rfl⟩
  | some signatures =>
    cases hd : decode su signatures with
    | error e => simp [finish, hc, hd, Outcome.unsignedXDR] at h
    | ok decorated =>
      cases hr : x.receipt with
      | error e => simp [finish, hc, hd, hr, Outcome.unsignedXDR, Except.bind] at h
      | ok r =>
        cases hp : submitResultSchema r <;>
          simp [finish, hc, hd, hr, hp, Outcome.unsignedXDR, Except.bind, Except.mapError,
            Except.map] at h

theorem finish_submitted {tx' : Envelope} (h : (finish su input tx x w).submitted = some tx') :
    payload su tx' = payload su tx := by
  unfold finish at h
  split at h
  · cases h
  · split at h
    · cases h
    · cases h
      rfl

theorem execute_finish (h : (execute su w raw x).unsignedXDR = some tx ∨
    (execute su w raw x).submitted = some tx) :
    ∃ input asset account w', prepare su raw = .ok (input, asset) ∧
      loadAccount su.ttl su.publicKey su.publicKey w.sequence w false
        ⟨x.now, x.answers, x.now', false, true⟩ = (some account, w') ∧
      execute su w raw x = finish su input
        (envelope su input asset (startingSequence su w x.now + 1) x.builtAt) x
        (build su.publicKey w' account).2 := by
  unfold execute at h ⊢
  split at h
  · obtain h | h := h <;> cases h
  · rename_i input asset hprepare
    split at h
    · obtain h | h := h <;> cases h
    · rename_i account w' hload
      have hsequence := loadAccount_records hload
      split at h
      · obtain h | h := h <;> cases h
      · rename_i hpayment
        refine ⟨input, asset, account, w', hprepare, hload, ?_⟩
        simp only [build, hsequence]

theorem execute_built (h : (execute su w raw x).unsignedXDR = some tx ∨
    (execute su w raw x).submitted = some tx) : Built su w raw x tx := by
  obtain ⟨input, asset, account, w', hprepare, -, hfinish⟩ := execute_finish h
  rw [hfinish] at h
  refine ⟨input, asset, hprepare, ?_⟩
  obtain h | h := h
  · rw [(finish_unsigned h).1]
  · exact finish_submitted h

theorem prepare_payment {input₁ input₂ : MultiSigInput} {asset₁ asset₂ : Asset}
    (h : raw₂.payment = raw₁.payment) (h₁ : prepare su raw₁ = .ok (input₁, asset₁))
    (h₂ : prepare su raw₂ = .ok (input₂, asset₂)) (sequence builtAt : ℤ) :
    envelope su input₂ asset₂ sequence builtAt = envelope su input₁ asset₁ sequence builtAt := by
  obtain ⟨hinput₁, hasset₁⟩ := prepare_ok h₁
  obtain ⟨hinput₂, hasset₂⟩ := prepare_ok h₂
  obtain ⟨hpayment₁, hcode₁⟩ := multiSigInputSchema_ok hinput₁
  obtain ⟨hpayment₂, hcode₂⟩ := multiSigInputSchema_ok hinput₂
  rw [hpayment₁, hpayment₂] at h
  simp only [Prod.mk.injEq, Option.some.injEq] at h
  obtain ⟨hdestination, hamount, hcode, hissuer, hmemo⟩ := h
  have hassetCode : input₂.assetCode = input₁.assetCode := by rw [hcode₂, hcode₁, hcode]
  have hasset : asset₂ = asset₁ := by rw [hasset₂, hasset₁, hassetCode, hissuer]
  simp only [envelope, hdestination, hamount, hmemo, hasset]

theorem envelope_eq_iff {sequence₁ sequence₂ builtAt₁ builtAt₂ : ℤ} :
    payload su (envelope su input asset sequence₂ builtAt₂) =
        payload su (envelope su input asset sequence₁ builtAt₁) ↔
      sequence₂ = sequence₁ ∧ maxTime builtAt₂ = maxTime builtAt₁ := by
  simp [payload, envelope]

/-- What the second call submits is what the first one has returned for signing exactly when
both are served with the same sequence number and build within the same second. -/
theorem signs_what_it_submits_iff (su : Setup) (w₁ w₂ : World String) (raw₁ raw₂ : RawMultiSig)
    (x₁ x₂ : Exchange) (unsigned submitted : Envelope) (hsame : raw₂.payment = raw₁.payment)
    (hfirst : (execute su w₁ raw₁ x₁).unsignedXDR = some unsigned)
    (hsecond : (execute su w₂ raw₂ x₂).submitted = some submitted) :
    payload su submitted = payload su unsigned ↔
      startingSequence su w₂ x₂.now = startingSequence su w₁ x₁.now ∧
        x₂.builtAt / 1000 = x₁.builtAt / 1000 := by
  obtain ⟨input₁, asset₁, hprepare₁, hunsigned⟩ := execute_built (.inl hfirst)
  obtain ⟨input₂, asset₂, hprepare₂, hsubmitted⟩ := execute_built (.inr hsecond)
  rw [hunsigned, hsubmitted, prepare_payment hsame hprepare₁ hprepare₂, envelope_eq_iff]
  simp only [maxTime, add_left_inj]

/-- A tool whose SDK accepts everything. -/
def tool (ttl : ℕ) : Setup where
  sdk := ⟨fun _ => true, fun _ _ => .ok (), fun _ _ _ => .ok (), fun _ _ _ _ _ _ => .ok (),
    fun _ => ""⟩
  publicKey := "GAGENT"
  networkPassphrase := "Test SDF Network ; September 2015"
  ttl := ttl
  sign := fun _ => "agent"
  decoratedSignature := .ok

def request (signatures : Option (List String)) : RawMultiSig :=
  ⟨some (String.ofList (List.replicate 56 'G')), some "100", none, none, none,
    some [String.ofList (List.replicate 56 'S')], some (.finite 2), signatures⟩

def call (time : ℤ) : Exchange :=
  ⟨time, true, time, time, .error "", ⟨true, true⟩, .ok ⟨some "hash", some 10⟩⟩

/-- The unsigned transaction of the first call, and the one that the second call submits
after this time, with two signatures. -/
def twoPhases (ttl : ℕ) (time : ℤ) : Option (Envelope × Envelope) :=
  let first := execute (tool ttl) (idle 7) (request none) (call 0)
  let second := execute (tool ttl) first.world (request (some ["one", "two"])) (call time)
  first.unsignedXDR.bind fun unsigned => second.submitted.map fun submitted =>
    (unsigned, submitted)

/-- Without a cache, and within one second, the two transactions are the same. -/
theorem signs_what_it_submits_at_once :
    payload (tool 0) ⟨"GAGENT", 100, 8, 0, 30, ⟨String.ofList (List.replicate 56 'G'), .native,
        "100", none⟩, ["agent", "one", "two"]⟩ =
      payload (tool 0) ⟨"GAGENT", 100, 8, 0, 30, ⟨String.ofList (List.replicate 56 'G'), .native,
        "100", none⟩, []⟩ :=
  (signs_what_it_submits_iff (tool 0) (idle 7) (idle 7) (request none)
    (request (some ["one", "two"])) (call 0) (call 999) _ _ rfl (by decide +kernel)
    (by decide +kernel)).mpr (by decide +kernel)

/-- Within the cache's lifetime the second transaction is one higher in sequence; without a
cache, a second later, it is valid for a second longer. The ledger has not moved. -/
theorem signs_another_transaction :
    (∃ p ∈ twoPhases 30000 500, (p.1.sequence, p.2.sequence) = (8, 9) ∧
      payload (tool 30000) p.2 ≠ payload (tool 30000) p.1) ∧
    (∃ p ∈ twoPhases 0 1000, (p.1.maxTime, p.2.maxTime) = (30, 31) ∧
      payload (tool 0) p.2 ≠ payload (tool 0) p.1) ∧
    (execute (tool 30000) (idle 7) (request none) (call 0)).world.sequence = 7 ∧
    (execute (tool 0) (idle 7) (request none) (call 0)).world.sequence = 7 := by
  refine ⟨?_, ?_, ?_, ?_⟩ <;> decide +kernel

end PayFi.Tools.MultiSig
