import PayFi.Library.FixedPoint
import PayFi.X402.Respond

namespace PayFi.X402.Verify

open Library.Numbers Library.FixedPoint Library.Results Network.Submission Tools.Payment Challenge
  Respond

structure TransactionRecord where
  successful : Bool
  memo : Option String
  deriving DecidableEq

/-- An operation of any kind, with the fields that `verify` can look at and those that
tell what the operation is. -/
structure OperationRecord where
  type : Option String
  to' : Option String
  destination : Option String
  from' : Option String
  sourceAccount : Option String
  amount : Option String
  assetType : Option String
  assetCode : Option String
  assetObjectCode : Option String
  assetIssuer : Option String
  deriving DecidableEq

/-- The fields that `verify` compares. -/
structure ParsedOp where
  to' : Option String
  amount : Option String
  assetCode : Option String
  from' : Option String
  deriving DecidableEq

/-- JavaScript's `a || b`. -/
def either (a b : Option String) : Option String := if truthy a then a else b

def extractOp (op : OperationRecord) : ParsedOp where
  to' := either op.to' op.destination
  amount := op.amount
  assetCode := if op.assetType = some "native" then some "XLM"
    else either op.assetCode op.assetObjectCode
  from' := either op.from' op.sourceAccount

def mismatch (what : String) : Fault := .error ("x402 verification failed: " ++ what)

/-- `verify`, with Horizon's answers for the transaction and for its operations. -/
def verify (pf : Platform) (txAnswer : Except Fault TransactionRecord)
    (opsAnswer : Except Fault (List OperationRecord)) (proof : X402PaymentProof)
    (originalChallenge : X402Challenge) : Except Fault Unit :=
  match txAnswer, opsAnswer with
  | .error e, _ => .error e
  | .ok _, .error e => .error e
  | .ok _, .ok [] => .error (mismatch "missing operation")
  | .ok tx, .ok (op :: _) =>
    let parsed := extractOp op
    if parsed.to' ≠ some originalChallenge.payTo then .error (mismatch "destination mismatch")
    else if parsed.amount ≠ some originalChallenge.amount then .error (mismatch "amount mismatch")
    else if parsed.assetCode ≠ some originalChallenge.assetCode then
      .error (mismatch "asset mismatch")
    else if tx.memo ≠ some (memoOf pf originalChallenge.nonce) then
      .error (mismatch "nonce mismatch")
    else if parsed.from' ≠ some proof.payer then .error (mismatch "payer mismatch")
    else .ok ()

/-- A successful payment of the challenge by the payer, with the memo of its nonce. -/
structure Settles (pf : Platform) (tx : TransactionRecord) (op : OperationRecord)
    (proof : X402PaymentProof) (c : X402Challenge) : Prop where
  successful : tx.successful = true
  type : op.type = some "payment"
  destination : op.to' = some c.payTo
  amount : op.amount = some c.amount
  asset : if c.assetCode = "XLM" then op.assetType = some "native"
    else op.assetType ≠ some "native" ∧ op.assetCode = some c.assetCode ∧
      op.assetIssuer = some c.assetIssuer
  payer : op.from' = some proof.payer
  memo : tx.memo = some (memoOf pf c.nonce)

/-- The comparisons of `verify`. -/
structure Matches (pf : Platform) (tx : TransactionRecord) (op : OperationRecord)
    (proof : X402PaymentProof) (c : X402Challenge) : Prop where
  destination : (extractOp op).to' = some c.payTo
  amount : (extractOp op).amount = some c.amount
  asset : (extractOp op).assetCode = some c.assetCode
  memo : tx.memo = some (memoOf pf c.nonce)
  payer : (extractOp op).from' = some proof.payer

/-- What `verify` does not look at: whether the transaction succeeded, what kind of
operation it has, whether the compared fields are the operation's own, whether the asset
is the native one, and its issuer. -/
structure Genuine (tx : TransactionRecord) (op : OperationRecord) (c : X402Challenge) :
    Prop where
  successful : tx.successful = true
  type : op.type = some "payment"
  own : op.to' = (extractOp op).to' ∧ op.from' = (extractOp op).from'
  native : c.assetCode = "XLM" → op.assetType = some "native"
  issued : c.assetCode ≠ "XLM" → op.assetCode = (extractOp op).assetCode ∧
    op.assetIssuer = some c.assetIssuer

variable {pf : Platform} {tx : TransactionRecord} {op : OperationRecord}
  {ops : List OperationRecord} {proof : X402PaymentProof} {c : X402Challenge}

theorem either_self (a : Option String) : either a a = a := ite_self a

theorem verify_iff : verify pf (.ok tx) (.ok (op :: ops)) proof c = .ok () ↔
    Matches pf tx op proof c := by
  unfold verify
  dsimp only
  constructor
  · intro h
    split_ifs at h with hto hamount hasset hmemo hpayer
    rw [not_not] at hto hamount hasset hmemo hpayer
    exact ⟨hto, hamount, hasset, hmemo, hpayer⟩
  · rintro ⟨hto, hamount, hasset, hmemo, hpayer⟩
    simp [hto, hamount, hasset, hmemo, hpayer]

theorem Matches.settles_iff (h : Matches pf tx op proof c) :
    Settles pf tx op proof c ↔ Genuine tx op c := by
  constructor
  · intro hs
    refine ⟨hs.successful, hs.type, ⟨?_, ?_⟩, ?_, ?_⟩
    · rw [hs.destination, h.destination]
    · rw [hs.payer, h.payer]
    · intro hxlm
      have hasset := hs.asset
      rwa [if_pos hxlm] at hasset
    · intro hxlm
      have hasset := hs.asset
      rw [if_neg hxlm] at hasset
      rw [h.asset]
      exact hasset.2
  · intro hg
    refine ⟨hg.successful, hg.type, ?_, h.amount, ?_, ?_, h.memo⟩
    · rw [hg.own.1, h.destination]
    · by_cases hxlm : c.assetCode = "XLM"
      · rw [if_pos hxlm]
        exact hg.native hxlm
      · obtain ⟨hcode, hissuer⟩ := hg.issued hxlm
        rw [if_neg hxlm, hcode, h.asset]
        refine ⟨?_, rfl, hissuer⟩
        intro hnative
        have hasset := h.asset
        simp only [extractOp, hnative, if_true, Option.some.injEq] at hasset
        exact hxlm hasset.symm
    · rw [hg.own.2, h.payer]

/-- What `verify` accepts settles the challenge exactly when the records that pass its
comparisons are right in what it does not look at. -/
theorem verify_sound_iff (pf : Platform) (txAnswer : Except Fault TransactionRecord)
    (opsAnswer : Except Fault (List OperationRecord)) (proof : X402PaymentProof)
    (c : X402Challenge) :
    (verify pf txAnswer opsAnswer proof c = .ok () → ∃ tx op ops, txAnswer = .ok tx ∧
        opsAnswer = .ok (op :: ops) ∧ Settles pf tx op proof c) ↔
      ∀ tx op ops, txAnswer = .ok tx → opsAnswer = .ok (op :: ops) →
        Matches pf tx op proof c → Genuine tx op c := by
  constructor
  · rintro h tx op ops rfl rfl hm
    obtain ⟨tx', op', ops', htx, hops, hs⟩ := h (verify_iff.mpr hm)
    cases htx
    cases hops
    exact hm.settles_iff.mp hs
  · intro h hv
    match txAnswer, opsAnswer with
    | .error e, _ => cases hv
    | .ok tx, .error e => cases hv
    | .ok tx, .ok [] => cases hv
    | .ok tx, .ok (op :: ops) =>
      have hm := verify_iff.mp hv
      exact ⟨tx, op, ops, rfl, rfl, hm.settles_iff.mpr (h tx op ops rfl rfl hm)⟩

/-- A payment in an asset of the same code from another issuer. -/
theorem verify_unsound :
    let tx : TransactionRecord := ⟨true, some "a3a9e1ed9732cab28868127be00f"⟩
    let op : OperationRecord := ⟨some "payment",
      some "GBBD47IF6LWK7P7MDEVSCWR7DPUWV3NY3DTQEVFL4NAT4AQH3ZLLFLA5", none, some "GPAYER", none,
      some "1.5000000", some "credit_alphanum4", some "USDC", none, some "GFORGER"⟩
    let proof : X402PaymentProof :=
      ⟨"x402", "testnet", "abc123", "550e8400-e29b-41d4-a716-446655440000", "GPAYER", ""⟩
    let c : X402Challenge := ⟨"https://api.example.com/data", "1.5000000", "USDC",
      "GA5ZSEJYB37JRC5AVCIA5MOP4RHTM335X2KGX3IHOJAPP5RE34K4KZVN",
      "GBBD47IF6LWK7P7MDEVSCWR7DPUWV3NY3DTQEVFL4NAT4AQH3ZLLFLA5",
      "550e8400-e29b-41d4-a716-446655440000", "2026-08-01T00:00:00.000Z"⟩
    verify Sample.platform (.ok tx) (.ok [op]) proof c = .ok () ∧
      ¬ Settles Sample.platform tx op proof c := by
  intro tx op proof c
  refine ⟨by decide +kernel, fun h => ?_⟩
  have hissuer : op.assetIssuer = some c.assetIssuer := h.asset.2.2
  exact absurd hissuer (by decide)

/-- The memo of a payment as Horizon reports it; payments of challenges have text
memos only. -/
def reportedMemo : Option Memo → Option String
  | some (.text s) => some s
  | _ => none

def reportedTransaction (p : PaymentContent) : TransactionRecord := ⟨true, reportedMemo p.memo⟩

/-- A payment operation as Horizon reports it, its amount with seven decimals. -/
def reportedOperation (source : String) (p : PaymentContent) : OperationRecord where
  type := some "payment"
  to' := some p.destination
  destination := none
  from' := some source
  sourceAccount := some source
  amount := some (String.ofList (render 7 (units 7 p.amount.toList)))
  assetType := match p.asset with
    | .native => some "native"
    | .issued code _ =>
      if jsLength code ≤ 4 then some "credit_alphanum4" else some "credit_alphanum12"
  assetCode := match p.asset with
    | .native => none
    | .issued code _ => some code
  assetObjectCode := none
  assetIssuer := match p.asset with
    | .native => none
    | .issued _ issuer => some issuer

variable {su : Setup} {p : PaymentContent}

theorem attachment_ok {value memo : String} (h : attachment value = .ok memo) : memo = value := by
  unfold attachment at h
  split at h
  · cases h
  · exact (Except.ok.inj h).symm

theorem textMemo_ok {numberText : Number → String} {s : String} {memo : Option Memo}
    (h : buildMemo numberText .text (some (.string s)) = .ok memo) : memo = some (.text s) := by
  simp only [buildMemo, textMemo] at h
  split at h
  · cases h
  · exact (Except.ok.inj h).symm

/-- The payment of a challenge is for its amount and in its asset, with the memo of its
nonce. -/
theorem built_ok (h : su.built c = .ok p) : p.destination = c.payTo ∧ p.amount = c.amount ∧
    p.memo = some (.text (memoOf su.pf c.nonce)) ∧
    (c.assetCode = "XLM" ∧ p.asset = .native ∨
      c.assetCode ≠ "XLM" ∧ su.sdk.newAsset c.assetCode c.assetIssuer = .ok () ∧
        p.asset = .issued c.assetCode c.assetIssuer) := by
  simp only [Setup.built, Setup.prepared, bind_eq_ok] at h
  obtain ⟨⟨input, asset⟩, ⟨memo, hattach, hprepare⟩, h⟩ := h
  obtain ⟨hschema, hasset⟩ := prepare_ok hprepare
  obtain ⟨hdestination, hamount, hcode, hissuer, htype, hmemo, -⟩ := paymentInputSchema_ok hschema
  obtain ⟨m, hbuild, rfl⟩ := content_ok h
  have hcode' : input.assetCode = c.assetCode := hcode
  have htext : input.memoType = .text := (Option.some.inj htype).symm
  rw [htext, hmemo] at hbuild
  refine ⟨(Option.some.inj hdestination).symm, (Option.some.inj hamount).symm, ?_, ?_⟩
  · rw [← attachment_ok hattach]
    exact textMemo_ok hbuild
  · rw [hcode'] at hasset
    obtain hnative | ⟨hne, hnew, hissued⟩ := hasset
    · exact .inl hnative
    · have hissuer' : input.assetIssuer.getD "" = c.assetIssuer := by
        rw [hissuer]
        simp [payload, hne]
      rw [hissuer'] at hnew hissued
      exact .inr ⟨hne, hnew, hissued⟩

theorem payTo_truthy {cfg : Config} {raw : RawChallenge}
    (h : x402ChallengeSchema cfg pf raw = .ok c) : truthy (some c.payTo) = true := by
  simp only [x402ChallengeSchema] at h
  split at h
  · rename_i resource amount payTo nonce expiresAt _ _ hpayTo _ _
    split at h
    · rename_i hissues
      cases h
      simp only [hpayTo, stringIssues, List.append_eq_nil_iff, ensure_eq_nil] at hissues
      by_contra hempty
      have heq : payTo = "" := by simpa [truthy] using hempty
      rw [heq] at hissues
      simp [jsLength] at hissues
    · cases h
  · cases h

theorem reported_matches_iff {out : X402PaymentProof} (hbuilt : su.built c = .ok p)
    (hpayTo : truthy (some c.payTo) = true)
    (hcode : ∀ issuer, su.sdk.newAsset "" issuer ≠ .ok ()) (hpayer : out.payer = su.publicKey) :
    Matches su.pf (reportedTransaction p) (reportedOperation su.publicKey p) out c ↔
      isCanonical 7 c.amount.toList = true := by
  obtain ⟨hdestination, hamount, hmemo, hasset⟩ := built_ok hbuilt
  rw [← render_units_iff]
  constructor
  · intro h
    have htext : String.ofList (render 7 (units 7 p.amount.toList)) = c.amount :=
      Option.some.inj h.amount
    rw [← hamount, ← String.toList_ofList (l := render 7 (units 7 p.amount.toList)), htext, hamount]
  · intro h
    constructor
    · simp only [extractOp, reportedOperation, hdestination, either, hpayTo, if_true]
    · simp only [extractOp, reportedOperation, hamount, h, String.ofList_toList]
    · obtain ⟨hxlm, hnative⟩ | ⟨hxlm, hnew, hissued⟩ := hasset
      · simp only [extractOp, reportedOperation, hnative, if_true, hxlm]
      · have htruthy : truthy (some c.assetCode) = true := by
          by_contra hempty
          have heq : c.assetCode = "" := by simpa [truthy] using hempty
          rw [heq] at hnew
          exact hcode _ hnew
        have htype : (reportedOperation su.publicKey p).assetType ≠ some "native" := by
          simp only [reportedOperation, hissued]
          split <;> decide
        simp only [extractOp, htype, if_false]
        simp only [reportedOperation, hissued, either, htruthy, if_true]
    · simp only [reportedTransaction, hmemo, reportedMemo]
    · rw [hpayer]
      exact either_self _

/-- The proof of an accepted challenge verifies on a faithful report exactly when the
challenge spells its amount as Horizon does. -/
theorem proof_verifies_iff (su : Setup) (retries : ℕ) (w w' : Wallet) (x : Exchange)
    (out : X402PaymentProof) (hcode : ∀ issuer, su.sdk.newAsset "" issuer ≠ .ok ())
    (h : respond su retries w x = (.ok out, w')) :
    ∃ c tx, x402ChallengeSchema su.cfg su.pf x.raw = .ok c ∧
      w'.ledger.applied.getLast? = some tx ∧
      (verify su.pf (.ok (reportedTransaction tx.operation))
          (.ok [reportedOperation su.publicKey tx.operation]) out c = .ok () ↔
        isCanonical 7 c.amount.toList = true) := by
  obtain ⟨c, tx, txHash, hschema, hbuilt, hlast, rfl⟩ := respond_ok h
  refine ⟨c, tx, hschema, hlast, ?_⟩
  rw [verify_iff]
  exact reported_matches_iff hbuilt (payTo_truthy hschema) hcode rfl

def receipt : X402PaymentProof :=
  ⟨"x402", "testnet", "hash", "550e8400-e29b-41d4-a716-446655440000", "GAGENT", ""⟩

theorem proof_verifies_iff_paid :
    ∃ c tx, x402ChallengeSchema Sample.config Sample.platform Sample.challenge = .ok c ∧
      (step sample 3 (idle ⟨0, 0⟩ [] ⟨100, []⟩) (exchange 1785000000000)).ledger.applied.getLast? =
        some tx ∧
      (verify Sample.platform (.ok (reportedTransaction tx.operation))
          (.ok [reportedOperation "GAGENT" tx.operation]) receipt c = .ok () ↔
        isCanonical 7 c.amount.toList = true) :=
  proof_verifies_iff sample 3 _ _ (exchange 1785000000000) receipt (fun _ => nofun)
    (Prod.ext (by decide +kernel) rfl)

/-- The amount "1.5" is paid, and reported as "1.5000000". -/
theorem proof_rejected :
    let x : Exchange :=
      { exchange 1785000000000 with raw := { Sample.challenge with amount := some "1.5" } }
    let w := idle ⟨0, 0⟩ [] ⟨100, []⟩
    ∃ c tx, x402ChallengeSchema Sample.config Sample.platform x.raw = .ok c ∧
      (respond sample 3 w x).1 = .ok receipt ∧
      (respond sample 3 w x).2.ledger.applied.getLast? = some tx ∧
      verify Sample.platform (.ok (reportedTransaction tx.operation))
        (.ok [reportedOperation "GAGENT" tx.operation]) receipt c ≠ .ok () := by
  intro x w
  refine ⟨⟨"https://api.example.com/data", "1.5", "USDC",
    "GA5ZSEJYB37JRC5AVCIA5MOP4RHTM335X2KGX3IHOJAPP5RE34K4KZVN",
    "GBBD47IF6LWK7P7MDEVSCWR7DPUWV3NY3DTQEVFL4NAT4AQH3ZLLFLA5",
    "550e8400-e29b-41d4-a716-446655440000", "2026-08-01T00:00:00.000Z"⟩,
    ⟨101, ⟨"GBBD47IF6LWK7P7MDEVSCWR7DPUWV3NY3DTQEVFL4NAT4AQH3ZLLFLA5",
      .issued "USDC" "GA5ZSEJYB37JRC5AVCIA5MOP4RHTM335X2KGX3IHOJAPP5RE34K4KZVN", "1.5",
      some (.text "a3a9e1ed9732cab28868127be00f")⟩⟩, ?_, ?_, ?_, ?_⟩
  · decide +kernel
  · decide +kernel
  · decide +kernel
  · decide +kernel

end PayFi.X402.Verify
