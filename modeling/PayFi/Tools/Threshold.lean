import PayFi.Library.Signatures
import PayFi.Tools.MultiSig

namespace PayFi.Tools.Threshold

open Library.Numbers Library.Results Library.Signatures Network.AccountCache Network.Submission
  Network.Sequence Payment MultiSig

/-- Which signatures are valid, hint included. Of the agent's own one the SDK promises that it
is valid for the agent's key, and for no other. -/
structure Keys (su : Setup) where
  verify : String → String × Envelope → String → Bool
  verify_sign : ∀ signer p, verify signer p (su.sign p) = true ↔ signer = su.publicKey

variable {su : Setup} {keys : Keys su} {w : World String} {raw : RawMultiSig} {x : Exchange}
  {input : MultiSigInput} {tx tx' : Envelope}

def declaredSigners (su : Setup) (input : MultiSigInput) : List String :=
  su.publicKey :: input.additionalSigners

/-- At least `minSignatures` declared signers have a valid signature on the transaction. -/
def Enforced (keys : Keys su) (input : MultiSigInput) (tx : Envelope) : Prop :=
  input.minSignatures ≤
    (signatories keys.verify (declaredSigners su input) (payload su tx) tx.signatures).card

/-- The transaction that a call builds from its input. -/
def toBuild (su : Setup) (w : World String) (input : MultiSigInput) (x : Exchange) : Envelope :=
  envelope su input (assetOf input.assetCode input.assetIssuer)
    (startingSequence su w x.now + 1) x.builtAt

/-- What an accepted input still needs for a transaction: its asset, the agent's account, and a
payment that the SDK takes. -/
structure Builds (su : Setup) (w : World String) (input : MultiSigInput) (x : Exchange) :
    Prop where
  asset : input.assetCode = "XLM" ∨ truthy input.assetIssuer = true ∧
    su.sdk.newAsset input.assetCode (input.assetIssuer.getD "") = .ok ()
  account : (lookup su.ttl w.cache su.publicKey false x.now).1.isSome = true ∨ x.answers = true
  payment : su.sdk.payment input.destination (assetOf input.assetCode input.assetIssuer)
    input.amount = .ok ()

/-- Strings that `execute` submits with: as many as `minSignatures`, all of them decorated
signatures of whatever kind. -/
def Taken (su : Setup) (input : MultiSigInput) (strings : List String) : Prop :=
  input.minSignatures ≤ strings.length ∧ ∀ s ∈ strings, ∃ decorated,
    su.decoratedSignature s = .ok decorated

/-- Different additional signers other than the agent, one fewer than `minSignatures` at least,
who have each sent a valid signature of this transaction. -/
def Approved (keys : Keys su) (input : MultiSigInput) (tx : Envelope) (strings : List String) :
    Prop :=
  ∃ signers : List String, signers.Nodup ∧ input.minSignatures ≤ signers.length + 1 ∧
    ∀ k ∈ signers, (k ∈ input.additionalSigners ∧ k ≠ su.publicKey) ∧ ∃ s ∈ strings,
      ∃ decorated, su.decoratedSignature s = .ok decorated ∧
        keys.verify k (payload su tx) decorated = true

theorem minSignatures_le (h : multiSigInputSchema su.sdk raw = .ok input) :
    input.minSignatures ≤ input.additionalSigners.length + 1 := by
  unfold multiSigInputSchema at h
  dsimp only at h
  split at h
  · rename_i destination amount signers n hd ha hs hn
    split at h
    · rename_i issues k hissues hinteger
      cases h
      have hle := ensure_eq_nil.mp (List.append_eq_nil_iff.mp hissues).2
      cases n with
      | finite q =>
        rw [integer, Option.ite_none_right_eq_some, Option.some.injEq] at hinteger
        obtain ⟨hden, rfl⟩ := hinteger
        rw [Number.lt, Bool.not_eq_true', decide_eq_false_iff_not, not_lt] at hle
        rw [← Rat.coe_int_num_of_den_eq_one hden] at hle
        exact_mod_cast hle
      | _ => cases hinteger
    · cases h
  · cases h

theorem prepare_eq_ok_iff (hinput : multiSigInputSchema su.sdk raw = .ok input) {asset : Asset} :
    prepare su raw = .ok (input, asset) ↔
      (input.assetCode = "XLM" ∨ truthy input.assetIssuer = true ∧
        su.sdk.newAsset input.assetCode (input.assetIssuer.getD "") = .ok ()) ∧
      asset = assetOf input.assetCode input.assetIssuer := by
  have hle := minSignatures_le hinput
  rw [MultiSig.prepare, hinput]
  dsimp only
  rw [if_neg (by omega), assetOf]
  by_cases hxlm : input.assetCode = "XLM"
  · rw [if_neg fun h => h.1 hxlm, if_pos hxlm, if_pos hxlm]
    constructor
    · intro h
      cases h
      exact ⟨.inl hxlm, rfl⟩
    · rintro ⟨-, rfl⟩
      rfl
  · by_cases hissuer : truthy input.assetIssuer = true
    · rw [if_neg fun h => by simp [hissuer] at h, if_neg hxlm, if_neg hxlm]
      cases su.sdk.newAsset input.assetCode (input.assetIssuer.getD "") with
      | error e => simp [Except.map, hxlm]
      | ok =>
        constructor
        · intro h
          cases h
          exact ⟨.inr ⟨hissuer, rfl⟩, rfl⟩
        · rintro ⟨-, rfl⟩
          rfl
    · rw [if_pos ⟨hxlm, by simpa using hissuer⟩]
      simp [hxlm, hissuer]

theorem loadAccount_isSome (ttl : ℕ) (own key : String) (answer : ℤ)
    (a : Network.Sequence.Attempt) :
    (∃ account w', loadAccount ttl own key answer w false a = (some account, w')) ↔
      (lookup ttl w.cache key false a.now).1.isSome = true ∨ a.answers = true := by
  rw [loadAccount]
  cases hlookup : lookup ttl w.cache key false a.now with
  | mk found cache =>
    cases found with
    | some account => simp
    | none => cases a.answers <;> simp

theorem decode_eq_ok_iff {strings decorated : List String} : decode su strings = .ok decorated ↔
    List.Forall₂ (fun s d => su.decoratedSignature s = .ok d) strings decorated := by
  simp only [decode, mapM_eq_ok, mapError_eq_ok]

theorem finish_submitted_iff : (finish su input tx x w).submitted = some tx' ↔
    ∃ strings ∈ input.signatures, input.minSignatures ≤ strings.length ∧
      ∃ decorated, decode su strings = .ok decorated ∧
        { tx with signatures := su.sign (payload su tx) :: decorated } = tx' := by
  rw [finish, collected]
  cases input.signatures with
  | none => simp
  | some strings =>
    rw [Option.filter_some]
    by_cases henough : input.minSignatures ≤ strings.length
    · cases hdecode : decode su strings <;> simp [henough, hdecode]
    · simp [henough]

theorem execute_eq (hinput : multiSigInputSchema su.sdk raw = .ok input) :
    (Builds su w input x ∧ ∃ w', execute su w raw x = finish su input (toBuild su w input x) x w') ∨
      ¬ Builds su w input x ∧ (execute su w raw x).submitted = none := by
  have hloads : (∃ account w', loadAccount su.ttl su.publicKey su.publicKey w.sequence w false
      ⟨x.now, x.answers, x.now', false, true⟩ = (some account, w')) ↔ _ :=
    loadAccount_isSome ..
  rw [MultiSig.execute]
  cases hprepare : MultiSig.prepare su raw with
  | error e =>
    refine .inr ⟨fun hbuilds => ?_, rfl⟩
    rw [(prepare_eq_ok_iff hinput).mpr ⟨hbuilds.asset, rfl⟩] at hprepare
    cases hprepare
  | ok prepared =>
    obtain ⟨input', asset⟩ := prepared
    have hinput' := (prepare_ok hprepare).1
    rw [hinput] at hinput'
    cases hinput'
    obtain ⟨hasset, rfl⟩ := (prepare_eq_ok_iff hinput).mp hprepare
    cases hload : loadAccount su.ttl su.publicKey su.publicKey w.sequence w false
        ⟨x.now, x.answers, x.now', false, true⟩ with
    | mk account w' =>
      rw [hload] at hloads
      cases account with
      | none =>
        refine .inr ⟨fun hbuilds => ?_, rfl⟩
        obtain ⟨account, w'', h⟩ := hloads.mpr hbuilds.account
        cases h
      | some account =>
        have haccount := hloads.mp ⟨account, w', rfl⟩
        cases hpayment : su.sdk.payment input.destination
            (assetOf input.assetCode input.assetIssuer) input.amount with
        | error e =>
          refine .inr ⟨fun hbuilds => ?_, by simp only [hpayment]⟩
          rw [hbuilds.payment] at hpayment
          cases hpayment
        | ok =>
          refine .inl ⟨⟨hasset, haccount, hpayment⟩, (build su.publicKey w' account).2, ?_⟩
          simp only [hpayment, build, loadAccount_records hload, toBuild]

theorem execute_submitted_iff (hinput : multiSigInputSchema su.sdk raw = .ok input) :
    (execute su w raw x).submitted = some tx ↔ Builds su w input x ∧
      ∃ strings ∈ input.signatures, input.minSignatures ≤ strings.length ∧
        ∃ decorated, decode su strings = .ok decorated ∧
          { toBuild su w input x with
            signatures := su.sign (payload su (toBuild su w input x)) :: decorated } = tx := by
  obtain ⟨hbuilds, w', hexecute⟩ | ⟨hnot, hnone⟩ := execute_eq (w := w) (x := x) hinput
  · rw [hexecute, finish_submitted_iff, and_iff_right hbuilds]
  · rw [hnone]
    exact iff_of_false (by simp) fun h => hnot h.1

theorem mem_decoded {strings decorated : List String} (h : decode su strings = .ok decorated)
    {d : String} : d ∈ decorated ↔ ∃ s ∈ strings, su.decoratedSignature s = .ok d := by
  have hall := decode_eq_ok_iff.mp h
  clear h
  induction hall with
  | nil => simp
  | @cons s d' strings decorated hs _ ih =>
    rw [List.mem_cons, List.exists_mem_cons_iff, hs, Except.ok.injEq, eq_comm]
    exact or_congr_right ih

theorem decodes_iff {strings : List String} : (∃ decorated, decode su strings = .ok decorated) ↔
    ∀ s ∈ strings, ∃ decorated, su.decoratedSignature s = .ok decorated := by
  simp only [decode_eq_ok_iff]
  induction strings with
  | nil => simp
  | cons s strings ih =>
    rw [List.forall_mem_cons, ← ih]
    constructor
    · rintro ⟨_, hd | ⟨hd, hrest⟩⟩
      exact ⟨⟨_, hd⟩, _, hrest⟩
    · rintro ⟨⟨d, hd⟩, decorated, hrest⟩
      exact ⟨d :: decorated, .cons hd hrest⟩

theorem enforced_iff (keys : Keys su) {strings decorated : List String}
    (hdecode : decode su strings = .ok decorated) :
    Enforced keys input { tx with signatures := su.sign (payload su tx) :: decorated } ↔
      Approved keys input tx strings := by
  have hpayload : payload su { tx with signatures := su.sign (payload su tx) :: decorated } =
    payload su tx := rfl
  have hcard : ∀ c : ℕ, input.minSignatures ≤ ((c + 1 : ℕ) : ℤ) ↔
      (input.minSignatures - 1).toNat ≤ c := by
    intro c
    omega
  rw [Enforced, hpayload, declaredSigners,
    card_signatories_cons fun k => keys.verify_sign k (payload su tx), hcard,
    le_card_signatories_iff, Approved]
  refine exists_congr fun signers => and_congr_right fun _ => and_congr ?_ ?_
  · omega
  · refine forall₂_congr fun k _ => and_congr (by simp) ?_
    simp only [mem_decoded hdecode]
    constructor
    · rintro ⟨d, ⟨s, hs, hd⟩, hverify⟩
      exact ⟨s, hs, d, hd, hverify⟩
    · rintro ⟨s, hs, d, hd, hverify⟩
      exact ⟨d, ⟨s, hs, hd⟩, hverify⟩

/-- Whenever a transaction is submitted enough of the declared signers have signed it, exactly
when strings that are taken are approvals of `minSignatures - 1` additional signers, at least. -/
theorem threshold_enforced_iff (keys : Keys su) (w : World String) (raw : RawMultiSig)
    (x : Exchange) (input : MultiSigInput) (hinput : multiSigInputSchema su.sdk raw = .ok input) :
    (∀ tx, (execute su w raw x).submitted = some tx → Enforced keys input tx) ↔
      ∀ strings ∈ input.signatures, Builds su w input x → Taken su input strings →
        Approved keys input (toBuild su w input x) strings := by
  constructor
  · rintro h strings hstrings hbuilds ⟨henough, hdecodes⟩
    obtain ⟨decorated, hdecode⟩ := decodes_iff.mpr hdecodes
    refine (enforced_iff keys hdecode).mp (h _ ?_)
    exact (execute_submitted_iff hinput).mpr
      ⟨hbuilds, strings, hstrings, henough, decorated, hdecode, rfl⟩
  · intro h tx htx
    obtain ⟨hbuilds, strings, hstrings, henough, decorated, hdecode, rfl⟩ :=
      (execute_submitted_iff hinput).mp htx
    refine (enforced_iff keys hdecode).mpr (h strings hstrings hbuilds ⟨henough, ?_⟩)
    exact decodes_iff.mp ⟨decorated, hdecode⟩

def cosigner : String := String.ofList (List.replicate 56 'S')

/-- The agent signs with one word, its cosigner with another. -/
def toolKeys (ttl : ℕ) : Keys (tool ttl) where
  verify := fun signer _ s =>
    signer = "GAGENT" && s = "agent" || signer = cosigner && s = "cosigner"
  verify_sign := fun signer p => by simp [tool]

def submittedInput (signatures : List String) : MultiSigInput where
  destination := String.ofList (List.replicate 56 'G')
  amount := "100"
  assetCode := "XLM"
  assetIssuer := none
  memo := none
  additionalSigners := [cosigner]
  minSignatures := 2
  signatures := some signatures

def submittedTx (signatures : List String) : Envelope where
  source := "GAGENT"
  fee := 100
  sequence := 8
  minTime := 0
  maxTime := 30
  operation := ⟨String.ofList (List.replicate 56 'G'), .native, "100", none⟩
  signatures := "agent" :: signatures

instance (keys : Keys su) (input : MultiSigInput) (tx : Envelope) :
    Decidable (Enforced keys input tx) :=
  inferInstanceAs (Decidable (_ ≤ _))

/-- The cosigner's signature is what a threshold of two takes, with another one beside it. -/
theorem threshold_enforced_by_cosigner :
    Enforced (toolKeys 0) (submittedInput ["cosigner", "agent"])
      (submittedTx ["cosigner", "agent"]) :=
  (threshold_enforced_iff (toolKeys 0) (idle 7) (request (some ["cosigner", "agent"])) (call 0) _
    (by decide +kernel)).mpr (by
      rintro strings hstrings - -
      cases hstrings
      refine ⟨[cosigner], List.nodup_singleton _, by decide, ?_⟩
      rw [List.forall_mem_singleton]
      exact ⟨by decide +kernel, "cosigner", by decide, "cosigner", rfl, by decide⟩)
    _ (by decide +kernel)

/-- With these signatures a payment is submitted that not enough have signed. -/
def PassesUnsigned (signatures : List String) : Prop :=
  ∃ input tx, multiSigInputSchema (tool 0).sdk (request (some signatures)) = .ok input ∧
    (execute (tool 0) (idle 7) (request (some signatures)) (call 0)).submitted = some tx ∧
    ¬ Enforced (toolKeys 0) input tx

/-- The agent's own signature twice, or that of a stranger repeated, passes for two signers. -/
theorem threshold_unenforced :
    PassesUnsigned ["agent", "agent"] ∧ PassesUnsigned ["stranger", "stranger"] := by
  constructor
  · refine ⟨submittedInput ["agent", "agent"], submittedTx ["agent", "agent"], ?_⟩
    decide +kernel
  · refine ⟨submittedInput ["stranger", "stranger"], submittedTx ["stranger", "stranger"], ?_⟩
    decide +kernel

end PayFi.Tools.Threshold
