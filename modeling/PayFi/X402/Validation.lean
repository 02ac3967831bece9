import PayFi.X402.Respond

namespace PayFi.X402.Validation

open Library.ExpiringSet Library.Results Network.Submission Tools.Payment Tools.Rebuilding
open Challenge Respond

/-- The challenge with which `respond` calls `paymentTool.execute`, and the memo it has built
for it; `none` when it throws before. -/
def reached (su : Setup) (w : Wallet) (x : Exchange) : Option (X402Challenge × String) :=
  match (admission su.cfg su.pf su.publicKey w.limiter x.raw x.now x.now').1 with
  | .error _ => none
  | .ok c =>
    if x.lookupFault.isSome then none
    else if contains (pruneNonces (configuredTtlMs su.cfg) x.pruned w.store) c.nonce then none
    else
      match attachment (memoOf su.pf c.nonce) with
      | .error _ => none
      | .ok memo => some (c, memo)

/-- The hostnames of `ALLOWED_X402_ORIGINS`. -/
def allowedOrigins (cfg : Config) : List (List Char) :=
  ((cfg.allowedOrigins.getD "").toList.splitOn ',').map trim

structure Validated (su : Setup) (w : Wallet) (x : Exchange) (c : X402Challenge) : Prop where
  schema : x402ChallengeSchema su.cfg su.pf x.raw = .ok c
  payTo : c.payTo ≠ su.publicKey
  origin : truthy su.cfg.allowedOrigins = true →
    (su.pf.hostname c.resource).toList ∈ allowedOrigins su.cfg
  expiry : ∀ t ∈ su.pf.time c.expiresAt, x.now' ≤ t
  unused : contains (pruneNonces (configuredTtlMs su.cfg) x.pruned w.store) c.nonce = false

def AssetConfigured (cfg : Config) (c : X402Challenge) : Prop :=
  c.assetCode = cfg.assetCode ∧ c.assetIssuer = cfg.assetIssuer

variable {su : Setup} {cfg : Config} {retries : ℕ} {w : Wallet} {x : Exchange} {c : X402Challenge}
  {memo : String}

theorem schema_asset {pf : Platform} {raw : RawChallenge}
    (h : x402ChallengeSchema cfg pf raw = .ok c) :
    c.assetCode = raw.assetCode.getD cfg.assetCode ∧
      c.assetIssuer = raw.assetIssuer.getD cfg.assetIssuer := by
  simp only [x402ChallengeSchema] at h
  split at h
  · split at h
    · cases h
      exact ⟨rfl, rfl⟩
    · cases h
  · cases h

theorem getD_eq_iff {s : Option String} {d : String} : s.getD d = d ↔ ∀ a ∈ s, a = d := by
  cases s <;> simp

theorem reached_eq_some (h : reached su w x = some (c, memo)) :
    (admission su.cfg su.pf su.publicKey w.limiter x.raw x.now x.now').1 = .ok c ∧
      x.lookupFault = none ∧
      contains (pruneNonces (configuredTtlMs su.cfg) x.pruned w.store) c.nonce = false ∧
      attachment (memoOf su.pf c.nonce) = .ok memo := by
  rw [reached] at h
  split at h
  · cases h
  · rename_i c' hadmission
    split at h
    · cases h
    · rename_i hfault
      split at h
      · cases h
      · rename_i hunused
        split at h
        · cases h
        · rename_i memo' hmemo
          obtain ⟨rfl, rfl⟩ := Prod.mk.inj (Option.some.inj h)
          exact ⟨hadmission, by simpa using hfault, by simpa using hunused, hmemo⟩

theorem respond_unreached (h : reached su w x = none) :
    (respond su retries w x).1.isOk = false ∧ (respond su retries w x).2.ledger = w.ledger := by
  obtain ⟨out, limiter, hl⟩ : ∃ out limiter, admission su.cfg su.pf su.publicKey w.limiter x.raw
      x.now x.now' = (out, limiter) := ⟨_, _, rfl⟩
  rw [reached, hl] at h
  cases out with
  | error e =>
    simp only [respond, hl]
    exact ⟨rfl, trivial⟩
  | ok c =>
    simp only [respond, hl, honour]
    cases hf : x.lookupFault with
    | some e => exact ⟨rfl, rfl⟩
    | none =>
      simp only [hf, Option.isSome_none, Bool.false_eq_true, if_false] at h
      by_cases hused :
          contains (pruneNonces (configuredTtlMs su.cfg) x.pruned w.store) c.nonce = true
      · simp only [hused, if_true]
        exact ⟨rfl, trivial⟩
      · simp only [hused, Bool.false_eq_true, if_false] at h ⊢
        cases hmemo : attachment (memoOf su.pf c.nonce) with
        | error e =>
          simp only [pay, hmemo]
          exact ⟨rfl, by simp [Wallet.settle]⟩
        | ok memo =>
          rw [hmemo] at h
          cases h

/-- A challenge that reaches the payment tool has passed every check, and its asset is the
configured one exactly when it names no other. Without reaching it nothing is paid. -/
theorem payment_validated (su : Setup) (retries : ℕ) (w : Wallet) (x : Exchange) :
    (∀ c memo, reached su w x = some (c, memo) → Validated su w x c ∧
      (AssetConfigured su.cfg c ↔ (∀ a ∈ x.raw.assetCode, a = su.cfg.assetCode) ∧
        ∀ i ∈ x.raw.assetIssuer, i = su.cfg.assetIssuer)) ∧
      (reached su w x = none → (respond su retries w x).1.isOk = false ∧
        (respond su retries w x).2.ledger = w.ledger) := by
  refine ⟨fun c memo h => ?_, respond_unreached⟩
  obtain ⟨hadmission, -, hunused, -⟩ := reached_eq_some h
  obtain ⟨hschema, hpayTo, horigin, hexpired⟩ := validate_eq_ok (admission_eq_ok hadmission)
  refine ⟨⟨hschema, hpayTo, ?_, ?_, hunused⟩, ?_⟩
  · intro hset
    rw [originAllowed, if_pos hset] at horigin
    exact List.contains_iff_mem.mp horigin
  · intro t ht
    rw [expired, ht] at hexpired
    simpa using hexpired
  · obtain ⟨hcode, hissuer⟩ := schema_asset hschema
    rw [AssetConfigured, hcode, hissuer, getD_eq_iff, getD_eq_iff]

/-- A call that a challenge for XLM makes on an agent configured for USDC. -/
def native : Exchange :=
  { exchange 1785000000000 with
    raw := { Sample.challenge with assetCode := some "XLM", assetIssuer := some "" } }

theorem payment_validated_native :
    let w := idle ⟨0, 0⟩ [] ⟨100, []⟩
    ∃ c memo, reached sample w native = some (c, memo) ∧ Validated sample w native c := by
  intro w
  obtain ⟨c, memo, h⟩ : ∃ c memo, reached sample w native = some (c, memo) :=
    ⟨⟨"https://api.example.com/data", "1.5000000", "XLM", "",
      "GBBD47IF6LWK7P7MDEVSCWR7DPUWV3NY3DTQEVFL4NAT4AQH3ZLLFLA5",
      "550e8400-e29b-41d4-a716-446655440000", "2026-08-01T00:00:00.000Z"⟩,
      "a3a9e1ed9732cab28868127be00f", by decide +kernel⟩
  exact ⟨c, memo, h, ((payment_validated sample 3 w native).1 c memo h).1⟩

/-- It reaches the payment tool, and is paid. -/
theorem asset_unmatched :
    let w := idle ⟨0, 0⟩ [] ⟨100, []⟩
    (∃ c memo, reached sample w native = some (c, memo) ∧ ¬ AssetConfigured sample.cfg c) ∧
      (respond sample 3 w native).1.isOk = true := by
  refine ⟨⟨⟨"https://api.example.com/data", "1.5000000", "XLM", "",
    "GBBD47IF6LWK7P7MDEVSCWR7DPUWV3NY3DTQEVFL4NAT4AQH3ZLLFLA5",
    "550e8400-e29b-41d4-a716-446655440000", "2026-08-01T00:00:00.000Z"⟩,
    "a3a9e1ed9732cab28868127be00f", ?_, ?_⟩, ?_⟩
  · decide +kernel
  · exact fun h => absurd h.1 (by decide)
  · decide +kernel

end PayFi.X402.Validation
