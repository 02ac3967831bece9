import PayFi.Library.ExpiringSet
import PayFi.Tools.Payment

namespace PayFi.X402.Challenge

open Library.Numbers Library.ExpiringSet Network.Submission Tools.Payment

/-- The part of the configuration that the tool reads, as `EnvSchema` accepts it. -/
structure Config where
  network : String
  assetCode : String
  assetIssuer : String
  allowedOrigins : Option String
  maxPaymentsPerMinute : ℕ
  nonceTtlMs : ℤ
  payments_pos : 1 ≤ maxPaymentsPerMinute
  ttl_pos : 1 ≤ nonceTtlMs

/-- The string checks of zod, and what Node makes of the accepted texts. The time of
a text is none where `Date` has no value for it. -/
structure Platform where
  isUrl : String → Bool
  hostname : String → String
  isUuid : String → Bool
  isDatetime : String → Bool
  time : String → Option ℤ
  sha256 : String → String
  sha256_hex : ∀ s, isHex (sha256 s) = true
  sha256_length : ∀ s, (sha256 s).toList.length = 64

/-- What `respond` throws. -/
inductive X402Error where
  | zod (issues : List Issue)
  | error (message : String)
  | transactionFailure (message : String) (txHash : Option String)
  deriving DecidableEq

structure RawChallenge where
  resource : Option String
  amount : Option String
  assetCode : Option String
  assetIssuer : Option String
  payTo : Option String
  nonce : Option String
  expiresAt : Option String
  deriving DecidableEq

structure X402Challenge where
  resource : String
  amount : String
  assetCode : String
  assetIssuer : String
  payTo : String
  nonce : String
  expiresAt : String
  deriving DecidableEq

def stringIssues (field : String) (check : String → Bool) (message : String) :
    Option String → List Issue
  | none => [⟨[field], "Required"⟩]
  | some s => ensure (check s) [field] message

/-- The issuer is looked at only when every field has a value. -/
def x402ChallengeSchema (cfg : Config) (pf : Platform) (raw : RawChallenge) :
    Except (List Issue) X402Challenge :=
  let assetCode := raw.assetCode.getD cfg.assetCode
  let assetIssuer := raw.assetIssuer.getD cfg.assetIssuer
  let issues := stringIssues "resource" pf.isUrl "Must be a valid resource URL" raw.resource ++
    stringIssues "amount" (fun _ => true) "" raw.amount ++
    stringIssues "payTo" (fun s => jsLength s == 56) "Invalid payTo Stellar address" raw.payTo ++
    stringIssues "nonce" pf.isUuid "Nonce must be a UUID v4" raw.nonce ++
    stringIssues "expiresAt" pf.isDatetime "Invalid datetime" raw.expiresAt
  match raw.resource, raw.amount, raw.payTo, raw.nonce, raw.expiresAt with
  | some resource, some amount, some payTo, some nonce, some expiresAt =>
    let issues := issues ++ ensure (assetCode == "XLM" || assetIssuer != "") ["assetIssuer"]
      "assetIssuer is required for non-XLM payments"
    if issues = [] then
      .ok ⟨resource, amount, assetCode, assetIssuer, payTo, nonce, expiresAt⟩
    else .error issues
  | _, _, _, _, _ => .error issues

structure Limiter where
  paymentCount : ℕ
  windowStart : ℤ
  deriving DecidableEq

def rateLimitWindowMs : ℤ := 60000

def Limiter.roll (l : Limiter) (now : ℤ) : Limiter :=
  if rateLimitWindowMs ≤ now - l.windowStart then ⟨0, now⟩ else l

def trim (cs : List Char) : List Char :=
  ((cs.dropWhile isWhiteSpace).reverse.dropWhile isWhiteSpace).reverse

def originAllowed (cfg : Config) (pf : Platform) (resource : String) : Bool :=
  if truthy cfg.allowedOrigins then
    (((cfg.allowedOrigins.getD "").toList.splitOn ',').map trim).contains
      (pf.hostname resource).toList
  else true

def expired (pf : Platform) (c : X402Challenge) (now : ℤ) : Bool :=
  (pf.time c.expiresAt).any (· < now)

def validate (cfg : Config) (pf : Platform) (publicKey : String) (raw : RawChallenge) (now : ℤ) :
    Except X402Error X402Challenge := do
  let challenge ← (x402ChallengeSchema cfg pf raw).mapError .zod
  if challenge.payTo = publicKey then
    throw (.error "Payment destination cannot be the agent's own address")
  if !originAllowed cfg pf challenge.resource then
    throw (.error "x402: untrusted resource origin")
  if expired pf challenge now then
    throw (.error ("x402 challenge expired at " ++ challenge.expiresAt))
  return challenge

/-- `respond` up to its nonce lookup: the rate limit at the first clock reading, the
challenge at the second. A challenge that fails its checks has been counted. -/
def admission (cfg : Config) (pf : Platform) (publicKey : String) (l : Limiter) (raw : RawChallenge)
    (now now' : ℤ) : Except X402Error X402Challenge × Limiter :=
  let l := l.roll now
  if cfg.maxPaymentsPerMinute ≤ l.paymentCount then (.error (.error "x402: rate limit exceeded"), l)
  else (validate cfg pf publicKey raw now', { l with paymentCount := l.paymentCount + 1 })

def memoOf (pf : Platform) (nonce : String) : String :=
  String.ofList ((pf.sha256 nonce).toList.take 28)

/-- `MEMO_TEXT`, as the memo attachment tool builds it. -/
def attachment (value : String) : Except Fault String :=
  if 28 < byteLength value then
    .error (.error ("MEMO_TEXT exceeds maximum length of 28 bytes (got " ++
      toString (byteLength value) ++ " bytes)"))
  else .ok value

def payload (c : X402Challenge) (memo : String) : RawPayment :=
  ⟨some c.payTo, some c.amount, some c.assetCode,
    if c.assetCode = "XLM" then none else some c.assetIssuer, none, some (.string memo)⟩

/-- The hash that an error brings along, in the first of the places where one is
looked for. -/
def extractTxHash (places : List (Option String)) : Option String :=
  (places.find? fun h => truthy h).join

def paymentFailed (e : Fault) (places : List (Option String)) : X402Error :=
  .transactionFailure e.message (extractTxHash places)

/-- What the tool is set up with. -/
structure Setup where
  cfg : Config
  pf : Platform
  sdk : Sdk
  publicKey : String

def Setup.prepared (su : Setup) (c : X402Challenge) : Except Fault (PaymentInput × Asset) := do
  let memo ← attachment (memoOf su.pf c.nonce)
  prepare su.sdk su.publicKey (payload c memo)

def Setup.built (su : Setup) (c : X402Challenge) : Except Fault PaymentContent := do
  let (input, asset) ← su.prepared c
  content su.sdk input asset

structure X402PaymentProof where
  protocol : String
  network : String
  txHash : String
  nonce : String
  payer : String
  signedAt : String
  deriving DecidableEq

def proof (cfg : Config) (publicKey : String) (c : X402Challenge) (txHash : String)
    (closedAt : Option String) (now : String) : X402PaymentProof :=
  ⟨"x402", cfg.network, txHash, c.nonce, publicKey, closedAt.getD now⟩

def nonceUsed : X402Error := .error "x402: nonce already used"

/-- The used nonces with their times: the rows of the SQLite table, or the map of the
in-memory store. -/
abbrev NonceStore := List (Entry String ℤ)

def maxNonceTtlMs : ℤ := 24 * 60 * 60 * 1000

def configuredTtlMs (cfg : Config) : ℤ :=
  if 0 < cfg.nonceTtlMs then cfg.nonceTtlMs else maxNonceTtlMs

def pruneNonces (ttlMs now : ℤ) (s : NonceStore) : NonceStore := prune (now - ttlMs) s

theorem configuredTtlMs_eq (cfg : Config) : configuredTtlMs cfg = cfg.nonceTtlMs :=
  if_pos (Int.lt_of_lt_of_le Int.zero_lt_one cfg.ttl_pos)

namespace Sample

def config : Config :=
  ⟨"testnet", "USDC", "GA5ZSEJYB37JRC5AVCIA5MOP4RHTM335X2KGX3IHOJAPP5RE34K4KZVN",
    some "api.example.com", 10, 86400000, by decide, by decide⟩

def platform : Platform where
  isUrl _ := true
  hostname _ := "api.example.com"
  isUuid _ := true
  isDatetime _ := true
  time _ := some 1785542400000
  sha256 _ := "a3a9e1ed9732cab28868127be00f1ce921acaefdd5c3b23a6e9e0072bd9c1a34"
  sha256_hex _ := by decide +kernel
  sha256_length _ := by decide +kernel

def sdk : Sdk where
  isValidEd25519PublicKey _ := true
  newAsset code _ := if code = "" then .error (.error "Asset code is invalid") else .ok ()
  payment _ _ _ := .ok ()
  pathPayment _ _ _ _ _ _ := .ok ()
  numberText _ := ""

def challenge : RawChallenge :=
  ⟨some "https://api.example.com/data", some "1.5000000", some "USDC",
    some "GA5ZSEJYB37JRC5AVCIA5MOP4RHTM335X2KGX3IHOJAPP5RE34K4KZVN",
    some "GBBD47IF6LWK7P7MDEVSCWR7DPUWV3NY3DTQEVFL4NAT4AQH3ZLLFLA5",
    some "550e8400-e29b-41d4-a716-446655440000", some "2026-08-01T00:00:00.000Z"⟩

end Sample

end PayFi.X402.Challenge
