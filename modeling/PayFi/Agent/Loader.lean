import PayFi.Library.JsonText
import PayFi.Library.Objects
import PayFi.Library.Results
import PayFi.Library.Validation
import PayFi.Network.Timeouts
import PayFi.Tools.SorobanInvoke
import PayFi.X402.Challenge

namespace PayFi.Agent.Loader

open Library.Numbers Library.JsonText Library.Objects Library.Results Library.Validation
open Spending.Tracker (Network spendingLimitSchema)
open Tools.Payment (jsLength)
open Spending.Guard Tools.SorobanInvoke

/-- What the loader asks of Node, of the SDK and of the secrets manager. A key that the SDK
rejects has no public key. -/
structure Platform where
  toNumber : String → Number
  isUrl : String → Bool
  publicKey : String → Option String
  isPublicKey : String → Bool
  getSecretValue : (region secretId : String) → Except String (Option String)

abbrev Env := String → Option String

/-- What is wrong with a variable: one of zod's own complaints, or one of the schema's. -/
inductive Complaint where
  | required
  | notANumber
  | notAnInteger
  | tooSmall (min : ℕ)
  | tooBig (max : ℕ)
  | notListed
  | custom (message : String)
  deriving DecidableEq

structure Issue where
  path : String
  complaint : Complaint
  deriving DecidableEq

/-- The integers from `min` to `max`, if there is a `max`. -/
def Within (min : ℕ) (max : Option ℕ) : Type := { n : ℕ // min ≤ n ∧ ∀ m ∈ max, n ≤ m }

def isInteger : Number → Bool
  | .finite q => q.den = 1
  | _ => false

/-- What `z.number().int().min(min).max(max)` has against a number. -/
def numberIssues (path : String) (min : ℕ) (max : Option ℕ) (n : Number) : List Issue :=
  if n.isNaN then [⟨path, .notANumber⟩]
  else (if isInteger n then [] else [⟨path, .notAnInteger⟩]) ++
    (if n.lt (.finite min) then [⟨path, .tooSmall min⟩] else []) ++
    match max with
    | none => []
    | some m => if (Number.finite m).lt n then [⟨path, .tooBig m⟩] else []

def toNat : Number → ℕ
  | .finite q => q.num.toNat
  | _ => 0

theorem toNat_eq {n : Number} (h : isInteger n = true) (h0 : n.lt (.finite 0) = false) :
    n = .finite (toNat n) := by
  cases n with
  | nan => cases h
  | infinity negative => cases h
  | finite q =>
    have hden : q.den = 1 := of_decide_eq_true h
    have hq : (q.num : ℚ) = q := Rat.coe_int_num_of_den_eq_one hden
    have hnum : 0 ≤ q.num := Rat.num_nonneg.mpr (not_lt.mp (of_decide_eq_false h0))
    rw [toNat, Number.finite.injEq, ← Int.cast_natCast, Int.toNat_of_nonneg hnum, hq]

theorem finite_toNat {path : String} {min : ℕ} {max : Option ℕ} {n : Number}
    (h : numberIssues path min max n = []) :
    n = .finite (toNat n) ∧ n.lt (.finite min) = false := by
  unfold numberIssues at h
  split at h
  · cases h
  · rw [List.append_eq_nil_iff, List.append_eq_nil_iff] at h
    obtain ⟨⟨hint, hmin⟩, -⟩ := h
    have hinteger : isInteger n = true := by
      by_contra hnot
      rw [if_neg hnot] at hint
      cases hint
    have hge : n.lt (.finite min) = false := by
      by_contra hnot
      rw [if_pos (by simpa using hnot)] at hmin
      cases hmin
    refine ⟨toNat_eq hinteger ?_, hge⟩
    cases n with
    | nan => cases hinteger
    | infinity negative => cases hinteger
    | finite q =>
      rw [Number.lt, decide_eq_false_iff_not, not_lt] at hge ⊢
      exact le_trans (Nat.cast_nonneg min) hge

theorem toNat_within {path : String} {min : ℕ} {max : Option ℕ} {n : Number}
    (h : numberIssues path min max n = []) : min ≤ toNat n ∧ ∀ m ∈ max, toNat n ≤ m := by
  obtain ⟨hn, hge⟩ := finite_toNat h
  rw [hn, Number.lt, decide_eq_false_iff_not, not_lt, Nat.cast_le] at hge
  refine ⟨hge, fun m hm => ?_⟩
  rw [Option.mem_def] at hm
  subst hm
  by_contra hnot
  have hlt : (Number.finite m).lt n = true := by
    rw [hn, Number.lt, decide_eq_true_eq, Nat.cast_lt]
    exact not_le.mp hnot
  rw [numberIssues] at h
  split at h
  · cases h
  · simp at h

variable (p : Platform) (env : Env)

/-- `z.coerce.number()` with its checks, on the text of a variable. -/
def coerced (path : String) (min : ℕ) (max : Option ℕ) (text : String) :
    Checked Issue (Within min max) :=
  let n := p.toNumber text
  if h : numberIssues path min max n = [] then .valid ⟨toNat n, toNat_within h⟩
  else .invalid (numberIssues path min max n)

def intOr (path : String) (min : ℕ) (max : Option ℕ) (default : Within min max) :
    Checked Issue (Within min max) :=
  match env path with
  | none => .valid default
  | some text => coerced p path min max text

def optionalInt (path : String) (min : ℕ) : Checked Issue (Option (Within min none)) :=
  match env path with
  | none => .valid none
  | some text =>
    match coerced p path min none text with
    | .valid n => .valid (some n)
    | .invalid issues => .invalid issues

def checkedText (path : String) (checks : List ((String → Bool) × Complaint)) (text : String) :
    Checked Issue String :=
  let issues := (checks.filter fun c => !c.1 text).map fun c => ⟨path, c.2⟩
  if issues = [] then .valid text else .invalid issues

def requiredText (path : String) (checks : List ((String → Bool) × Complaint)) :
    Checked Issue String :=
  match env path with
  | none => .invalid [⟨path, .required⟩]
  | some text => checkedText path checks text

def optionalText (path : String) (checks : List ((String → Bool) × Complaint)) :
    Checked Issue (Option String) :=
  match env path with
  | none => .valid none
  | some text =>
    match checkedText path checks text with
    | .valid text => .valid (some text)
    | .invalid issues => .invalid issues

def textOr (path default : String) (checks : List ((String → Bool) × Complaint)) :
    Checked Issue String :=
  match env path with
  | none => .valid default
  | some text => checkedText path checks text

def secretKeyMessage : String :=
  "AGENT_SECRET_KEY is not a valid Stellar secret key (must start with S and be 56 chars)"

def isValidStellarPublicKey (value : String) : Bool :=
  value.toList.head? = some 'G' && p.isPublicKey value

def addressChecks (lengthMessage startMessage keyMessage : String) :
    List ((String → Bool) × Complaint) :=
  [(fun text => jsLength text = 56, .custom lengthMessage),
    (fun text => text.toList.head? = some 'G', .custom startMessage),
    (isValidStellarPublicKey p, .custom keyMessage)]

def urlCheck (message : String) : (String → Bool) × Complaint := (p.isUrl, .custom message)

def networkOf : Option String → Checked Issue Network
  | none | some "testnet" => .valid .testnet
  | some "mainnet" => .valid .mainnet
  | some "futurenet" => .valid .futurenet
  | some _ => .invalid [⟨"STELLAR_NETWORK",
    .custom "STELLAR_NETWORK must be one of: testnet | mainnet | futurenet"⟩]

theorem spendingLimitSchema_default : spendingLimitSchema "100" = true := by decide

def spendingLimitOf : Option String → Checked Issue { s : String // spendingLimitSchema s = true }
  | none => .valid ⟨"100", spendingLimitSchema_default⟩
  | some s =>
    if h : spendingLimitSchema s = true then .valid ⟨s, h⟩
    else .invalid [⟨"AGENT_SPENDING_LIMIT", .custom
      "AGENT_SPENDING_LIMIT must be a positive decimal (e.g. '100' or '50.0000000')"⟩]

structure RawEnv where
  network : Network
  horizonUrl : String
  sorobanRpcUrl : String
  agentSecretKey : String
  agentPublicKey : Option String
  agentSecretKeyArn : Option String
  x402AssetCode : String
  x402AssetIssuer : String
  allowedX402Origins : Option String
  agentSpendingLimit : { s : String // spendingLimitSchema s = true }
  dbPath : String
  logLevel : String
  otlpEndpoint : Option String
  spendingWindowMs : Within 100 none
  maxRetries : Within 1 (some 10)
  retryDelayMs : Within 100 none
  accountCacheTtlMs : Within 0 none
  rpcTimeoutMs : Option (Within 100 none)
  tomlCacheTtlMs : Within 0 none
  maxX402PaymentsPerMinute : Within 1 none
  x402NonceTtlMs : Within 1 none
  maxConcurrentTasks : Within 1 none
  queueCapacity : Within 0 none
  maxSorobanFeeStroops : Within 100 none
  healthPort : Within 1 (some 65535)
  contractEventPollMs : Option (Within 100 none)
  webhookUrl : Option String
  webhookSecret : Option String

/-- `EnvSchema.safeParse(process.env)`. -/
def envSchema : Checked Issue RawEnv :=
  (Checked.valid RawEnv.mk)
    |>.apply (networkOf (env "STELLAR_NETWORK"))
    |>.apply (requiredText env "HORIZON_URL" [urlCheck p
      "HORIZON_URL must be a valid URL (e.g. https://horizon-testnet.stellar.org)"])
    |>.apply (requiredText env "SOROBAN_RPC_URL" [urlCheck p
      "SOROBAN_RPC_URL must be a valid URL (e.g. https://soroban-testnet.stellar.org)"])
    |>.apply (requiredText env "AGENT_SECRET_KEY"
      [(fun text => (p.publicKey text).isSome, .custom secretKeyMessage)])
    |>.apply (optionalText env "AGENT_PUBLIC_KEY" (addressChecks p
      "Must be a 56-character Stellar public key (G…)" "Public key must start with G"
      "AGENT_PUBLIC_KEY must be a valid Stellar public key"))
    |>.apply (optionalText env "AGENT_SECRET_KEY_ARN" [])
    |>.apply (textOr env "X402_ASSET_CODE" "USDC"
      [(fun text => 1 ≤ jsLength text, .tooSmall 1), (fun text => jsLength text ≤ 12, .tooBig 12)])
    |>.apply (requiredText env "X402_ASSET_ISSUER" (addressChecks p
      "X402_ASSET_ISSUER must be a 56-character Stellar address"
      "X402_ASSET_ISSUER must start with G"
      "X402_ASSET_ISSUER is not a valid Ed25519 public key"))
    |>.apply (optionalText env "ALLOWED_X402_ORIGINS" [])
    |>.apply (spendingLimitOf (env "AGENT_SPENDING_LIMIT"))
    |>.apply (textOr env "DB_PATH" "./agent.db" [])
    |>.apply (textOr env "LOG_LEVEL" "info"
      [(fun text => ["debug", "info", "warn", "error"].contains text, .notListed)])
    |>.apply (optionalText env "OTLP_ENDPOINT" [urlCheck p "Invalid url"])
    |>.apply (intOr p env "SPENDING_WINDOW_MS" 100 none ⟨86400000, by simp⟩)
    |>.apply (intOr p env "MAX_RETRIES" 1 (some 10) ⟨3, by simp⟩)
    |>.apply (intOr p env "RETRY_DELAY_MS" 100 none ⟨1500, by simp⟩)
    |>.apply (intOr p env "ACCOUNT_CACHE_TTL_MS" 0 none ⟨30000, by simp⟩)
    |>.apply (optionalInt p env "RPC_TIMEOUT_MS" 100)
    |>.apply (intOr p env "TOML_CACHE_TTL_MS" 0 none ⟨300000, by simp⟩)
    |>.apply (intOr p env "MAX_X402_PAYMENTS_PER_MINUTE" 1 none ⟨10, by simp⟩)
    |>.apply (intOr p env "X402_NONCE_TTL_MS" 1 none ⟨86400000, by simp⟩)
    |>.apply (intOr p env "MAX_CONCURRENT_TASKS" 1 none ⟨10, by simp⟩)
    |>.apply (intOr p env "QUEUE_CAPACITY" 0 none ⟨0, by simp⟩)
    |>.apply (intOr p env "MAX_SOROBAN_FEE_STROOPS" 100 none ⟨1000000, by simp⟩)
    |>.apply (intOr p env "HEALTH_PORT" 1 (some 65535) ⟨3000, by simp⟩)
    |>.apply (optionalInt p env "CONTRACT_EVENT_POLL_MS" 100)
    |>.apply (optionalText env "WEBHOOK_URL" [urlCheck p "Invalid url"])
    |>.apply (optionalText env "WEBHOOK_SECRET" [(fun text => 1 ≤ jsLength text, .tooSmall 1)])

/-- The configuration object; the secret is reached by calling `agentKeypair` only. -/
structure AgentConfig where
  network : Network
  horizonUrl : String
  sorobanRpcUrl : String
  dbPath : String
  logLevel : String
  x402AssetCode : String
  x402AssetIssuer : String
  agentSpendingLimit : { s : String // spendingLimitSchema s = true }
  spendingWindowMs : Within 100 none
  maxRetries : Within 1 (some 10)
  retryDelayMs : Within 100 none
  accountCacheTtlMs : Within 0 none
  rpcTimeoutMs : ℕ
  tomlCacheTtlMs : Within 0 none
  maxX402PaymentsPerMinute : Within 1 none
  x402NonceTtlMs : Within 1 none
  maxConcurrentTasks : Within 1 none
  queueCapacity : Within 0 none
  maxSorobanFeeStroops : Within 100 none
  healthPort : Within 1 (some 65535)
  contractEventPollMs : Option (Within 100 none)
  agentPublicKey : String
  allowedX402Origins : Option String
  agentSecretKeyArn : Option String
  otlpEndpoint : Option String
  webhookUrl : Option String
  webhookSecret : Option String
  agentKeypair : Unit → String

/-- Why the process exits with 1. -/
inductive Exit where
  | bothKeys
  | fetchFailed (arn message : String)
  | invalidEnvironment (issues : List Issue)
  | underivable
  | keyMismatch (provided derived : String)
  | overCap (limit : String)

def nonempty (text : Option String) : Option String := text.filter fun text => text ≠ ""

def configOf (raw : RawEnv) (derivedPublicKey : String) : AgentConfig where
  network := raw.network
  horizonUrl := raw.horizonUrl
  sorobanRpcUrl := raw.sorobanRpcUrl
  dbPath := raw.dbPath
  logLevel := raw.logLevel
  x402AssetCode := raw.x402AssetCode
  x402AssetIssuer := raw.x402AssetIssuer
  agentSpendingLimit := raw.agentSpendingLimit
  spendingWindowMs := raw.spendingWindowMs
  maxRetries := raw.maxRetries
  retryDelayMs := raw.retryDelayMs
  accountCacheTtlMs := raw.accountCacheTtlMs
  rpcTimeoutMs := (raw.rpcTimeoutMs.map Subtype.val).getD
    (raw.retryDelayMs.1 * raw.maxRetries.1 * 2)
  tomlCacheTtlMs := raw.tomlCacheTtlMs
  maxX402PaymentsPerMinute := raw.maxX402PaymentsPerMinute
  x402NonceTtlMs := raw.x402NonceTtlMs
  maxConcurrentTasks := raw.maxConcurrentTasks
  queueCapacity := raw.queueCapacity
  maxSorobanFeeStroops := raw.maxSorobanFeeStroops
  healthPort := raw.healthPort
  contractEventPollMs := raw.contractEventPollMs
  agentPublicKey := derivedPublicKey
  allowedX402Origins := nonempty raw.allowedX402Origins
  agentSecretKeyArn := nonempty raw.agentSecretKeyArn
  otlpEndpoint := nonempty raw.otlpEndpoint
  webhookUrl := nonempty raw.webhookUrl
  webhookSecret := nonempty raw.webhookSecret
  agentKeypair := fun _ => raw.agentSecretKey

def parseConfigAndDerive : Except Exit AgentConfig :=
  match envSchema p env with
  | .invalid issues => .error (.invalidEnvironment issues)
  | .valid raw =>
    match p.publicKey raw.agentSecretKey with
    | none => .error .underivable
    | some derivedPublicKey =>
      match (nonempty raw.agentPublicKey).filter fun provided => provided ≠ derivedPublicKey with
      | some provided => .error (.keyMismatch provided derivedPublicKey)
      | none =>
        if raw.network = .mainnet ∧
            (Number.finite 10000).lt (parseFloat raw.agentSpendingLimit.1) = true then
          .error (.overCap raw.agentSpendingLimit.1)
        else .ok (configOf raw derivedPublicKey)

def regionOf (arn : String) : String :=
  match (arn.splitOn ":")[3]? with
  | some region => if region = "" then "us-east-1" else region
  | none => "us-east-1"

def fetchSecretFromArn (arn : String) : Except String String :=
  match p.getSecretValue (regionOf arn) arn with
  | .error message => .error message
  | .ok secretString =>
    match nonempty secretString with
    | some secret => .ok secret
    | none => .error "No SecretString found in secret"

def textOf : Json → Option String
  | .string s => some s
  | _ => none

/-- The key in a secret that may be a JSON object: under its name, or else the first text. -/
def parsedSecret (secret : String) : String :=
  match parse secret.toList with
  | some (.object members) =>
    let json := ofMembers members
    match (json.lookup "AGENT_SECRET_KEY").bind textOf with
    | some candidate => candidate
    | none => (nonempty (json.findSome? fun e => textOf e.2)).getD secret
  | _ => secret

/-- A variable that is there and not empty. -/
def truthy (name : String) : Bool := (nonempty (env name)).isSome

/-- `loadConfig`, with the environment it leaves behind. -/
def loadConfig : Except Exit AgentConfig × Env :=
  if truthy env "AGENT_SECRET_KEY" && truthy env "AGENT_SECRET_KEY_ARN" then
    (.error .bothKeys, env)
  else
    match nonempty (env "AGENT_SECRET_KEY_ARN") with
    | none => (parseConfigAndDerive p env, env)
    | some arn =>
      match fetchSecretFromArn p arn with
      | .error message => (.error (.fetchFailed arn message), env)
      | .ok secret =>
        let env := Function.update env "AGENT_SECRET_KEY" (some (parsedSecret secret))
        (parseConfigAndDerive p env, env)

/-- How the process starts: with a configuration, with an error at every access to it, or not. -/
inductive Startup where
  | ready (cfg : AgentConfig)
  | failed (message : String)
  | exited (e : Exit)

def startupOf : Except Exit AgentConfig → Startup
  | .ok cfg => .ready cfg
  | .error e => .exited e

/-- The module `config` as it is loaded, up to what `configPromise` resolves to. -/
def configPromise : Startup × Env :=
  if truthy env "AGENT_SECRET_KEY" && truthy env "AGENT_SECRET_KEY_ARN" then
    (.failed "Cannot specify both AGENT_SECRET_KEY and AGENT_SECRET_KEY_ARN.", env)
  else if truthy env "AGENT_SECRET_KEY" then (startupOf (parseConfigAndDerive p env), env)
  else ((startupOf (loadConfig p env).1), (loadConfig p env).2)

def AgentConfig.spending (cfg : AgentConfig) : Spending.Tracker.Config where
  network := cfg.network
  spendingLimit := cfg.agentSpendingLimit.1
  windowMs := cfg.spendingWindowMs.1
  assetCode := cfg.x402AssetCode
  limit_valid := cfg.agentSpendingLimit.2
  window_valid := Int.ofNat_le.mpr cfg.spendingWindowMs.2.1

def AgentConfig.retries (cfg : AgentConfig) : Network.Timeouts.RawEnv where
  maxRetries := cfg.maxRetries.1
  retryDelayMs := cfg.retryDelayMs.1
  rpcTimeoutMs := none
  maxRetries_pos := cfg.maxRetries.2.1
  maxRetries_le := cfg.maxRetries.2.2 10 rfl
  retryDelayMs_ge := cfg.retryDelayMs.2.1
  rpcTimeoutMs_ge := fun _ hms => absurd hms (Option.not_mem_none _)

def AgentConfig.visible (cfg : AgentConfig) : AgentConfig :=
  { cfg with agentKeypair := fun _ => "" }

def Startup.visible : Startup → Startup
  | .ready cfg => .ready cfg.visible
  | .failed message => .failed message
  | .exited e => .exited e

/-- The RPC timeout is that of its variable, and the one derived from the retries without it. -/
def Timeout (p : Platform) (env : Env) (cfg : AgentConfig) : Prop :=
  match env "RPC_TIMEOUT_MS" with
  | some text => p.toNumber text = .finite cfg.rpcTimeoutMs
  | none => cfg.rpcTimeoutMs = Network.Timeouts.rpcTimeoutMs cfg.retries

/-- What holds of a configuration, and where its key is from. -/
structure Loaded (p : Platform) (env after : Env) (cfg : AgentConfig) : Prop where
  key : p.publicKey (cfg.agentKeypair ()) = some cfg.agentPublicKey
  provided : ∀ provided ∈ env "AGENT_PUBLIC_KEY", provided = cfg.agentPublicKey
  origin : nonempty (env "AGENT_SECRET_KEY_ARN") = none ∧
      env "AGENT_SECRET_KEY" = some (cfg.agentKeypair ()) ∧ after = env ∨
    ∃ arn secret, nonempty (env "AGENT_SECRET_KEY_ARN") = some arn ∧
      truthy env "AGENT_SECRET_KEY" = false ∧ fetchSecretFromArn p arn = .ok secret ∧
      parsedSecret secret = cfg.agentKeypair () ∧
      after = Function.update env "AGENT_SECRET_KEY" (some (cfg.agentKeypair ()))
  capped : cfg.network = .mainnet →
    (Number.finite 10000).lt (parseFloat cfg.agentSpendingLimit.1) = false
  timeout : Timeout p env cfg

/-- Nothing but the key differs, and that only as long as its address is the same. -/
structure Alike (p : Platform) (env other : Env) : Prop where
  others : ∀ name, name ≠ "AGENT_SECRET_KEY" → env name = other name
  publicKey : (env "AGENT_SECRET_KEY").map p.publicKey = (other "AGENT_SECRET_KEY").map p.publicKey

/-- The same platform with other secrets kept for it. -/
def Platform.keeping (p : Platform) (g : String → String → Except String (Option String)) :
    Platform :=
  { p with getSecretValue := g }

variable {p env} {after other : Env} {raw : RawEnv} {cfg : AgentConfig}

theorem checkedText_eq_valid {path text text' : String}
    {checks : List ((String → Bool) × Complaint)}
    (h : checkedText path checks text = .valid text') : text' = text ∧ ∀ c ∈ checks, c.1 text := by
  simp only [checkedText] at h
  split at h
  · rename_i hnone
    cases h
    rw [List.map_eq_nil_iff, List.filter_eq_nil_iff] at hnone
    refine ⟨rfl, fun c hc => ?_⟩
    simpa using hnone c hc
  · cases h

theorem optionalInt_eq_valid {path : String} {min : ℕ} {n : Option (Within min none)}
    (h : optionalInt p env path min = .valid n) :
    (env path).map p.toNumber = n.map fun n => Number.finite n.1 := by
  unfold optionalInt at h
  split at h
  · rename_i hnone
    cases h
    rw [hnone]
    rfl
  · rename_i text htext
    unfold coerced at h
    dsimp only at h
    split at h
    · rename_i n' hvalid
      split at hvalid
      · rename_i hissues
        cases h
        cases hvalid
        rw [htext]
        exact congrArg some (finite_toNat hissues).1
      · cases hvalid
    · cases h

theorem envSchema_keys (h : envSchema p env = .valid raw) :
    env "AGENT_SECRET_KEY" = some raw.agentSecretKey ∧
      (env "AGENT_PUBLIC_KEY" = raw.agentPublicKey ∧ raw.agentPublicKey ≠ some "") ∧
      (env "RPC_TIMEOUT_MS").map p.toNumber =
        raw.rpcTimeoutMs.map fun n => Number.finite n.1 := by
  rw [envSchema] at h
  -- one field after the other, the last one first
  iterate 28
    obtain ⟨_, _, hrest, _, heq⟩ := apply_eq_valid.mp h
    clear h
    subst heq
    have h := hrest
    clear hrest
  cases h
  have hsecret := ‹requiredText env "AGENT_SECRET_KEY" _ = .valid _›
  have hpublic := ‹optionalText env "AGENT_PUBLIC_KEY" _ = .valid _›
  have htimeout := ‹optionalInt p env "RPC_TIMEOUT_MS" 100 = .valid _›
  refine ⟨?_, ?_, optionalInt_eq_valid htimeout⟩
  · unfold requiredText at hsecret
    split at hsecret
    · cases hsecret
    · rename_i text htext
      rw [htext, (checkedText_eq_valid hsecret).1]
  · unfold optionalText at hpublic
    split at hpublic
    · rename_i hnone
      cases hpublic
      exact ⟨hnone, (Option.some_ne_none "").symm⟩
    · rename_i text htext
      split at hpublic
      · rename_i text' hchecked
        obtain ⟨rfl, hchecks⟩ := checkedText_eq_valid hchecked
        cases hpublic
        refine ⟨htext, fun hempty => ?_⟩
        -- no address is empty
        have hlength := hchecks _ List.mem_cons_self
        rw [Option.some.inj hempty] at hlength
        exact absurd hlength (by decide)
      · cases hpublic

theorem parseConfigAndDerive_ok (h : parseConfigAndDerive p env = .ok cfg) :
    ∃ raw derived, envSchema p env = .valid raw ∧ p.publicKey raw.agentSecretKey = some derived ∧
      (∀ provided ∈ nonempty raw.agentPublicKey, provided = derived) ∧
      (raw.network = .mainnet →
        (Number.finite 10000).lt (parseFloat raw.agentSpendingLimit.1) = false) ∧
      cfg = configOf raw derived := by
  unfold parseConfigAndDerive at h
  split at h
  · cases h
  · rename_i raw hraw
    split at h
    · cases h
    · rename_i derived hderived
      split at h
      · cases h
      · rename_i hprovided
        split at h
        · cases h
        · rename_i hcap
          cases h
          refine ⟨raw, derived, hraw, hderived, fun provided hmem => ?_, fun hnetwork => ?_, rfl⟩
          · rw [Option.filter_eq_none_iff] at hprovided
            simpa using hprovided provided hmem
          · by_contra hlt
            exact hcap ⟨hnetwork, by simpa using hlt⟩

theorem nonempty_eq_some {text : Option String} {t : String} :
    nonempty text = some t ↔ text = some t ∧ t ≠ "" := by
  cases text with
  | none => simp [nonempty]
  | some t' =>
    simp only [nonempty, Option.filter_eq_some_iff, Option.some.injEq, decide_eq_true_eq]

theorem truthy_eq_false {name : String} : truthy env name = false ↔ nonempty (env name) = none := by
  rw [truthy, Option.isSome_eq_false_iff, Option.isNone_iff_eq_none]

theorem parseConfigAndDerive_loaded (h : parseConfigAndDerive p env = .ok cfg) :
    env "AGENT_SECRET_KEY" = some (cfg.agentKeypair ()) ∧
      p.publicKey (cfg.agentKeypair ()) = some cfg.agentPublicKey ∧
      (∀ provided ∈ env "AGENT_PUBLIC_KEY", provided = cfg.agentPublicKey) ∧
      (cfg.network = .mainnet →
        (Number.finite 10000).lt (parseFloat cfg.agentSpendingLimit.1) = false) ∧
      Timeout p env cfg := by
  obtain ⟨raw, derived, hraw, hderived, hprovided, hcap, rfl⟩ := parseConfigAndDerive_ok h
  obtain ⟨hsecret, ⟨hpublic, hempty⟩, htimeout⟩ := envSchema_keys hraw
  refine ⟨hsecret, hderived, fun provided hmem => ?_, hcap, ?_⟩
  · rw [hpublic] at hmem
    refine hprovided provided (nonempty_eq_some.mpr ⟨hmem, fun he => ?_⟩)
    rw [hmem, he] at hempty
    exact hempty rfl
  · rw [Timeout, configOf]
    cases htext : env "RPC_TIMEOUT_MS" with
    | none =>
      rw [htext, Option.map_none, eq_comm, Option.map_eq_none_iff] at htimeout
      rw [htimeout]
      rfl
    | some text =>
      rw [htext, Option.map_some, eq_comm, Option.map_eq_some_iff] at htimeout
      obtain ⟨n, hn, heq⟩ := htimeout
      rw [hn]
      exact heq.symm

theorem loadConfig_loaded (h : loadConfig p env = (.ok cfg, after)) :
    Loaded p env after cfg := by
  unfold loadConfig at h
  split at h
  · cases h
  · rename_i hboth
    split at h
    · rename_i harn
      obtain ⟨hcfg, rfl⟩ := Prod.mk.inj h
      obtain ⟨hsecret, hkey, hprovided, hcap, htimeout⟩ := parseConfigAndDerive_loaded hcfg
      exact ⟨hkey, hprovided, .inl ⟨harn, hsecret, rfl⟩, hcap, htimeout⟩
    · rename_i arn harn
      split at h
      · cases h
      · rename_i secret hsecret
        obtain ⟨hcfg, rfl⟩ := Prod.mk.inj h
        obtain ⟨hfetched, hkey, hprovided, hcap, htimeout⟩ := parseConfigAndDerive_loaded hcfg
        rw [Function.update_self, Option.some.injEq] at hfetched
        rw [Function.update_of_ne (by decide)] at hprovided
        rw [Timeout, Function.update_of_ne (by decide)] at htimeout
        have htruthy : truthy env "AGENT_SECRET_KEY_ARN" = true := by
          rw [truthy, harn]
          rfl
        rw [htruthy, Bool.and_true, Bool.not_eq_true] at hboth
        refine ⟨hkey, hprovided, .inr ⟨arn, secret, harn, hboth, hsecret, hfetched, ?_⟩, hcap,
          htimeout⟩
        rw [hfetched]

theorem eq_ok_of_startupOf {r : Except Exit AgentConfig} (h : startupOf r = .ready cfg) :
    r = .ok cfg := by
  cases r with
  | error e => cases h
  | ok cfg' =>
    cases h
    rfl

theorem configured_of (h : configPromise p env = (.ready cfg, after)) :
    Loaded p env after cfg := by
  unfold configPromise at h
  split at h
  · cases h
  · rename_i hboth
    split at h
    · rename_i hsecret
      obtain ⟨hcfg, rfl⟩ := Prod.mk.inj h
      have harn : truthy env "AGENT_SECRET_KEY_ARN" = false := by simpa [hsecret] using hboth
      obtain ⟨hkey, hpublic, hprovided, hcap, htimeout⟩ :=
        parseConfigAndDerive_loaded (eq_ok_of_startupOf hcfg)
      exact ⟨hpublic, hprovided, .inl ⟨truthy_eq_false.mp harn, hkey, rfl⟩, hcap, htimeout⟩
    · obtain ⟨hcfg, rfl⟩ := Prod.mk.inj h
      exact loadConfig_loaded (Prod.ext (eq_ok_of_startupOf hcfg) rfl)

/-- Whatever the process starts with was checked and has one source, and with a secret kept
elsewhere it can be loaded once only. -/
theorem configured (hempty : p.publicKey "" = none)
    (h : configPromise p env = (.ready cfg, after)) :
    Loaded p env after cfg ∧ loadConfig p after =
      (if truthy env "AGENT_SECRET_KEY_ARN" then .error .bothKeys else .ok cfg, after) := by
  have hloaded := configured_of h
  refine ⟨hloaded, ?_⟩
  obtain ⟨harn, -, henv⟩ | ⟨arn, secret, harn, hsecret, -, -, rfl⟩ := hloaded.origin
  · have hfalse := truthy_eq_false.mpr harn
    rw [hfalse, if_neg Bool.false_ne_true]
    have hload : loadConfig p env = (parseConfigAndDerive p env, env) := by
      rw [loadConfig, hfalse, Bool.and_false, if_neg Bool.false_ne_true, harn]
    rw [henv, hload]
    rw [configPromise, hfalse, Bool.and_false, if_neg Bool.false_ne_true, hload, ite_self] at h
    rw [eq_ok_of_startupOf (Prod.mk.inj h).1]
  · have htruthy : truthy env "AGENT_SECRET_KEY_ARN" = true := by
      rw [truthy, harn]
      rfl
    have hkey : cfg.agentKeypair () ≠ "" := by
      intro hkey
      have hpublic := hloaded.key
      rw [hkey, hempty] at hpublic
      cases hpublic
    rw [htruthy, if_pos rfl, loadConfig, if_pos]
    rw [Bool.and_eq_true]
    refine ⟨?_, ?_⟩
    · rw [truthy, Function.update_self, nonempty_eq_some.mpr ⟨rfl, hkey⟩]
      rfl
    · rw [truthy, Function.update_of_ne (by decide)]
      exact htruthy

def exampleAddress : String := "GAAAAAAAAAAAAAAAAAAAAAAAAAAAAAAAAAAAAAAAAAAAAAAAAAAAAAAA"

def examplePlatform : Platform where
  toNumber := parseFloat
  isUrl := fun _ => true
  publicKey := fun secret => if secret = "S" then some exampleAddress else none
  isPublicKey := fun key => key = exampleAddress
  getSecretValue := fun _ _ => .ok (some "S")

def exampleEnv (secret arn : Option String) : Env := fun name =>
  if name = "AGENT_SECRET_KEY" then secret
  else if name = "AGENT_SECRET_KEY_ARN" then arn
  else if name = "HORIZON_URL" then some "https://horizon-testnet.stellar.org"
  else if name = "SOROBAN_RPC_URL" then some "https://soroban-testnet.stellar.org"
  else if name = "X402_ASSET_ISSUER" then some exampleAddress
  else none

theorem configured_kept_elsewhere :
    ∃ cfg after, Loaded examplePlatform (exampleEnv none (some "arn")) after cfg ∧
      loadConfig examplePlatform after = (.error .bothKeys, after) :=
  ⟨_, _, @configured examplePlatform (exampleEnv none (some "arn")) _ _ rfl rfl⟩

theorem secretKey_alike (h : Alike p env other) :
    Related (fun a b => p.publicKey a = p.publicKey b)
      (requiredText env "AGENT_SECRET_KEY" [(fun text => (p.publicKey text).isSome,
        .custom secretKeyMessage)])
      (requiredText other "AGENT_SECRET_KEY" [(fun text => (p.publicKey text).isSome,
        .custom secretKeyMessage)]) := by
  have hpublic := h.publicKey
  unfold requiredText
  cases hsecret : env "AGENT_SECRET_KEY" with
  | none =>
    rw [hsecret, Option.map_none, eq_comm, Option.map_eq_none_iff] at hpublic
    rw [hpublic]
    exact .invalid _
  | some a =>
    cases hsecret' : other "AGENT_SECRET_KEY" with
    | none =>
      rw [hsecret, hsecret'] at hpublic
      cases hpublic
    | some b =>
      rw [hsecret, hsecret', Option.map_some, Option.map_some, Option.some.injEq] at hpublic
      cases hb : p.publicKey b with
      | none =>
        simp only [checkedText, hpublic, hb, List.filter_cons, List.filter_nil]
        exact .invalid _
      | some address =>
        simp only [checkedText, hpublic, hb, List.filter_cons, List.filter_nil]
        exact .valid hpublic

theorem envSchema_alike (h : Alike p env other) :
    Related (fun raw raw' => raw' = { raw with agentSecretKey := raw'.agentSecretKey } ∧
      p.publicKey raw.agentSecretKey = p.publicKey raw'.agentSecretKey)
      (envSchema p env) (envSchema p other) := by
  have hkey := secretKey_alike h
  simp (disch := decide) only [envSchema, intOr, optionalInt, optionalText, textOr,
    requiredText, h.others] at hkey ⊢
  iterate 24 refine Related.apply ?_ (Related.refl (r := Eq) (fun _ => rfl) _)
  refine Related.apply ?_ hkey
  iterate 3 refine Related.apply ?_ (Related.refl (r := Eq) (fun _ => rfl) _)
  refine .valid ?_
  rintro _ _ rfl _ _ rfl _ _ rfl a b hab
  iterate 24 rintro _ _ rfl
  exact ⟨rfl, hab⟩

theorem parseConfigAndDerive_alike (h : Alike p env other) :
    (parseConfigAndDerive p env).map AgentConfig.visible =
      (parseConfigAndDerive p other).map AgentConfig.visible := by
  unfold parseConfigAndDerive
  have hschema := envSchema_alike h
  generalize envSchema p env = x at hschema ⊢
  generalize envSchema p other = y at hschema ⊢
  cases hschema with
  | invalid issues => rfl
  | valid hraw =>
    obtain ⟨hraw, hkey⟩ := hraw
    simp only [hkey]
    cases hderived : p.publicKey _ with
    | none => rfl
    | some derived =>
      rw [hraw]
      dsimp only
      split
      · rfl
      · split <;> rfl

theorem configPromise_alike {r r' : Except Exit AgentConfig}
    (h : r.map AgentConfig.visible = r'.map AgentConfig.visible) :
    (startupOf r).visible = (startupOf r').visible := by
  cases r with
  | error e =>
    cases r' with
    | error e' => exact congrArg Startup.exited (Except.error.inj h)
    | ok cfg' => cases h
  | ok cfg =>
    cases r' with
    | error e' => cases h
    | ok cfg' => exact congrArg Startup.ready (Except.ok.inj h)

theorem key_unseen (h : Alike p env other)
    (htruthy : truthy env "AGENT_SECRET_KEY" = truthy other "AGENT_SECRET_KEY")
    (g : String → String → Except String (Option String))
    (hsecrets : ∀ arn, (fetchSecretFromArn p arn).map (p.publicKey ∘ parsedSecret) =
      (fetchSecretFromArn (p.keeping g) arn).map (p.publicKey ∘ parsedSecret)) :
    (configPromise p env).1.visible = (configPromise (p.keeping g) other).1.visible := by
  have harn := h.others "AGENT_SECRET_KEY_ARN" (by decide)
  have htruthyArn : truthy env "AGENT_SECRET_KEY_ARN" = truthy other "AGENT_SECRET_KEY_ARN" := by
    rw [truthy, truthy, harn]
  simp only [configPromise, loadConfig, htruthy, htruthyArn, harn]
  split
  · rfl
  · split
    · exact configPromise_alike (parseConfigAndDerive_alike h)
    · cases nonempty (other "AGENT_SECRET_KEY_ARN") with
      | none => exact configPromise_alike (parseConfigAndDerive_alike h)
      | some arn =>
        obtain ⟨message, hfetched, hfetched'⟩ | ⟨secret, secret', hfetched, hfetched', hpublic⟩ :=
          map_eq_map (hsecrets arn)
        · simp only [hfetched, hfetched']
        · simp only [hfetched, hfetched']
          refine configPromise_alike (parseConfigAndDerive_alike ⟨fun name hname => ?_, ?_⟩)
          · rw [Function.update_of_ne hname, Function.update_of_ne hname, h.others name hname]
          · rw [Function.update_self, Function.update_self]
            exact congrArg some hpublic

theorem key_unseen_invalid :
    (configPromise examplePlatform (exampleEnv (some "X") none)).1.visible =
      (configPromise examplePlatform (exampleEnv (some "Y") none)).1.visible := by
  refine key_unseen ⟨fun name hname => ?_, rfl⟩ rfl examplePlatform.getSecretValue fun _ => rfl
  simp only [exampleEnv, if_neg hname]

theorem cap_lt_of_limit_lt {limit n : Number}
    (hcap : (Number.finite 10000).lt limit = false) (hlimit : limit.isNaN = false)
    (h : limit.lt n = false) : (Number.finite 10000).lt n = false := by
  cases limit with
  | nan => cases hlimit
  | infinity negative =>
    cases negative with
    | true => cases n <;> simp_all [Number.lt]
    | false => cases hcap
  | finite l =>
    cases n with
    | nan => rfl
    | infinity negative =>
      cases negative with
      | true => rfl
      | false => cases h
    | finite q =>
      simp only [Number.lt, decide_eq_false_iff_not, not_lt] at hcap h ⊢
      exact h.trans hcap

/-- The same settings, where no network has a cap of its own. -/
def uncapped (cfg : Spending.Tracker.Config) : Spending.Tracker.Config :=
  { cfg with network := .testnet }

def CapRedundant (cfg : Spending.Tracker.Config) : Prop :=
  ∀ n : Number, (parseFloat cfg.spendingLimit).lt n = false →
    (cfg.network == .mainnet && mainnetSpendingCap.lt n) = false

theorem capRedundant_spending (h : Loaded p env after cfg) : CapRedundant cfg.spending := by
  intro n hn
  have hspending : cfg.spending.network = cfg.network := rfl
  by_cases hnetwork : cfg.network = .mainnet
  · have hcap := cap_lt_of_limit_lt (h.capped hnetwork) (limit_isNaN cfg.spending) hn
    rw [mainnetSpendingCap, hcap, Bool.and_false]
  · rw [hspending, beq_eq_false_iff_ne.mpr hnetwork, Bool.false_and]

theorem capRedundant_uncapped (cfg : Spending.Tracker.Config) : CapRedundant (uncapped cfg) :=
  fun _ _ => rfl

theorem record_uncapped (cfg : Spending.Tracker.Config) (s : Spending.Tracker.State) (a : String)
    (now now' : ℤ) :
    Spending.Tracker.record (uncapped cfg) s a now now' =
      Spending.Tracker.record cfg s a now now' := rfl

section Guards

variable {cfg : Spending.Tracker.Config} (h : CapRedundant cfg) (s : Spending.Tracker.State)
  (now now' : ℤ)
include h

theorem not_over_cap {n : Number}
    (hn : ¬ (!n.isNaN && (parseFloat cfg.spendingLimit).lt n) = true) :
    ¬ (!n.isNaN && cfg.network == .mainnet && mainnetSpendingCap.lt n) = true := by
  cases hnan : n.isNaN with
  | true => simp
  | false =>
    rw [hnan, Bool.not_false, Bool.true_and, Bool.not_eq_true] at hn
    rw [Bool.not_false, Bool.true_and, h n hn]
    exact Bool.false_ne_true

theorem assertWithinSpendingLimit_of_redundant (a : String) :
    assertWithinSpendingLimit cfg s (some a) now now' =
      if !(parseFloat a).isNaN && (parseFloat cfg.spendingLimit).lt (parseFloat a) then
        (.error (.amount ("Payment amount " ++ a ++ " " ++ cfg.assetCode ++ " exceeds " ++
          "AGENT_SPENDING_LIMIT of " ++ cfg.spendingLimit)), s)
      else match Spending.Tracker.record cfg s a now now' with
        | (.ok (), s) => (.ok (), s)
        | (.error e, s) => (.error (.cumulative e), s) := by
  simp only [assertWithinSpendingLimit, assertWithinSpendingLimitIn,
    Library.Doubles.Arithmetic.parseFloat_exact, Spending.Tracker.recordIn_exact]
  split
  · rfl
  · rename_i hl
    exact if_neg (not_over_cap h hl)

theorem assertSac_of_redundant {ScVal : Type} (scValToNative : ScVal → Option Native)
    (agentAddress : String) (events : List (DiagnosticEvent ScVal)) (record : Bool) :
    assertSacTransfersWithinSpendingLimit scValToNative cfg agentAddress s events record now now' =
      let totalRaw := extractSacTransferTotal scValToNative events agentAddress
      let a := sacRawToDecimal totalRaw
      if totalRaw ≤ 0 then (.ok (), s)
      else if !(parseFloat a).isNaN && (parseFloat cfg.spendingLimit).lt (parseFloat a) then
        (.error (.amount ("Contract invocation transfers " ++ a ++ " " ++ cfg.assetCode ++
          " exceeds " ++ "AGENT_SPENDING_LIMIT of " ++ cfg.spendingLimit)), s)
      else if record then
        match Spending.Tracker.record cfg s a now now' with
        | (.ok (), s) => (.ok (), s)
        | (.error e, s) => (.error (.cumulative e), s)
      else (.ok (), s) := by
  simp only [assertSacTransfersWithinSpendingLimit, assertSacTransfersWithinSpendingLimitIn,
    Library.Doubles.Arithmetic.parseFloat_exact, Spending.Tracker.recordIn_exact]
  rw [limit_isNaN, Bool.not_false, Bool.and_true]
  split
  · rfl
  · split
    · rfl
    · rename_i hl
      exact if_neg (not_over_cap h hl)

end Guards

/-- Once a configuration is loaded, no guard comes to the cap of the network. -/
theorem guards_uncapped (h : configPromise p env = (.ready cfg, after)) {ScVal : Type}
    (scValToNative : ScVal → Option Native) (s : Spending.Tracker.State) (amount : Option String)
    (agentAddress : String) (events : List (DiagnosticEvent ScVal)) (record : Bool)
    (now now' : ℤ) :
    assertWithinSpendingLimit cfg.spending s amount now now' =
        assertWithinSpendingLimit (uncapped cfg.spending) s amount now now' ∧
      assertSacTransfersWithinSpendingLimit scValToNative cfg.spending agentAddress s events record
          now now' =
        assertSacTransfersWithinSpendingLimit scValToNative (uncapped cfg.spending) agentAddress s
          events record now now' := by
  have hcap := capRedundant_spending (configured_of h)
  have huncapped := capRedundant_uncapped cfg.spending
  refine ⟨?_, ?_⟩
  · cases amount with
    | none => rfl
    | some a =>
      have hself := assertWithinSpendingLimit_of_redundant huncapped s now now' a
      rw [record_uncapped] at hself
      exact (assertWithinSpendingLimit_of_redundant hcap s now now' a).trans hself.symm
  · have hself := assertSac_of_redundant huncapped s now now' scValToNative agentAddress events
      record
    simp only [record_uncapped] at hself
    exact (assertSac_of_redundant hcap s now now' scValToNative agentAddress events record).trans
      hself.symm

/-- Mainnet, with a limit of its own below the cap. -/
def mainnetEnv : Env := fun name =>
  if name = "STELLAR_NETWORK" then some "mainnet"
  else if name = "AGENT_SPENDING_LIMIT" then some "9000"
  else exampleEnv (some "S") none name

def Startup.network : Startup → Option Network
  | .ready cfg => some cfg.network
  | _ => none

theorem mainnetEnv_ready : ∃ cfg after,
    configPromise examplePlatform mainnetEnv = (.ready cfg, after) ∧ cfg.network = .mainnet := by
  have hnetwork : (configPromise examplePlatform mainnetEnv).1.network = some .mainnet := by
    decide +kernel
  generalize configPromise examplePlatform mainnetEnv = loaded at hnetwork ⊢
  obtain ⟨startup, after⟩ := loaded
  cases startup with
  | ready cfg => exact ⟨cfg, after, rfl, Option.some.inj hnetwork⟩
  | _ => cases hnetwork

/-- A payment above the cap, on mainnet. -/
theorem guards_uncapped_mainnet :
    ∃ cfg after, configPromise examplePlatform mainnetEnv = (.ready cfg, after) ∧
      cfg.spending.network = .mainnet ∧
      assertWithinSpendingLimit cfg.spending ⟨[], []⟩ (some "10001") 0 0 =
        assertWithinSpendingLimit (uncapped cfg.spending) ⟨[], []⟩ (some "10001") 0 0 := by
  obtain ⟨cfg, after, hready, hnetwork⟩ := mainnetEnv_ready
  exact ⟨cfg, after, hready, hnetwork, (guards_uncapped hready (fun _ : Unit => none) ⟨[], []⟩
    (some "10001") "" [] true 0 0).1⟩

end PayFi.Agent.Loader
