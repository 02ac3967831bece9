import PayFi.Agent.Errors
import PayFi.Library.Objects
import PayFi.Library.StampedCache
import PayFi.Network.Submission
import PayFi.X402.Challenge

namespace PayFi.Tools.Snapshots

open Agent.Errors Library.Machine Library.Numbers Library.Objects Library.StampedCache
open Network.Submission (Issue)

/-- What the tools leave to the language and to the TOML parser. -/
structure Platform where
  toNumber : Value → Number
  toLowerCase : String → String
  parseToml : String → Except String (Object Value)

structure Cached (α : Type) where
  data : α
  expiresAt : ℤ

/-- `cached && cached.expiresAt > now` -/
def fresh? {α : Type} (place : Option (Cached α)) (now : ℤ) : Option α :=
  match place with
  | some cached => if now < cached.expiresAt then some cached.data else none
  | none => none

def Cached.held {α : Type} (ttlMs : ℤ) (c : Cached α) : ℤ × α := (c.expiresAt - ttlMs, c.data)

def typeName : Value → String
  | .undefined => "undefined"
  | .null => "null"
  | .boolean _ => "boolean"
  | .number (some _) => "number"
  | .number none => "nan"
  | .string _ => "string"
  | .bigint => "bigint"
  | .function _ => "function"
  | .array _ => "array"
  | .object _ | .throwing | .cyclic => "object"

def expected (path : List String) (type : String) : Value → List Issue
  | .undefined => [⟨path, "Required"⟩]
  | v => [⟨path, "Expected " ++ type ++ ", received " ++ typeName v⟩]

def field (v : Value) (key : String) : Value :=
  match v with
  | .object entries => (entries.lookup key).getD .undefined
  | _ => .undefined

namespace LedgerInfoTool

structure LedgerInfoResult where
  sequence : Number
  protocolVersion : Number

/-- What `getLatestLedger` answers. -/
structure Response where
  sequence : Value
  protocolVersion : Value

/-- The schema on `rawInput ?? {}`: whether a refresh is forced. -/
def ledgerInfoInputSchema : Value → Except (List Issue) Bool
  | .undefined | .null => .ok false
  | .object entries =>
    match field (.object entries) "forceRefresh" with
    | .undefined => .ok false
    | .boolean b => .ok b
    | v => .error (expected ["forceRefresh"] "boolean" v)
  | v => .error (expected [] "object" v)

def resultOf (pf : Platform) (response : Response) : LedgerInfoResult :=
  ⟨pf.toNumber response.sequence, pf.toNumber response.protocolVersion⟩

/-- The one snapshot there is, and what `execute` and `clearCache` do with it. -/
def operations (ttlMs : ℤ) :
    Operations Unit LedgerInfoResult (Option (Cached LedgerInfoResult)) where
  empty := none
  lookup cache _ forceRefresh now :=
    if forceRefresh then none else fresh? cache now
  store _ _ now data := some ⟨data, now + ttlMs⟩
  clear _ := none

/-- Calls of the tool, and what comes of the requests under way. -/
inductive Event where
  | execute (rawInput : Value) (now : ℤ)
  | response (i : ℕ) (answer : Response)
  | failure (i : ℕ)
  | clearCache

/-- An input that the schema rejects does nothing. -/
def Event.action (pf : Platform) : Event → Option (Action Unit LedgerInfoResult)
  | .execute rawInput now =>
    match ledgerInfoInputSchema rawInput with
    | .ok forceRefresh => some (.call () forceRefresh now)
    | .error _ => none
  | .response i answer => some (.answer i (resultOf pf answer))
  | .failure i => some (.failure i)
  | .clearCache => some .clear

def history (pf : Platform) (ttlMs : ℤ) (events : List Event) :
    List (Entry Unit LedgerInfoResult) :=
  (run (step (operations ttlMs)) (fresh (operations ttlMs))
    (events.filterMap (Event.action pf))).journal

end LedgerInfoTool

namespace StellarTomlTool

abbrev StellarTomlFields := List (String × Value)

def ttlMs (configured : Option ℤ) : ℤ := configured.getD 300000

def stellarTomlInputSchema (rawInput : Value) : Except (List Issue) String :=
  match rawInput with
  | .object entries =>
    match field (.object entries) "domain" with
    | .string s => if s = "" then .error [⟨["domain"], "Domain is required"⟩] else .ok s
    | v => .error (expected ["domain"] "string" v)
  | v => .error (expected [] "object" v)

def domainOf (pf : Platform) (domain : String) : String :=
  String.ofList (X402.Challenge.trim (pf.toLowerCase domain).toList)

def namedFields : List String := ["ACCOUNTS", "CURRENCIES", "DOCUMENTATION", "PRINCIPALS"]

/-- `{ ACCOUNTS: parsed.ACCOUNTS, …, ...parsed }` -/
def fieldsOf (parsed : Object Value) : StellarTomlFields :=
  spread (namedFields.map fun key => (key, (parsed.entries.lookup key).getD .undefined))
    parsed.entries

def operations (ttlMs : ℤ) :
    Operations String StellarTomlFields (String → Option (Cached StellarTomlFields)) where
  empty _ := none
  -- nothing forces this tool to look past its cache
  lookup cache domain forced now := if forced then none else fresh? (cache domain) now
  store cache domain now data := Function.update cache domain (some ⟨data, now + ttlMs⟩)
  clear _ _ := none

inductive Event where
  | fetchToml (rawInput : Value) (now : ℤ)
  | response (i : ℕ) (data : String)
  | failure (i : ℕ)
  | clearCache

/-- A file that does not parse is a failure like any other. -/
def Event.action (pf : Platform) : Event → Option (Action String StellarTomlFields)
  | .fetchToml rawInput now =>
    match stellarTomlInputSchema rawInput with
    | .ok domain => some (.call (domainOf pf domain) false now)
    | .error _ => none
  | .response i data =>
    match pf.parseToml data with
    | .ok parsed => some (.answer i (fieldsOf parsed))
    | .error _ => some (.failure i)
  | .failure i => some (.failure i)
  | .clearCache => some .clear

def history (pf : Platform) (ttlMs : ℤ) (events : List Event) :
    List (Entry String StellarTomlFields) :=
  (run (step (operations ttlMs)) (fresh (operations ttlMs))
    (events.filterMap (Event.action pf))).journal

end StellarTomlTool

variable {pf : Platform} {ttlMs : ℤ}

theorem StellarTomlTool.lookup_fieldsOf (parsed : Object Value) (key : String) :
    ((fieldsOf parsed).lookup key).getD .undefined =
      (parsed.entries.lookup key).getD .undefined := by
  rw [fieldsOf, lookup_spread]
  cases hparsed : parsed.entries.lookup key with
  | some v => rfl
  | none =>
    rw [Option.none_or]
    cases hbase : (namedFields.map fun key =>
      (key, (parsed.entries.lookup key).getD .undefined)).lookup key with
    | none => rfl
    | some v =>
      obtain ⟨k, -, hk⟩ := List.mem_map.mp (mem_of_lookup hbase)
      obtain ⟨rfl, rfl⟩ := Prod.mk.inj hk
      rw [hparsed]
      rfl

/-- A call that the schema accepts. -/
def LedgerInfoTool.Event.called : Event → Option (Unit × Bool × ℤ)
  | .execute rawInput now =>
    (ledgerInfoInputSchema rawInput).toOption.map fun forceRefresh => ((), forceRefresh, now)
  | _ => none

def StellarTomlTool.Event.called (pf : Platform) : Event → Option (String × Bool × ℤ)
  | .fetchToml rawInput now =>
    (stellarTomlInputSchema rawInput).toOption.map fun domain => (domainOf pf domain, false, now)
  | _ => none

/-- The result has the numbers of what the network answered to the request. -/
def LedgerInfoTool.Given (pf : Platform) (events : List Event) (i : ℕ) (v : LedgerInfoResult) :
    Prop :=
  ∃ answer, .response i answer ∈ events ∧ v.sequence = pf.toNumber answer.sequence ∧
    v.protocolVersion = pf.toNumber answer.protocolVersion

/-- Under each name the fields have what the file has there that answered the request. -/
def StellarTomlTool.Given (pf : Platform) (events : List Event) (i : ℕ) (v : StellarTomlFields) :
    Prop :=
  ∃ data parsed, .response i data ∈ events ∧ pf.parseToml data = .ok parsed ∧
    ∀ key, (v.lookup key).getD .undefined = (parsed.entries.lookup key).getD .undefined

theorem LedgerInfoTool.given {events : List Event} {i : ℕ} {v : LedgerInfoResult}
    (h : .answer i v ∈ events.filterMap (Event.action pf)) : Given pf events i v := by
  obtain ⟨e, he, haction⟩ := List.mem_filterMap.mp h
  cases e with
  | execute rawInput now =>
    rw [Event.action] at haction
    split at haction <;> cases haction
  | response j answer =>
    cases haction
    exact ⟨answer, he, rfl, rfl⟩
  | failure | clearCache => cases haction

theorem StellarTomlTool.given {events : List Event} {i : ℕ} {v : StellarTomlFields}
    (h : .answer i v ∈ events.filterMap (Event.action pf)) : Given pf events i v := by
  obtain ⟨e, he, haction⟩ := List.mem_filterMap.mp h
  cases e with
  | fetchToml rawInput now =>
    rw [Event.action] at haction
    split at haction <;> cases haction
  | response j data =>
    rw [Event.action] at haction
    split at haction
    · rename_i parsed hparsed
      cases haction
      exact ⟨data, parsed, he, hparsed, lookup_fieldsOf parsed⟩
    · cases haction
  | failure | clearCache => cases haction

def examplePlatform : Platform where
  toNumber
    | .number (some text) => parseFloat text
    | _ => .nan
  toLowerCase := id
  parseToml text := .ok ⟨[("VERSION", .string text)], by simp⟩

end PayFi.Tools.Snapshots
