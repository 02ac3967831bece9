import PayFi.Agent.Payload
import PayFi.Library.Base64
import PayFi.Library.Bytes
import PayFi.Network.AccountCache
import PayFi.Tools.Rebuilding

namespace PayFi.Tools.AccountEntries

open Agent.Payload (trim)
open Library.Base64 Library.Bytes Library.Numbers Network.AccountCache Network.Submission Payment
open Rebuilding

structure Balance where
  assetType : String
  assetCode : Option String
  assetIssuer : Option String
  balance : String
  deriving DecidableEq

/-- What an account has, but for its sequence number. -/
structure Settings where
  dataAttr : List (String × String)
  inflationDestination : Option String
  balances : List Balance
  deriving DecidableEq

structure Account extends Settings where
  sequence : ℤ
  deriving DecidableEq

inductive TrustChange where
  | add (limit : Option String)
  | remove
  deriving DecidableEq

def TrustChange.limit : TrustChange → Option String
  | .add limit => limit.filter (· ≠ "")
  | .remove => some "0"

inductive Operation where
  | manageData (name : String) (value : Option String)
  | setOptions (inflationDest : String)
  | changeTrust (assetCode assetIssuer : String) (change : TrustChange)
  deriving DecidableEq

def rawBase64 (value : String) : String := String.ofList (encode (utf8Bytes value))

/-- The tools with their key, and what they take from the SDK, from Node and from the ledger: the
operations that are refused, how bytes that are no UTF-8 are printed, numbers in texts, and what a
limit makes of the balances. -/
structure Setup where
  publicKey : String
  publicKey_bare : trim publicKey = publicKey
  ttl : ℕ
  retries : ℕ
  isValidEd25519PublicKey : String → Bool
  newAsset : String → String → Except Fault Unit
  checkOperation : Operation → Except Fault Unit
  lossyText : List UInt8 → String
  toNumber : String → Number
  changeTrust : List Balance → String → String → Option String → List Balance

variable (su : Setup)

def Settings.apply (s : Settings) : Operation → Settings
  | .manageData name value =>
    { s with dataAttr := s.dataAttr.filter (fun e => e.1 ≠ name) ++
        (value.map fun v => (name, rawBase64 v)).toList }
  | .setOptions inflationDest => { s with inflationDestination := some inflationDest }
  | .changeTrust assetCode assetIssuer change =>
    { s with balances := su.changeTrust s.balances assetCode assetIssuer change.limit }

def Account.apply (a : Account) (operation : Operation) : Account :=
  ⟨a.toSettings.apply su operation, a.sequence⟩

def nameIssues : Option String → List Issue
  | none => [⟨["name"], "Required"⟩]
  | some s => ensure (1 ≤ jsLength s) ["name"] "String must contain at least 1 character(s)" ++
      ensure (jsLength s ≤ 64) ["name"] "Data name must be <= 64 bytes"

def valueIssues : Option String → List Issue
  | none => [⟨["value"], "Required"⟩]
  | some s => ensure (jsLength s ≤ 64) ["value"] "Data value must be <= 64 bytes"

def accountIdIssues : Option String → List Issue
  | none => []
  | some k => ensure (jsLength k = 56) ["accountId"] "Invalid Stellar public key" ++
      ensure (su.isValidEd25519PublicKey k) ["accountId"] "Invalid Stellar public key"

structure RawDataEntry where
  action : Option String
  name : Option String
  value : Option String
  accountId : Option String

inductive DataEntryInput where
  | set (name value : String)
  | delete (name : String)
  | get (name : String) (accountId : Option String)

def dataEntryInputSchema (raw : RawDataEntry) : Except (List Issue) DataEntryInput :=
  match raw.action with
  | some "set" =>
    match nameIssues raw.name ++ valueIssues raw.value, raw.name, raw.value with
    | [], some name, some value => .ok (.set name value)
    | issues, _, _ => .error issues
  | some "delete" =>
    match nameIssues raw.name, raw.name with
    | [], some name => .ok (.delete name)
    | issues, _ => .error issues
  | some "get" =>
    match nameIssues raw.name ++ accountIdIssues su raw.accountId, raw.name with
    | [], some name => .ok (.get name raw.accountId)
    | issues, _ => .error issues
  | _ => .error [⟨["action"], "Invalid discriminator value. Expected 'set' | 'delete' | 'get'"⟩]

structure RawInflation where
  action : Option String
  inflationDestination : Option String
  accountId : Option String

inductive InflationInput where
  | set (inflationDestination : String)
  | get (accountId : Option String)

def inflationDestinationIssues : Option String → List Issue
  | none => [⟨["inflationDestination"], "Required"⟩]
  | some k =>
    ensure (jsLength k = 56) ["inflationDestination"] "Invalid inflation destination address" ++
      ensure (su.isValidEd25519PublicKey k) ["inflationDestination"]
        "Inflation destination must be a valid Stellar public key (G...)"

def inflationInputSchema (raw : RawInflation) : Except (List Issue) InflationInput :=
  match raw.action with
  | some "set" =>
    match inflationDestinationIssues su raw.inflationDestination, raw.inflationDestination with
    | [], some k => .ok (.set k)
    | issues, _ => .error issues
  | some "get" =>
    match accountIdIssues su raw.accountId with
    | [] => .ok (.get raw.accountId)
    | issues => .error issues
  | _ => .error [⟨["action"], "Invalid discriminator value. Expected 'set' | 'get'"⟩]

def assetCodeIssues : Option String → List Issue
  | none => [⟨["assetCode"], "Required"⟩]
  | some s => ensure (1 ≤ jsLength s) ["assetCode"] "String must contain at least 1 character(s)" ++
      ensure (jsLength s ≤ 12) ["assetCode"] "String must contain at most 12 character(s)"

def assetIssuerIssues : Option String → List Issue
  | none => [⟨["assetIssuer"], "Required"⟩]
  | some k => ensure (jsLength k = 56) ["assetIssuer"] "Invalid asset issuer address" ++
      ensure (su.isValidEd25519PublicKey k) ["assetIssuer"]
        "Asset issuer must be a valid Stellar public key"

structure RawTrustline where
  assetCode : Option String
  assetIssuer : Option String
  action : Option String
  limit : Option String

structure TrustlineInput where
  assetCode : String
  assetIssuer : String
  change : TrustChange

def trustChangeOf (limit : Option String) : Option String → Except (List Issue) TrustChange
  | none => .error [⟨["action"], "Required"⟩]
  | some "add" => .ok (.add limit)
  | some "remove" => .ok .remove
  | some s => .error [⟨["action"],
      "Invalid enum value. Expected 'add' | 'remove', received '" ++ s ++ "'"⟩]

def trustlineInputSchema (raw : RawTrustline) : Except (List Issue) TrustlineInput :=
  let issues := assetCodeIssues raw.assetCode ++ assetIssuerIssues su raw.assetIssuer
  match trustChangeOf raw.limit raw.action, issues, raw.assetCode, raw.assetIssuer with
  | .error more, issues, _, _ => .error (issues ++ more)
  | .ok change, [], some assetCode, some assetIssuer => .ok ⟨assetCode, assetIssuer, change⟩
  | .ok _, issues, _, _ => .error issues

structure RawBalanceCheck where
  publicKey : Option String
  assetIssuer : Option String
  assetCode : Option String

structure BalanceCheckInput where
  publicKey : String
  assetIssuer : String
  assetCode : Option String
  deriving DecidableEq

def keyIssues (field message : String) : Option String → List Issue
  | none => [⟨[field], "Required"⟩]
  | some k => ensure (su.isValidEd25519PublicKey (trim k)) [field] message

def balanceCheckInputSchema (raw : RawBalanceCheck) : Except (List Issue) BalanceCheckInput :=
  let issues := keyIssues su "publicKey" "Invalid Stellar public key" raw.publicKey ++
    keyIssues su "assetIssuer" "Invalid Stellar asset issuer" raw.assetIssuer ++
    match raw.assetCode with
    | none => []
    | some s =>
      ensure (1 ≤ jsLength (trim s)) ["assetCode"] "String must contain at least 1 character(s)"
  match issues, raw.publicKey, raw.assetIssuer with
  | [], some publicKey, some assetIssuer =>
    .ok ⟨trim publicKey, trim assetIssuer, raw.assetCode.map trim⟩
  | issues, _, _ => .error issues

def inheritedNames : List String :=
  ["constructor", "__defineGetter__", "__defineSetter__", "hasOwnProperty", "__lookupGetter__",
    "__lookupSetter__", "isPrototypeOf", "propertyIsEnumerable", "toString", "valueOf",
    "__proto__", "toLocaleString"]

structure EntryValue where
  value : String
  utf8 : String
  hex : String
  rawBase64 : String
  deriving DecidableEq

/-- A result, which has a value if the entry exists. -/
structure DataEntryGetResult where
  name : String
  accountId : String
  found : Option EntryValue
  deriving DecidableEq

def dataEntryOf (name accountId : String) (account : Settings) :
    Except Fault DataEntryGetResult :=
  match account.dataAttr.lookup name with
  | none =>
    if inheritedNames.contains name then
      .error (.type "The first argument must be of type string or an instance of Buffer")
    else .ok ⟨name, accountId, none⟩
  | some raw =>
    let buf := decode raw.toList
    let utf8Val := utf8Text su.lossyText buf
    .ok ⟨name, accountId, some ⟨utf8Val, utf8Val, hexText buf, raw⟩⟩

structure InflationGetResult where
  accountId : String
  inflationDestination : Option String
  isSet : Bool
  deriving DecidableEq

def inflationOf (accountId : String) (account : Settings) : InflationGetResult :=
  ⟨accountId, account.inflationDestination, account.inflationDestination.isSome⟩

def lineOf (assetCode assetIssuer : String) (account : Settings) : Option Balance :=
  account.balances.find? fun entry => entry.assetType ≠ "native" &&
    entry.assetCode = some assetCode && entry.assetIssuer = some assetIssuer

def balanceOf (input : BalanceCheckInput) (account : Settings) : String :=
  match input.assetCode with
  | none => "0"
  | some assetCode =>
    ((lineOf assetCode input.assetIssuer account).map Balance.balance).getD "0"

inductive Entry where
  | elsewhere (changed : List (String × Account))
  | answered (accountId : String) (account : Account) (now : ℤ)
  | submitted (operation : Operation) (applied : Bool) (result : Except Fault (String × ℕ))
  | gotEntry (accountId name : String) (now : ℤ) (result : Except Fault DataEntryGetResult)
  | gotInflation (accountId : String) (now : ℤ) (result : InflationGetResult)
  | gotBalance (input : BalanceCheckInput) (now : ℤ) (result : String)
  | gotTrustline (assetCode assetIssuer : String) (now : ℤ) (result : Bool)
  deriving DecidableEq

/-- The accounts on the ledger, those that the client has cached, and what has happened. -/
structure World where
  accounts : String → Account
  cache : Cache String Account
  journal : List Entry

/-- What a request for an account meets: the clock before and after it, and whether it fails. -/
structure Exchange where
  now : ℤ
  now' : ℤ
  failure : Option Fault

def World.log (w : World) (e : Entry) : World := { w with journal := w.journal ++ [e] }

def loadAccount (w : World) (accountId : String) (x : Exchange) : Except Fault Account × World :=
  match lookup su.ttl w.cache accountId false x.now with
  | (some account, cache) => (.ok account, { w with cache := cache })
  | (none, cache) =>
    match x.failure with
    | some e => (.error e, { w with cache := cache })
    | none =>
      let account := w.accounts accountId
      (.ok account, { w with cache := store su.ttl cache accountId account x.now' }.log
        (.answered accountId account x.now'))

def read (w : World) (accountId : String) (x : Exchange) (note : Settings → Entry) : World :=
  match loadAccount su w accountId x with
  | (.error _, w) => w
  | (.ok account, w) => w.log (note account.toSettings)

def getDataEntry (w : World) (name : String) (accountId : Option String) (x : Exchange) : World :=
  let targetAccount := accountId.getD su.publicKey
  read su w targetAccount x fun account =>
    .gotEntry targetAccount name x.now (dataEntryOf su name targetAccount account)

def getInflation (w : World) (accountId : Option String) (x : Exchange) : World :=
  let targetAccount := accountId.getD su.publicKey
  read su w targetAccount x fun account =>
    .gotInflation targetAccount x.now (inflationOf targetAccount account)

def balanceCheck (w : World) (input : BalanceCheckInput) (x : Exchange) : World :=
  read su w input.publicKey x fun account => .gotBalance input x.now (balanceOf input account)

def checkTrustline (w : World) (assetCode assetIssuer : String) (x : Exchange) : World :=
  read su w su.publicKey x fun account =>
    .gotTrustline assetCode assetIssuer x.now (lineOf assetCode assetIssuer account).isSome

/-- Building takes the next sequence number and leaves it in the record it builds from. -/
def build (w : World) : World :=
  { w with
    cache := Function.update w.cache su.publicKey ((w.cache su.publicKey).map fun cached =>
      { cached with account :=
          { cached.account with sequence := cached.account.sequence + 1 } }) }

/-- A submission, which leaves nothing in the cache, unless its envelope is refused. -/
def submitted (w : World) (sequence : ℤ) (operation : Operation) (script : Script) : World :=
  match script.refused with
  | some _ => w
  | none =>
    let own := w.accounts su.publicKey
    let (result, l) := submit su.retries script ⟨sequence + 1, operation⟩ ⟨own.sequence, []⟩
    let applied := !l.applied.isEmpty
    let own := { own with sequence := l.sequence }
    { w with
      accounts := Function.update w.accounts su.publicKey
        (if applied then own.apply su operation else own)
      cache := invalidateAccountCache w.cache none }.log (.submitted operation applied result)

def send (w : World) (cached : Bool) (sequence : ℤ) (operation : Operation) (script : Script) :
    World :=
  match su.checkOperation operation with
  | .error _ => w
  | .ok () => submitted su (if cached then build su w else w) sequence operation script

def mutate (w : World) (operation : Operation) (x : Exchange) (script : Script) : World :=
  match loadAccount su w su.publicKey x with
  | (.error _, w) => w
  | (.ok account, w) => send su w true account.sequence operation script

def removeTrust (w : World) (input : TrustlineInput) (x x' : Exchange) (script : Script) : World :=
  match loadAccount su w su.publicKey x with
  | (.error _, w) => w
  | (.ok account, w) =>
    match balanceCheckInputSchema su
      ⟨some su.publicKey, some input.assetIssuer, some input.assetCode⟩ with
    | .error _ => w
    | .ok input' =>
      let cached := (lookup su.ttl w.cache input'.publicKey false x'.now).1.isSome
      match loadAccount su w input'.publicKey x' with
      | (.error _, w) => w
      | (.ok account', w) =>
        if (Number.finite 0).lt (su.toNumber (balanceOf input' account'.toSettings)) then w
        else send su w cached account.sequence
          (.changeTrust input.assetCode input.assetIssuer .remove) script

def trustline (w : World) (input : TrustlineInput) (x x' : Exchange) (script : Script) : World :=
  match su.newAsset input.assetCode input.assetIssuer with
  | .error _ => w
  | .ok () =>
    match input.change with
    | .add limit =>
      mutate su w (.changeTrust input.assetCode input.assetIssuer (.add limit)) x script
    | .remove => removeTrust su w input x x' script

/-- A call of one of the tools, which begins when the one before it has ended, or any change of
accounts between them. -/
inductive Action where
  | dataEntry (raw : RawDataEntry) (x : Exchange) (script : Script)
  | inflation (raw : RawInflation) (x : Exchange) (script : Script)
  | trustline (raw : RawTrustline) (x x' : Exchange) (script : Script)
  | checkTrustline (assetCode assetIssuer : String) (x : Exchange)
  | balanceCheck (raw : RawBalanceCheck) (x : Exchange)
  | elsewhere (changed : List (String × Account))

def step (w : World) : Action → World
  | .dataEntry raw x script =>
    match dataEntryInputSchema su raw with
    | .error _ => w
    | .ok (.set name value) => mutate su w (.manageData name (some value)) x script
    | .ok (.delete name) => mutate su w (.manageData name none) x script
    | .ok (.get name accountId) => getDataEntry su w name accountId x
  | .inflation raw x script =>
    match inflationInputSchema su raw with
    | .error _ => w
    | .ok (.set inflationDestination) => mutate su w (.setOptions inflationDestination) x script
    | .ok (.get accountId) => getInflation su w accountId x
  | .trustline raw x x' script =>
    match trustlineInputSchema su raw with
    | .error _ => w
    | .ok input => trustline su w input x x' script
  | .checkTrustline assetCode assetIssuer x => checkTrustline su w assetCode assetIssuer x
  | .balanceCheck raw x =>
    match balanceCheckInputSchema su raw with
    | .error _ => w
    | .ok input => balanceCheck su w input x
  | .elsewhere changed =>
    { w with accounts := fun k => (changed.lookup k).getD (w.accounts k) }.log (.elsewhere changed)

def started (accounts : String → Account) : World := ⟨accounts, fun _ => none, []⟩

end PayFi.Tools.AccountEntries
