import PayFi.Agent.Persistence
import PayFi.Library.Bytes
import PayFi.Library.Objects
import PayFi.Tools.Payment

namespace PayFi.Tools.SorobanStorage

open Agent.Errors Agent.Persistence Library.Bytes Library.JsonText Library.Numbers Library.Objects
open Library.Results
open Network.Submission (Fault Issue)
open Library.JsonTokens (Literal)

/-- A key of a `Map` that is no container. -/
inductive Key where
  | null
  | boolean (b : Bool)
  | number (n : Literal)
  | string (s : String)
  | bigint (n : ℤ)
  | bytes (bs : List UInt8)

/-- What `scValToNative` makes of a value; a number is finite, and known by its text. It does not
decode contract instances: their key is undefined, and they are objects with functions in them. -/
inductive Native where
  | undefined
  | function (toJSON : Except Unit (Option String))
  | null
  | boolean (b : Bool)
  | number (n : Literal)
  | string (s : String)
  | bigint (n : ℤ)
  | bytes (bs : List UInt8)
  | array (vs : List Native)
  | map (entries : List (Key × Native))
  | object (entries : List (String × Native))

/-- `String(toJsonSerializable(key))`. -/
def Key.text : Key → String
  | .null => "null"
  | .boolean b => if b then "true" else "false"
  | .number n => String.ofList n.text
  | .string s => s
  | .bigint n => toString n
  | .bytes bs => hexText bs

/-- The properties that are assigned in turn. A `__proto__` does not become one. -/
def assigned (members : List (String × Value)) : List (String × Value) :=
  ofMembers (members.filter fun e => e.1 ≠ "__proto__")

mutual

def toJsonSerializable : Native → Value
  | .undefined => .undefined
  | .function toJSON => .function toJSON
  | .null => .null
  | .boolean b => .boolean b
  | .number n => .number (some (String.ofList n.text))
  | .string s => .string s
  | .bigint n => .string (toString n)
  | .bytes bs => .string (hexText bs)
  | .array vs => .array (toJsonAll vs)
  | .map entries => .object (assigned (toJsonMap entries))
  | .object entries => .object (assigned (toJsonEntries entries))

def toJsonAll : List Native → List Value
  | [] => []
  | v :: vs => toJsonSerializable v :: toJsonAll vs

def toJsonMap : List (Key × Native) → List (String × Value)
  | [] => []
  | (k, v) :: entries => (k.text, toJsonSerializable v) :: toJsonMap entries

def toJsonEntries : List (String × Native) → List (String × Value)
  | [] => []
  | (k, v) :: entries => (k, toJsonSerializable v) :: toJsonEntries entries

end

inductive Durability where
  | persistent
  | temporary
  | contractInstance
  deriving DecidableEq

inductive ContractDataDurability where
  | persistent
  | temporary

inductive StorageKey (ScVal Js : Type) where
  | scVal (v : ScVal)
  | other (v : Js)

structure RawStorage (ScVal Js : Type) where
  contractId : Option String
  keys : Option (List (StorageKey ScVal Js))
  durability : Option String

structure StorageInput (ScVal Js : Type) where
  contractId : String
  keys : List (StorageKey ScVal Js)
  durability : Durability

structure LedgerKey (ScVal : Type) where
  contract : String
  key : ScVal
  durability : ContractDataDurability

/-- An entry of an answer, with the key and the value in it not decoded yet. -/
structure RawEntry (Raw : Type) where
  val : Raw
  lastModifiedLedgerSeq : Option Literal
  liveUntilLedgerSeq : Option Literal

structure LedgerEntries (Raw : Type) where
  entries : Option (List (RawEntry Raw))
  latestLedger : Option Literal

/-- What the tool takes from the SDK. -/
structure Sdk (ScVal Js Raw : Type) where
  toScAddress : String → Except Fault String
  nativeToScVal : Js → Except Fault ScVal
  ledgerKeyContractInstance : ScVal
  contractData : Raw → Except Fault (ScVal × ScVal)
  scValToNative : ScVal → Native

structure StorageEntryResult where
  key : Value
  value : Value
  lastModifiedLedgerSeq : Option Literal
  liveUntilLedgerSeq : Option Literal

structure StorageResult where
  entries : List StorageEntryResult
  latestLedger : Option Literal

variable {ScVal Js Raw : Type} (sdk : Sdk ScVal Js Raw)

def contractIdIssues : Option String → List Issue
  | none => [⟨["contractId"], "Required"⟩]
  | some s =>
    Payment.ensure (Payment.jsLength s = 56) ["contractId"] "Invalid Stellar contract ID"

def keysIssues : Option (List (StorageKey ScVal Js)) → List Issue
  | none => [⟨["keys"], "Required"⟩]
  | some keys =>
    Payment.ensure (1 ≤ keys.length) ["keys"] "At least one storage key must be specified"

def durabilityOf : Option String → Except (List Issue) Durability
  | none => .ok .persistent
  | some "persistent" => .ok .persistent
  | some "temporary" => .ok .temporary
  | some "instance" => .ok .contractInstance
  | some s => .error [⟨["durability"],
      "Invalid enum value. Expected 'persistent' | 'temporary' | " ++
      "'instance', received '" ++ s ++ "'"⟩]

def storageInputSchema (raw : RawStorage ScVal Js) :
    Except (List Issue) (StorageInput ScVal Js) :=
  let issues := contractIdIssues raw.contractId ++ keysIssues raw.keys
  match durabilityOf raw.durability, issues, raw.contractId, raw.keys with
  | .error more, issues, _, _ => .error (issues ++ more)
  | .ok durability, [], some contractId, some keys => .ok ⟨contractId, keys, durability⟩
  | .ok _, issues, _, _ => .error issues

/-- Instance storage lies under one key of persistent storage, whatever key is asked for. -/
def ledgerKey (contract : String) (durability : Durability) (key : StorageKey ScVal Js) :
    Except Fault (LedgerKey ScVal) := do
  let scVal ← match durability, key with
    | .contractInstance, _ => .ok sdk.ledgerKeyContractInstance
    | _, .scVal v => .ok v
    | _, .other v => sdk.nativeToScVal v
  return ⟨contract, scVal, if durability = .temporary then .temporary else .persistent⟩

def entryOf (entry : RawEntry Raw) : Except Fault StorageEntryResult := do
  let (key, val) ← sdk.contractData entry.val
  return ⟨toJsonSerializable (sdk.scValToNative key), toJsonSerializable (sdk.scValToNative val),
    entry.lastModifiedLedgerSeq, entry.liveUntilLedgerSeq⟩

/-- The tool, with what asking for the ledger entries comes to after all retries. -/
def execute (getLedgerEntries : List (LedgerKey ScVal) → Except Fault (LedgerEntries Raw))
    (raw : RawStorage ScVal Js) : Except Fault StorageResult := do
  let input ← (storageInputSchema raw).mapError .zod
  let contract ← sdk.toScAddress input.contractId
  let ledgerKeys ← input.keys.mapM (ledgerKey sdk contract input.durability)
  let response ← getLedgerEntries ledgerKeys
  let entries ← (response.entries.getD []).mapM (entryOf sdk)
  return ⟨entries, response.latestLedger⟩

def optional (name : String) (n : Option Literal) : List (String × Value) :=
  (n.map fun n => (name, .number (some (String.ofList n.text)))).toList

def StorageEntryResult.toValue (e : StorageEntryResult) : Value :=
  .object ([("key", e.key), ("value", e.value)] ++
    (optional "lastModifiedLedgerSeq" e.lastModifiedLedgerSeq ++
      optional "liveUntilLedgerSeq" e.liveUntilLedgerSeq))

def StorageResult.toValue (r : StorageResult) : Value :=
  .object (("entries", .array (r.entries.map StorageEntryResult.toValue)) ::
    optional "latestLedger" r.latestLedger)

/-- The members of a container with names, a `Map` among them. -/
def Native.members : Native → Option (List (String × Native))
  | .map entries => some (entries.map fun e => (e.1.text, e.2))
  | .object entries => some entries
  | _ => none

/-- A converted value shows all that there was: large integers by their digits, bytes by theirs,
and under each name but `__proto__` what was last put there. -/
inductive Shows : Native → Value → Prop
  | undefined : Shows .undefined .undefined
  | function (toJSON : Except Unit (Option String)) : Shows (.function toJSON) (.function toJSON)
  | null : Shows .null .null
  | boolean (b : Bool) : Shows (.boolean b) (.boolean b)
  | number (n : Literal) : Shows (.number n) (.number (some (String.ofList n.text)))
  | string (s : String) : Shows (.string s) (.string s)
  | bigint {n : ℤ} {s : String} (h : parseInt s = some n) : Shows (.bigint n) (.string s)
  | bytes {bs : List UInt8} {s : String} (h : hexDecode s.toList = bs) :
    Shows (.bytes bs) (.string s)
  | array {vs : List Native} {ws : List Value} (length : vs.length = ws.length)
    (h : ∀ (i : ℕ) v w, vs[i]? = some v → ws[i]? = some w → Shows v w) :
    Shows (.array vs) (.array ws)
  | members {v : Native} {ms : List (String × Native)} {ws : List (String × Value)}
    (members : v.members = some ms) (enumerated : Enumerated ws)
    (names : ∀ name, (ws.lookup name).isSome = true ↔
      name ≠ "__proto__" ∧ (ms.reverse.lookup name).isSome = true)
    (h : ∀ name m w, ms.reverse.lookup name = some m → ws.lookup name = some w → Shows m w) :
    Shows v (.object ws)

inductive Plain : Native → Prop
  | null : Plain .null
  | boolean (b : Bool) : Plain (.boolean b)
  | number (n : Literal) : Plain (.number n)
  | string (s : String) : Plain (.string s)
  | bigint (n : ℤ) : Plain (.bigint n)
  | bytes (bs : List UInt8) : Plain (.bytes bs)
  | array {vs : List Native} (h : ∀ v ∈ vs, Plain v) : Plain (.array vs)
  | members {v : Native} {ms : List (String × Native)} (members : v.members = some ms)
    (h : ∀ e ∈ ms, Plain e.2) : Plain v

def converted (ms : List (String × Native)) : List (String × Value) :=
  ms.map fun e => (e.1, toJsonSerializable e.2)

theorem toJsonAll_eq (vs : List Native) : toJsonAll vs = vs.map toJsonSerializable := by
  induction vs with
  | nil => rfl
  | cons v vs ih => rw [toJsonAll, ih, List.map_cons]

theorem toJsonMap_eq (entries : List (Key × Native)) :
    toJsonMap entries = converted (entries.map fun e => (e.1.text, e.2)) := by
  induction entries with
  | nil => rfl
  | cons e entries ih =>
    rw [toJsonMap, ih]
    rfl

theorem toJsonEntries_eq (entries : List (String × Native)) :
    toJsonEntries entries = converted entries := by
  induction entries with
  | nil => rfl
  | cons e entries ih =>
    rw [toJsonEntries, ih]
    rfl

theorem toJsonSerializable_members {v : Native} {ms : List (String × Native)}
    (h : v.members = some ms) : toJsonSerializable v = .object (assigned (converted ms)) := by
  cases v with
  | map entries =>
    cases h
    rw [toJsonSerializable, toJsonMap_eq]
  | object entries =>
    cases h
    rw [toJsonSerializable, toJsonEntries_eq]
  | _ => cases h

theorem lookup_assigned (ms : List (String × Native)) (name : String) :
    (assigned (converted ms)).lookup name = if name ≠ "__proto__" then
      (ms.reverse.lookup name).map toJsonSerializable else none := by
  rw [assigned, lookup_ofMembers, ← List.filter_reverse,
    lookup_filter_key (fun name => decide (name ≠ "__proto__"))]
  have hmap := lookup_map_key (fun _ => toJsonSerializable) ms.reverse name
  rw [List.map_reverse] at hmap
  simp only [decide_eq_true_eq]
  rw [← hmap]
  rfl

theorem shows_members {v : Native} {ms : List (String × Native)} (h : v.members = some ms)
    (hms : ∀ e ∈ ms, Shows e.2 (toJsonSerializable e.2)) : Shows v (toJsonSerializable v) := by
  rw [toJsonSerializable_members h]
  refine .members h (ofMembers_enumerated _) (fun name => ?_) fun name m w hm hw => ?_
  · rw [lookup_assigned]
    split
    · rename_i hname
      rw [Option.isSome_map]
      exact ⟨fun hsome => ⟨hname, hsome⟩, And.right⟩
    · rename_i hname
      exact ⟨nofun, fun hsome => absurd hsome.1 hname⟩
  · rw [lookup_assigned] at hw
    split at hw
    · rw [hm] at hw
      cases hw
      exact hms (name, m) (List.mem_reverse.mp (mem_of_lookup hm))
    · cases hw

mutual

theorem shows : ∀ v : Native, Shows v (toJsonSerializable v)
  | .undefined => .undefined
  | .function toJSON => .function toJSON
  | .null => .null
  | .boolean b => .boolean b
  | .number n => .number n
  | .string s => .string s
  | .bigint n => .bigint (parseInt_toString_int n)
  | .bytes bs => .bytes (by
      rw [hexText, String.toList_ofList]
      exact hexDecode_spells (spells_hexEncode bs))
  | .array vs => by
    rw [toJsonSerializable, toJsonAll_eq]
    refine .array (List.length_map _).symm fun i v w hv hw => ?_
    rw [List.getElem?_map, hv] at hw
    cases hw
    exact showsAll vs v (List.mem_of_getElem? hv)
  | .map entries => by
    refine shows_members rfl fun e he => ?_
    obtain ⟨f, hf, rfl⟩ := List.mem_map.mp he
    exact showsMap entries f hf
  | .object entries => shows_members rfl (showsEntries entries)

theorem showsAll : ∀ vs : List Native, ∀ v ∈ vs, Shows v (toJsonSerializable v)
  | [] => nofun
  | v :: vs => List.forall_mem_cons.mpr ⟨shows v, showsAll vs⟩

theorem showsMap : ∀ entries : List (Key × Native), ∀ e ∈ entries,
    Shows e.2 (toJsonSerializable e.2)
  | [] => nofun
  | (_, v) :: entries => List.forall_mem_cons.mpr ⟨shows v, showsMap entries⟩

theorem showsEntries : ∀ entries : List (String × Native), ∀ e ∈ entries,
    Shows e.2 (toJsonSerializable e.2)
  | [] => nofun
  | (_, v) :: entries => List.forall_mem_cons.mpr ⟨shows v, showsEntries entries⟩

end

theorem serialisable_array {vs : List Value} (h : ∀ v ∈ vs, Serialisable v) :
    Serialisable (.array vs) := by
  have hall : ∃ ds, vs = ofJsonAll ds := by
    induction vs with
    | nil => exact ⟨[], rfl⟩
    | cons v vs ih =>
      obtain ⟨⟨d, rfl⟩, hvs⟩ := List.forall_mem_cons.mp h
      obtain ⟨ds, rfl⟩ := ih hvs
      exact ⟨d :: ds, rfl⟩
  obtain ⟨ds, rfl⟩ := hall
  exact ⟨.array ds, rfl⟩

theorem serialisable_object {entries : List (String × Value)}
    (h : ∀ e ∈ entries, Serialisable e.2) : Serialisable (.object entries) := by
  have hall : ∃ ds, entries = ofJsonEntries ds := by
    induction entries with
    | nil => exact ⟨[], rfl⟩
    | cons e entries ih =>
      obtain ⟨⟨d, hd⟩, hentries⟩ := List.forall_mem_cons.mp h
      obtain ⟨ds, rfl⟩ := ih hentries
      exact ⟨(e.1, d) :: ds, by rw [ofJsonEntries, ← hd]⟩
  obtain ⟨ds, rfl⟩ := hall
  exact ⟨.object ds, rfl⟩

theorem serialisable_assigned {ms : List (String × Native)}
    (h : ∀ e ∈ ms, Serialisable (toJsonSerializable e.2)) :
    Serialisable (.object (assigned (converted ms))) := by
  refine serialisable_object fun e he => ?_
  have hmem := List.mem_of_mem_filter (mem_ofMembers he)
  obtain ⟨f, hf, rfl⟩ := List.mem_map.mp hmem
  exact h f hf

theorem Plain.serialisable {v : Native} (h : Plain v) : Serialisable (toJsonSerializable v) := by
  induction h with
  | null => exact ⟨.null, rfl⟩
  | boolean b => exact ⟨.boolean b, rfl⟩
  | number n => exact ⟨.number n, rfl⟩
  | string s => exact ⟨.string s, rfl⟩
  | bigint n => exact ⟨.string (toString n), rfl⟩
  | bytes bs => exact ⟨.string (hexText bs), rfl⟩
  | array _ ih =>
    rw [toJsonSerializable, toJsonAll_eq]
    exact serialisable_array (List.forall_mem_map.mpr ih)
  | members hmembers _ ih =>
    rw [toJsonSerializable_members hmembers]
    exact serialisable_assigned ih

theorem serialisable_optional (name : String) (n : Option Literal) :
    ∀ e ∈ optional name n, Serialisable e.2 := by
  cases n with
  | none => exact nofun
  | some n => exact List.forall_mem_singleton.mpr ⟨.number n, rfl⟩

/-- An entry of a result shows the entry it was made from. -/
def ShowsEntry (entry : RawEntry Raw) (e : StorageEntryResult) : Prop :=
  ∃ key val, sdk.contractData entry.val = .ok (key, val) ∧ Shows (sdk.scValToNative key) e.key ∧
    Shows (sdk.scValToNative val) e.value

def PlainEntry (entry : RawEntry Raw) : Prop :=
  ∀ key val, sdk.contractData entry.val = .ok (key, val) →
    Plain (sdk.scValToNative key) ∧ Plain (sdk.scValToNative val)

variable {sdk} {getLedgerEntries : List (LedgerKey ScVal) → Except Fault (LedgerEntries Raw)}
  {raw : RawStorage ScVal Js} {result : StorageResult}

theorem entryOf_ok {entry : RawEntry Raw} {e : StorageEntryResult}
    (h : entryOf sdk entry = .ok e) :
    ShowsEntry sdk entry e ∧ (PlainEntry sdk entry → Serialisable e.toValue) := by
  simp only [entryOf, bind_eq_ok] at h
  obtain ⟨⟨key, val⟩, hdata, he⟩ := h
  cases he
  refine ⟨⟨key, val, hdata, shows _, shows _⟩, fun hplain => serialisable_object ?_⟩
  obtain ⟨hkey, hval⟩ := hplain key val hdata
  simp only [List.forall_mem_append, List.forall_mem_cons]
  exact ⟨⟨hkey.serialisable, hval.serialisable, nofun⟩, serialisable_optional _ _,
    serialisable_optional _ _⟩

theorem serialisable_entries {entries : List (RawEntry Raw)} {es : List StorageEntryResult}
    (h : List.Forall₂ (fun entry e => PlainEntry sdk entry → Serialisable e.toValue) entries es)
    (hplain : ∀ entry ∈ entries, PlainEntry sdk entry) :
    ∀ e ∈ es, Serialisable e.toValue := by
  induction h with
  | nil => exact nofun
  | cons hentry _ ih =>
    obtain ⟨hfirst, hrest⟩ := List.forall_mem_cons.mp hplain
    exact List.forall_mem_cons.mpr ⟨hentry hfirst, ih hrest⟩

/-- A result has an entry for each of the answer, in which nothing of its key and its value is lost;
and it can be written as a text that it is read back from, unless something is in it that JSON has
no text for. -/
theorem results_serialisable (h : execute sdk getLedgerEntries raw = .ok result) :
    ∃ keys response, getLedgerEntries keys = .ok response ∧
      List.Forall₂ (ShowsEntry sdk) (response.entries.getD []) result.entries ∧
      ((∀ entry ∈ response.entries.getD [], PlainEntry sdk entry) →
        ∃ text, stringify result.toValue = .ok (some text) ∧
          parseJSON text = .ok result.toValue) := by
  simp only [execute, bind_eq_ok, mapError_eq_ok] at h
  obtain ⟨input, -, contract, -, keys, -, response, hresponse, entries, hentries, hresult⟩ := h
  cases hresult
  have hall := (mapM_eq_ok.mp hentries).imp fun _ _ => entryOf_ok
  refine ⟨keys, response, hresponse, hall.imp fun _ _ => And.left, fun hplain => ?_⟩
  have hserialisable := serialisable_entries (hall.imp fun _ _ => And.right) hplain
  refine parseJSON_stringify (serialisable_object ?_)
  refine List.forall_mem_cons.mpr ⟨serialisable_array ?_, serialisable_optional _ _⟩
  exact List.forall_mem_map.mpr hserialisable

def exampleSdk : Sdk Native Unit (Native × Native) where
  toScAddress := .ok
  nativeToScVal := fun _ => .error (.error "unsupported")
  ledgerKeyContractInstance := .undefined
  contractData := .ok
  scValToNative := id

def exampleEntry : RawEntry (Native × Native) :=
  ⟨(.bigint (-1), .map [(.bigint 1, .bytes [0xab]), (.string "1", .null)]), none, none⟩

def exampleResult : StorageResult :=
  ⟨[⟨.string "-1", .object [("1", .null)], none, none⟩], none⟩

theorem plain_exampleEntry : PlainEntry exampleSdk exampleEntry := by
  rintro key val ⟨⟩
  refine ⟨.bigint (-1), .members rfl ?_⟩
  exact List.forall_mem_cons.mpr ⟨.bytes [0xab], List.forall_mem_singleton.mpr .null⟩

theorem results_serialisable_example :
    ∃ text, stringify exampleResult.toValue = .ok (some text) ∧
      parseJSON text = .ok exampleResult.toValue := by
  obtain ⟨-, _, ⟨⟩, -, htext⟩ := @results_serialisable Native Unit (Native × Native) exampleSdk
    (fun _ => .ok ⟨some [exampleEntry], none⟩)
    ⟨some (String.ofList (List.replicate 56 'C')), some [.scVal .null], none⟩ exampleResult rfl
  exact htext (List.forall_mem_singleton.mpr plain_exampleEntry)

end PayFi.Tools.SorobanStorage
