import PayFi.Agent.Payload
import PayFi.Library.Base64
import PayFi.Library.Bytes
import PayFi.Network.Submission

namespace PayFi.Tools.SorobanDeploy

open Library.Bytes Network.Submission
open Agent.Payload (trim)

/-- What stands in a field: bytes, a text, or something else of the given type. -/
inductive Field where
  | buffer (bytes : List UInt8)
  | text (s : String)
  | other (received : String)

inductive Fault where
  | zod (issues : List Issue)
  | validation (message : String)
  | error (message : String)

structure RawDeploy where
  action : Option String
  wasm : Option Field
  wasmBuffer : Option Field
  wasmHash : Option Field

inductive Action where
  | upload
  | instantiate
  | deploy
  deriving DecidableEq

def Action.name : Action → String
  | .upload => "upload"
  | .instantiate => "instantiate"
  | .deploy => "deploy"

structure DeployInput where
  action : Action
  wasm : Option Field
  wasmBuffer : Option Field
  wasmHash : Option String

def actionOf : Option String → Except (List Issue) Action
  | none => .error [⟨["action"], "Required"⟩]
  | some "upload" => .ok .upload
  | some "instantiate" => .ok .instantiate
  | some "deploy" => .ok .deploy
  | some s => .error [⟨["action"],
      "Invalid enum value. Expected 'upload' | 'instantiate' | 'deploy', received '" ++ s ++ "'"⟩]

def wasmIssues (name : String) : Option Field → List Issue
  | some (.other _) => [⟨[name], "Invalid input"⟩]
  | _ => []

def wasmHashOf : Option Field → Except (List Issue) (Option String)
  | none => .ok none
  | some (.text s) => .ok (some s)
  | some (.buffer _) => .error [⟨["wasmHash"], "Expected string, received object"⟩]
  | some (.other received) => .error [⟨["wasmHash"], "Expected string, received " ++ received⟩]

def issuesOf {α : Type} : Except (List Issue) α → List Issue
  | .ok _ => []
  | .error issues => issues

def deployInputSchema (raw : RawDeploy) : Except (List Issue) DeployInput :=
  let issues := issuesOf (actionOf raw.action) ++ wasmIssues "wasm" raw.wasm ++
    wasmIssues "wasmBuffer" raw.wasmBuffer ++ issuesOf (wasmHashOf raw.wasmHash)
  match issues, actionOf raw.action, wasmHashOf raw.wasmHash with
  | [], .ok action, .ok wasmHash => .ok ⟨action, raw.wasm, raw.wasmBuffer, wasmHash⟩
  | issues, _, _ => .error issues

/-- A text that names no file is hexadecimal if it can be, else base64, unless nothing comes of
that. -/
def decodeText (t : String) : List UInt8 :=
  if isHex t.toList && t.toList.length % 2 = 0 then hexDecode t.toList
  else
    let buf := Library.Base64.decode t.toList
    if 0 < buf.length then buf else utf8Bytes t

def resolveWasmBuffer (readFile : String → Option (List UInt8)) (input : DeployInput)
    (actionName : String) : Except Fault (List UInt8) :=
  let missing := "WASM bytecode is required for action '" ++ actionName ++ "'"
  match input.wasmBuffer.or input.wasm with
  | none => .error (.validation missing)
  | some (.buffer bytes) =>
    if bytes.length = 0 then
      .error (.validation ("WASM buffer cannot be empty for action '" ++ actionName ++ "'"))
    else .ok bytes
  | some (.text s) =>
    let trimmed := trim s
    if s = "" then .error (.validation missing)
    else if trimmed = "" then
      .error (.validation ("WASM string cannot be empty for action '" ++ actionName ++ "'"))
    else .ok ((readFile trimmed).getD (decodeText trimmed))
  | some (.other _) =>
    .error (.validation ("Invalid WASM input type for action '" ++ actionName ++ "'"))

/-- An answer of the server: nothing, a text, or an object with its text. -/
inductive Reply where
  | nothing
  | text (s : String)
  | object (members : List (String × String)) (printed : String)

def Reply.named (names : List String) : Reply → String
  | .nothing => ""
  | .text s => s
  | .object members printed => (names.findSome? fun name => members.lookup name).getD printed

/-- The two methods, which a server may lack. -/
structure Server where
  uploadContractWasm : Option (List UInt8 → Except String Reply)
  createContractFromWasm : Option (String → Except String Reply)

inductive Call where
  | uploadContractWasm (bytes : List UInt8)
  | createContractFromWasm (wasmHash : String)
  deriving DecidableEq

def required (names : List String) (message : String) :
    Except String Reply → Except Fault String
  | .error e => .error (.error e)
  | .ok reply =>
    if reply.named names = "" then .error (.error message) else .ok (reply.named names)

variable (readFile : String → Option (List UInt8)) (sv : Server)

def upload (wasmBuffer : List UInt8) : Except Fault String × List Call :=
  match sv.uploadContractWasm with
  | none => (.error (.error "sorobanServer does not implement uploadContractWasm"), [])
  | some send =>
    (required ["wasmHash", "hash"]
      "sorobanServer.uploadContractWasm did not return a valid WASM hash" (send wasmBuffer),
      [.uploadContractWasm wasmBuffer])

def instantiate (wasmHash : String) : Except Fault String × List Call :=
  if trim wasmHash = "" then
    (.error (.validation "wasmHash is required for instantiate action"), [])
  else
    match sv.createContractFromWasm with
    | none => (.error (.error "sorobanServer does not implement createContractFromWasm"), [])
    | some create =>
      (required ["contractId", "id", "address"]
        "sorobanServer.createContractFromWasm did not return a valid contract ID"
        (create wasmHash), [.createContractFromWasm wasmHash])

def deploy (wasmBuffer : List UInt8) : Except Fault (String × String) × List Call :=
  match upload sv wasmBuffer with
  | (.error e, calls) => (.error e, calls)
  | (.ok wasmHash, calls) =>
    let (contractId, calls') := instantiate sv wasmHash
    (contractId.map fun contractId => (wasmHash, contractId), calls ++ calls')

structure DeployResult where
  action : Action
  wasmHash : Option String
  contractId : Option String

def execute (raw : RawDeploy) : Except Fault DeployResult × List Call :=
  match deployInputSchema raw with
  | .error issues => (.error (.zod issues), [])
  | .ok input =>
    match input.action with
    | .upload =>
      match resolveWasmBuffer readFile input "upload" with
      | .error e => (.error e, [])
      | .ok wasmBuffer =>
        let (wasmHash, calls) := upload sv wasmBuffer
        (wasmHash.map fun wasmHash => ⟨.upload, some wasmHash, none⟩, calls)
    | .instantiate =>
      match input.wasmHash with
      | none | some "" =>
        (.error (.validation "wasmHash is required for instantiate action"), [])
      | some wasmHash =>
        let (contractId, calls) := instantiate sv wasmHash
        (contractId.map fun contractId => ⟨.instantiate, some wasmHash, some contractId⟩, calls)
    | .deploy =>
      match resolveWasmBuffer readFile input "deploy" with
      | .error e => (.error e, [])
      | .ok wasmBuffer =>
        let (both, calls) := deploy sv wasmBuffer
        (both.map fun both => ⟨.deploy, some both.1, some both.2⟩, calls)

/-- Every module begins with the magic number. -/
def IsModule (bytes : List UInt8) : Prop := [0x00, 0x61, 0x73, 0x6d] <+: bytes

/-- A field holds bytes as they are, or as a text that names no file: in hexadecimal digits of
either case, or in base64 with or without padding, line breaks and the alphabet for URLs. -/
inductive Holds : Field → List UInt8 → Prop
  | buffer (bytes : List UInt8) : Holds (.buffer bytes) bytes
  | hex {s : String} {bytes : List UInt8} (file : readFile (trim s) = none)
    (spells : Spells (trim s).toList bytes) : Holds (.text s) bytes
  | base64 {s : String} {bytes : List UInt8} (file : readFile (trim s) = none)
    (values : Library.Base64.values (trim s).toList =
      Library.Base64.values (Library.Base64.encode bytes)) : Holds (.text s) bytes

/-- The field that counts. -/
def RawDeploy.given (raw : RawDeploy) : Option Field := raw.wasmBuffer.or raw.wasm

/-- The same request, with the bytes themselves in that field. -/
def RawDeploy.withBytes (raw : RawDeploy) (bytes : List UInt8) : RawDeploy :=
  match raw.wasmBuffer with
  | some _ => { raw with wasmBuffer := some (.buffer bytes) }
  | none => { raw with wasm := some (.buffer bytes) }

def Server.given (sv : Server) (bytes : List UInt8) : Option String :=
  sv.uploadContractWasm.bind fun send =>
    (send bytes).toOption.map fun reply => reply.named ["wasmHash", "hash"]

def Server.uploads (sv : Server) (bytes : List UInt8) : List Call :=
  if sv.uploadContractWasm.isSome then [.uploadContractWasm bytes] else []

def Server.instances (sv : Server) (wasmHash : String) : List Call :=
  if trim wasmHash ≠ "" ∧ sv.createContractFromWasm.isSome then [.createContractFromWasm wasmHash]
  else []

/-- The calls that an accepted request with these bytes leads to. -/
def due (sv : Server) (raw : RawDeploy) (bytes : List UInt8) : List Call :=
  match raw.action, raw.wasmHash with
  | some "deploy", _ => sv.uploads bytes ++ (sv.given bytes).toList.flatMap sv.instances
  | some "instantiate", some (.text wasmHash) => sv.instances wasmHash
  | some "upload", _ => sv.uploads bytes
  | _, _ => []

def DeployInput.withBytes (input : DeployInput) (bytes : List UInt8) : DeployInput :=
  match input.wasmBuffer with
  | some _ => { input with wasmBuffer := some (.buffer bytes) }
  | none => { input with wasm := some (.buffer bytes) }

variable {readFile sv} {raw : RawDeploy} {input : DeployInput} {field : Field} {w : List UInt8}
  {t : List Char} {name : String}

theorem hexValue_of_value {c : Char} (h : Library.Base64.value c = some 6) :
    hexValue c = none := by
  unfold Library.Base64.value at h
  split at h
  · cases h
  · split at h
    · cases h
    · obtain ⟨hlt, hget, -⟩ := List.idxOf?_eq_some_iff.mp h
      have hall : ∀ h : 6 < Library.Base64.alphabet.length,
        hexValue Library.Base64.alphabet[6] = none := by decide +kernel
      exact hget ▸ hall hlt

theorem isHex_of_module (hw : IsModule w)
    (h : Library.Base64.values t = Library.Base64.values (Library.Base64.encode w)) :
    isHex t = false := by
  obtain ⟨rest, rfl⟩ := hw
  have hsix : 6 ∈ Library.Base64.values t := by
    rw [h]
    simp only [List.cons_append, Library.Base64.encode]
    rw [Library.Base64.values_digit (by decide), Library.Base64.values_digit (by decide)]
    exact List.mem_cons_of_mem _ List.mem_cons_self
  obtain ⟨c, hc, hvalue⟩ := List.mem_filterMap.mp hsix
  have hmem : c ∈ t := (List.takeWhile_sublist _).subset hc
  rw [isHex, Bool.and_eq_false_iff]
  right
  rw [List.all_eq_false]
  exact ⟨c, hmem, by rw [hexValue_of_value hvalue]; exact Bool.false_ne_true⟩

theorem module_ne_nil (hw : IsModule w) : w ≠ [] := by
  rintro rfl
  exact absurd (List.prefix_nil.mp hw) (List.cons_ne_nil _ _)

theorem decodeText_spells {s : String} (hw : IsModule w) (h : Spells s.toList w) :
    decodeText s = w := by
  have heven : s.toList.length % 2 = 0 := by
    rw [length_spells h]
    omega
  rw [decodeText, isHex_spells h (module_ne_nil hw), heven]
  exact hexDecode_spells h

theorem decodeText_values {s : String} (hw : IsModule w)
    (h : Library.Base64.values s.toList =
      Library.Base64.values (Library.Base64.encode w)) : decodeText s = w := by
  have hdecode : Library.Base64.decode s.toList = w := by
    rw [Library.Base64.decode, h]
    exact Library.Base64.decode_encode w
  have hpos := List.length_pos_iff.mpr (module_ne_nil hw)
  rw [decodeText, isHex_of_module hw h, hdecode, if_neg (by simp), if_pos hpos]

theorem trim_empty : trim "" = "" := by decide +kernel

theorem resolve_text {s : String} (hgiven : input.wasmBuffer.or input.wasm = some (.text s))
    (hfull : trim s ≠ "") (hfile : readFile (trim s) = none) :
    resolveWasmBuffer readFile input name = .ok (decodeText (trim s)) := by
  have hs : s ≠ "" := by
    rintro rfl
    exact hfull trim_empty
  unfold resolveWasmBuffer
  simp only [hgiven, if_neg hs, if_neg hfull, hfile, Option.getD_none]

theorem resolve_holds (hw : IsModule w) (hgiven : input.wasmBuffer.or input.wasm = some field)
    (hholds : Holds readFile field w) : resolveWasmBuffer readFile input name = .ok w := by
  have hpos := List.length_pos_iff.mpr (module_ne_nil hw)
  cases hholds with
  | buffer =>
    unfold resolveWasmBuffer
    simp only [hgiven, if_neg (Nat.ne_of_gt hpos)]
  | @hex s _ hfile hspells =>
    have hfull : trim s ≠ "" := by
      intro hempty
      rw [hempty] at hspells
      have hlength := length_spells hspells
      simp only [String.toList_empty, List.length_nil] at hlength
      omega
    rw [resolve_text hgiven hfull hfile, decodeText_spells hw hspells]
  | @base64 s _ hfile hvalues =>
    have hfull : trim s ≠ "" := by
      intro hempty
      have hdecode := Library.Base64.decode_encode w
      rw [Library.Base64.decode, ← hvalues, hempty] at hdecode
      exact module_ne_nil hw hdecode.symm
    rw [resolve_text hgiven hfull hfile, decodeText_values hw hvalues]

theorem deployInputSchema_ok (h : deployInputSchema raw = .ok input) :
    input.wasmBuffer.or input.wasm = raw.given ∧ actionOf raw.action = .ok input.action ∧
      wasmHashOf raw.wasmHash = .ok input.wasmHash := by
  unfold deployInputSchema at h
  dsimp only at h
  split at h
  · cases h
    exact ⟨rfl, ‹_›, ‹_›⟩
  · cases h

theorem deployInputSchema_withBytes (hgiven : raw.given = some field)
    (hholds : Holds readFile field w) (bytes : List UInt8) :
    deployInputSchema (raw.withBytes bytes) =
      (deployInputSchema raw).map fun input => input.withBytes bytes := by
  have hgood : ∀ name, wasmIssues name (some field) = [] := by
    intro name
    cases hholds <;> rfl
  have hbytes : ∀ name, wasmIssues name (some (.buffer bytes)) = [] := fun _ => rfl
  obtain ⟨action, wasm, wasmBuffer, wasmHash⟩ := raw
  cases wasmBuffer with
  | none =>
    obtain rfl : wasm = some field := hgiven
    simp only [RawDeploy.withBytes, deployInputSchema, hgood, hbytes]
    split
    · rfl
    · rfl
  | some given =>
    obtain rfl : given = field := Option.some.inj hgiven
    simp only [RawDeploy.withBytes, deployInputSchema, hgood, hbytes]
    split
    · rfl
    · rfl

theorem withBytes_given (input : DeployInput) (bytes : List UInt8)
    (h : input.wasmBuffer.or input.wasm = some field) :
    (input.withBytes bytes).wasmBuffer.or (input.withBytes bytes).wasm =
      some (.buffer bytes) := by
  obtain ⟨action, wasm, wasmBuffer, wasmHash⟩ := input
  cases wasmBuffer <;> rfl

@[simp] theorem withBytes_action (input : DeployInput) (bytes : List UInt8) :
    (input.withBytes bytes).action = input.action := by
  unfold DeployInput.withBytes
  split <;> rfl

@[simp] theorem withBytes_wasmHash (input : DeployInput) (bytes : List UInt8) :
    (input.withBytes bytes).wasmHash = input.wasmHash := by
  unfold DeployInput.withBytes
  split <;> rfl

theorem execute_withBytes (sv : Server) (hw : IsModule w) (hgiven : raw.given = some field)
    (hholds : Holds readFile field w) :
    execute readFile sv (raw.withBytes w) = execute readFile sv raw := by
  unfold execute
  rw [deployInputSchema_withBytes hgiven hholds]
  cases hschema : deployInputSchema raw with
  | error issues => rfl
  | ok input =>
    have hfield := (deployInputSchema_ok hschema).1
    rw [hgiven] at hfield
    have hsame : ∀ name, resolveWasmBuffer readFile (input.withBytes w) name =
        resolveWasmBuffer readFile input name := by
      intro name
      rw [resolve_holds hw hfield hholds,
        resolve_holds hw (withBytes_given input w hfield) (.buffer w)]
    simp only [Except.map, hsame, withBytes_action, withBytes_wasmHash]

theorem actionOf_ok {action : Option String} {a : Action} (h : actionOf action = .ok a) :
    action = some a.name := by
  unfold actionOf at h
  split at h <;> first | cases h; rfl | cases h

theorem wasmHashOf_ok {f : Option Field} {wasmHash : Option String}
    (h : wasmHashOf f = .ok wasmHash) : wasmHash.map .text = f := by
  unfold wasmHashOf at h
  split at h <;> first | cases h; rfl | cases h

theorem upload_calls (sv : Server) (w : List UInt8) : (upload sv w).2 = sv.uploads w := by
  unfold upload Server.uploads
  cases sv.uploadContractWasm <;> rfl

theorem instantiate_calls (sv : Server) (wasmHash : String) :
    (instantiate sv wasmHash).2 = sv.instances wasmHash := by
  unfold instantiate Server.instances
  by_cases hblank : trim wasmHash = ""
  · simp [hblank]
  · cases sv.createContractFromWasm <;> simp [hblank]

theorem required_instances (names : List String) (message : String) (r : Except String Reply) :
    (required names message r).toOption.toList.flatMap sv.instances =
      (r.toOption.map (Reply.named names)).toList.flatMap sv.instances := by
  cases r with
  | error e => rfl
  | ok reply =>
    unfold required
    dsimp only
    by_cases hempty : reply.named names = ""
    · simp [hempty, Except.toOption, Server.instances, trim_empty]
    · rw [if_neg hempty]
      rfl

theorem upload_instances (sv : Server) (w : List UInt8) :
    (upload sv w).1.toOption.toList.flatMap sv.instances =
      (sv.given w).toList.flatMap sv.instances := by
  unfold upload Server.given
  cases hupload : sv.uploadContractWasm with
  | none => rfl
  | some send => exact required_instances ..

theorem deploy_calls (sv : Server) (w : List UInt8) :
    (deploy sv w).2 = sv.uploads w ++ (sv.given w).toList.flatMap sv.instances := by
  rw [← upload_calls, ← upload_instances]
  unfold deploy
  generalize upload sv w = out
  obtain ⟨answer, calls⟩ := out
  cases answer with
  | error e => simp [Except.toOption]
  | ok wasmHash => simp [Except.toOption, instantiate_calls]

theorem execute_calls (sv : Server) (hw : IsModule w) (hgiven : raw.given = some field)
    (hholds : Holds readFile field w) :
    (execute readFile sv raw).2 = if (deployInputSchema raw).isOk then due sv raw w else [] := by
  unfold execute
  cases hschema : deployInputSchema raw with
  | error issues => rfl
  | ok input =>
    obtain ⟨hfield, haction, hhash⟩ := deployInputSchema_ok hschema
    rw [hgiven] at hfield
    have hname := actionOf_ok haction
    change _ = due sv raw w
    rw [due]
    dsimp only
    cases hkind : input.action with
    | upload =>
      rw [hkind] at hname
      simp only [hname, Action.name, resolve_holds hw hfield hholds, upload_calls]
    | instantiate =>
      rw [hkind] at hname
      simp only [hname, Action.name]
      rw [← wasmHashOf_ok hhash]
      split
      · rename_i hnone
        rw [hnone]
        rfl
      · rename_i hempty
        rw [hempty]
        simp [Server.instances, trim_empty]
      · rename_i hsome
        rw [hsome]
        exact instantiate_calls ..
    | deploy =>
      rw [hkind] at hname
      simp only [hname, Action.name, resolve_holds hw hfield hholds, deploy_calls]

/-- However a module is given, what is done with it is what is done with its bytes: on an upload or
a deployment these are sent, once and nothing else, and only the hash that this gave is
instantiated. -/
theorem module_deployed (readFile : String → Option (List UInt8)) (sv : Server) {raw : RawDeploy}
    {field : Field} {w : List UInt8} (hw : IsModule w) (hgiven : raw.given = some field)
    (hholds : Holds readFile field w) :
    execute readFile sv raw = execute readFile sv (raw.withBytes w) ∧
      (execute readFile sv raw).2 = if (deployInputSchema raw).isOk then due sv raw w else [] :=
  ⟨(execute_withBytes sv hw hgiven hholds).symm, execute_calls sv hw hgiven hholds⟩

theorem module_deployed_base64 :
    let sv : Server := ⟨some fun _ => .ok (.text "a1b2"), some fun _ => .ok (.text "CDPV")⟩
    let raw : RawDeploy := ⟨some "deploy", some (.text " AGFzbQEA\nAAA\n"), none, none⟩
    let w : List UInt8 := [0x00, 0x61, 0x73, 0x6d, 0x01, 0x00, 0x00, 0x00]
    (execute (fun _ => none) sv raw).2 =
      [.uploadContractWasm w, .createContractFromWasm "a1b2"] :=
  (module_deployed (fun _ => none) _ ⟨[0x01, 0x00, 0x00, 0x00], rfl⟩ rfl
    (.base64 rfl (by decide +kernel))).2.trans (by decide +kernel)

/-- Base64 of other bytes may be taken for hexadecimal digits. -/
example : Library.Base64.decode "abcd".toList = [0x69, 0xb7, 0x1d] ∧
    decodeText "abcd" = [0xab, 0xcd] := by decide +kernel

end PayFi.Tools.SorobanDeploy
