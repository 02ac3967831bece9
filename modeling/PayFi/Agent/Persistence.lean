import Mathlib.Data.List.Sort
import PayFi.Agent.Errors
import PayFi.Library.JsonText
import PayFi.Library.Numbers
import PayFi.Library.Results

namespace PayFi.Agent.Persistence

open Library.JsonText Library.Numbers Library.Results Errors
open Library.JsonTokens (Literal)

mutual

def ofJson : Json → Value
  | .null => .null
  | .boolean b => .boolean b
  | .number n => .number (some (String.ofList n.text))
  | .string s => .string s
  | .array vs => .array (ofJsonAll vs)
  | .object entries => .object (ofJsonEntries entries)

def ofJsonAll : List Json → List Value
  | [] => []
  | v :: vs => ofJson v :: ofJsonAll vs

def ofJsonEntries : List (String × Json) → List (String × Value)
  | [] => []
  | (key, v) :: entries => (key, ofJson v) :: ofJsonEntries entries

end

/-- `JSON.parse`, which throws on a text that is no document. -/
def parseJSON (text : String) : Except Unit Value :=
  match parse text.toList with
  | some v => .ok (ofJson v)
  | none => .error ()

theorem ofJson_ne_function (v : Json) (answer : Except Unit (Option String)) :
    ofJson v ≠ .function answer := by
  cases v <;> simp [ofJson]

theorem toJSON_ofJsonEntries (entries : List (String × Json)) :
    toJSON (ofJsonEntries entries) = none := by
  induction entries with
  | nil => rfl
  | cons e entries ih =>
    rw [toJSON] at ih ⊢
    rw [ofJsonEntries, List.findSome?_cons, ih]
    split
    · rename_i b heq
      split at heq
      · rename_i answer hentry
        exact absurd (Prod.mk.inj hentry).2 (ofJson_ne_function e.2 answer)
      · cases heq
    · rfl

mutual

theorem stringify_ofJson : ∀ v : Json, stringify (ofJson v) = .ok (some (String.ofList (print v)))
  | .null => rfl
  | .boolean true => rfl
  | .boolean false => rfl
  | .number n => rfl
  | .string s => rfl
  | .array vs => by
    have htext : "[" ++ ",".intercalate ((printAll vs).map String.ofList) ++ "]" =
        String.ofList (print (.array vs)) := by
      apply String.toList_inj.mp
      simp [print]
    rw [ofJson, stringify, stringifyAll_ofJson vs, ← htext]
    rfl
  | .object entries => by
    have htext : "\x7b" ++ ",".intercalate ((printEntries entries).map String.ofList) ++ "\x7d" =
        String.ofList (print (.object entries)) := by
      apply String.toList_inj.mp
      simp [print]
    rw [ofJson, stringify, toJSON_ofJsonEntries, stringifyEntries_ofJson entries, ← htext]
    rfl

theorem stringifyAll_ofJson : ∀ vs : List Json,
    stringifyAll (ofJsonAll vs) = .ok ((printAll vs).map String.ofList)
  | [] => rfl
  | v :: vs => by
    rw [ofJsonAll, stringifyAll, stringify_ofJson v, stringifyAll_ofJson vs]
    rfl

theorem stringifyEntries_ofJson : ∀ entries : List (String × Json),
    stringifyEntries (ofJsonEntries entries) = .ok ((printEntries entries).map String.ofList)
  | [] => rfl
  | (key, v) :: entries => by
    have htext : Errors.quote key ++ ":" ++ String.ofList (print v) =
        String.ofList (Library.JsonTokens.quote key.toList ++ ':' :: print v) := by
      apply String.toList_inj.mp
      have hquote : (Errors.quote key).toList = Library.JsonTokens.quote key.toList :=
        String.toList_ofList
      simp [hquote]
    rw [ofJsonEntries, stringifyEntries, stringify_ofJson v, stringifyEntries_ofJson entries,
      printEntries, List.map_cons, ← htext]
    rfl

end

/-- Data that `JSON.stringify` and `JSON.parse` take for a document. -/
def Serialisable (v : Value) : Prop := ∃ d, v = ofJson d

theorem parseJSON_stringify {v : Value} (h : Serialisable v) :
    ∃ text, stringify v = .ok (some text) ∧ parseJSON text = .ok v := by
  obtain ⟨d, rfl⟩ := h
  refine ⟨String.ofList (print d), stringify_ofJson d, ?_⟩
  rw [parseJSON, String.toList_ofList, parse_print]

structure Columns where
  timestamp : String
  taskType : String
  success : ℤ
  data : Option String
  error : Option String
  correlationId : Option String
  deriving DecidableEq

structure Row where
  id : ℕ
  columns : Columns
  deriving DecidableEq

/-- The table `agent_results`; an id is given once, and each is greater than those before. -/
structure Table where
  rows : List Row
  sequence : ℕ
  increasing : rows.Pairwise fun r s => r.id < s.id
  bounded : ∀ r ∈ rows, r.id ≤ sequence

def Table.empty : Table := ⟨[], 0, .nil, nofun⟩

def Table.insert (t : Table) (c : Columns) : Table where
  rows := t.rows ++ [⟨t.sequence + 1, c⟩]
  sequence := t.sequence + 1
  increasing := by
    apply List.pairwise_append.mpr
    refine ⟨t.increasing, List.pairwise_singleton .., fun r hr s hs => ?_⟩
    rw [List.mem_singleton.mp hs]
    exact Nat.lt_succ_of_le (t.bounded r hr)
  bounded := by
    refine List.forall_mem_append.mpr ⟨fun r hr => Nat.le_succ_of_le (t.bounded r hr), ?_⟩
    intro r hr
    rw [List.mem_singleton.mp hr]

/-- `SELECT … ORDER BY id DESC LIMIT ? OFFSET ?`. -/
def Table.select (t : Table) (limit offset : ℕ) : List Columns :=
  (((t.rows.mergeSort fun r s => s.id ≤ r.id).drop offset).take limit).map Row.columns

def Table.columns (t : Table) : List Columns := t.rows.map Row.columns

theorem id_injective (t : Table) {r s : Row} (hr : r ∈ t.rows) (hs : s ∈ t.rows)
    (h : r.id = s.id) : r = s := by
  have hnodup : (t.rows.map Row.id).Nodup :=
    List.pairwise_map.mpr (t.increasing.imp fun hlt => hlt.ne)
  exact List.inj_on_of_nodup_map hnodup hr hs h

theorem mergeSort_rows (t : Table) :
    (t.rows.mergeSort fun r s => s.id ≤ r.id) = t.rows.reverse := by
  have hsorted := @List.pairwise_mergeSort Row (fun r s => s.id ≤ r.id)
    (fun r s u hrs hsu => by simp only [decide_eq_true_eq] at *; omega)
    (fun r s => by simp only [Bool.or_eq_true, decide_eq_true_eq]; omega) t.rows
  have hreverse : t.rows.reverse.Pairwise fun r s => decide (s.id ≤ r.id) = true := by
    apply List.pairwise_reverse.mpr
    exact t.increasing.imp fun h => decide_eq_true h.le
  have hperm := (List.mergeSort_perm t.rows fun r s => s.id ≤ r.id).trans
    (List.reverse_perm t.rows).symm
  refine hperm.eq_of_pairwise (fun r s hr hs hrs hsr => ?_) hsorted hreverse
  simp only [decide_eq_true_eq] at hrs hsr
  exact id_injective t (List.mem_mergeSort.mp hr) (List.mem_reverse.mp hs) (by omega)

theorem select_eq (t : Table) (limit offset : ℕ) :
    t.select limit offset = (t.columns.reverse.drop offset).take limit := by
  rw [Table.select, mergeSort_rows, List.map_take, List.map_drop, List.map_reverse]
  rfl

/-- A result of the agent with its timestamp; data that is missing is `undefined`. -/
structure PersistedResult where
  timestamp : String
  success : Bool
  taskType : String
  data : Value
  error : Option String
  errorType : Option String
  correlationId : Option String
  durationMs : Option Number
  sequenceIndex : Option Number

def dataText : Value → Except Unit (Option String)
  | .undefined => .ok none
  | v => stringify v

def columnsOf (result : PersistedResult) (data : Option String) : Columns where
  timestamp := result.timestamp
  taskType := result.taskType
  success := if result.success then 1 else 0
  data := data
  error := result.error
  correlationId := result.correlationId

def saveResult (t : Table) (result : PersistedResult) : Except Unit Table := do
  let data ← dataText result.data
  return t.insert (columnsOf result data)

def dataOf : Option String → Except Unit Value
  | some text => parseJSON text
  | none => .ok .undefined

def resultOf (r : Columns) : Except Unit PersistedResult := do
  let data ← dataOf r.data
  return {
    timestamp := r.timestamp
    success := r.success = 1
    taskType := r.taskType
    data := data
    error := r.error
    errorType := none
    correlationId := r.correlationId
    durationMs := none
    sequenceIndex := none }

def getResults (t : Table) (limit offset : Option ℕ) : Except Unit (List PersistedResult) :=
  (t.select (limit.getD 100) (offset.getD 0)).mapM resultOf

/-- The results are saved one after the other. -/
def saveResults (t : Table) (results : List PersistedResult) : Except Unit Table :=
  results.foldlM saveResult t

def kept (r : PersistedResult) : PersistedResult :=
  { r with errorType := none, durationMs := none, sequenceIndex := none }

variable {t : Table} {r : PersistedResult} {results : List PersistedResult}

theorem dataOf_dataText {v : Value} (h : v = .undefined ∨ Serialisable v) :
    ∃ data, dataText v = .ok data ∧ dataOf data = .ok v := by
  rcases h with rfl | hv
  · exact ⟨none, rfl, rfl⟩
  · obtain ⟨text, htext, hparse⟩ := parseJSON_stringify hv
    refine ⟨some text, ?_, hparse⟩
    unfold dataText
    split
    · rw [stringify] at htext
      cases htext
    · exact htext

theorem resultOf_columnsOf {data : Option String} (h : dataOf data = .ok r.data) :
    resultOf (columnsOf r data) = .ok (kept r) := by
  have hsuccess : decide ((columnsOf r data).success = 1) = r.success := by
    unfold columnsOf
    cases r.success <;> rfl
  have hdata : dataOf (columnsOf r data).data = .ok r.data := h
  rw [resultOf, hdata, hsuccess]
  rfl

theorem saveResult_ok (t : Table) (h : r.data = .undefined ∨ Serialisable r.data) :
    ∃ c, saveResult t r = .ok (t.insert c) ∧ resultOf c = .ok (kept r) := by
  obtain ⟨data, hdata, hback⟩ := dataOf_dataText h
  refine ⟨columnsOf r data, ?_, resultOf_columnsOf hback⟩
  rw [saveResult, hdata]
  rfl

theorem columns_insert (t : Table) (c : Columns) : (t.insert c).columns = t.columns ++ [c] := by
  rw [Table.columns, Table.insert, List.map_append]
  rfl

theorem saveResults_ok (t : Table)
    (h : ∀ r ∈ results, r.data = .undefined ∨ Serialisable r.data) :
    ∃ t' cs, saveResults t results = .ok t' ∧ t'.columns = t.columns ++ cs ∧
      List.Forall₂ (fun c r => resultOf c = .ok (kept r)) cs results := by
  induction results generalizing t with
  | nil => exact ⟨t, [], rfl, (List.append_nil _).symm, .nil⟩
  | cons r rs ih =>
    obtain ⟨c, hsave, hc⟩ := saveResult_ok t (h r List.mem_cons_self)
    obtain ⟨t', cs, hsaves, hcolumns, hcs⟩ :=
      ih (t.insert c) fun s hs => h s (List.mem_cons_of_mem r hs)
    refine ⟨t', c :: cs, ?_, ?_, .cons hc hcs⟩
    · rw [saveResults, List.foldlM_cons, hsave]
      exact hsaves
    · rw [hcolumns, columns_insert, List.append_assoc]
      rfl

/-- The results from an offset on, the last one saved first. -/
def slice (results : List PersistedResult) (limit offset : Option ℕ) : List PersistedResult :=
  (results.reverse.drop (offset.getD 0)).take (limit.getD 100)

theorem getResults_saveResults (limit offset : Option ℕ)
    (h : ∀ r ∈ results, r.data = .undefined ∨ Serialisable r.data) :
    ∃ t, saveResults .empty results = .ok t ∧
      getResults t limit offset = .ok ((slice results limit offset).map kept) := by
  obtain ⟨t, cs, hsave, hcolumns, hcs⟩ := saveResults_ok .empty h
  refine ⟨t, hsave, ?_⟩
  rw [getResults, select_eq, hcolumns, mapM_eq_ok, List.forall₂_map_right_iff]
  exact List.forall₂_take _ (List.forall₂_drop _ (List.rel_reverse hcs))

theorem kept_eq_iff : kept r = r ↔
    r.errorType = none ∧ r.durationMs = none ∧ r.sequenceIndex = none := by
  refine ⟨fun h => ?_, fun ⟨herror, hduration, hindex⟩ => ?_⟩
  · rw [← h]
    exact ⟨rfl, rfl, rfl⟩
  · cases r
    dsimp only at herror hduration hindex
    rw [kept, herror, hduration, hindex]

/-- The slice is read back as it was saved exactly when none of its results has a type of
error, a duration or an index. -/
theorem results_round_trip_iff (limit offset : Option ℕ)
    (h : ∀ r ∈ results, r.data = .undefined ∨ Serialisable r.data) :
    ∃ t, saveResults .empty results = .ok t ∧
      (getResults t limit offset = .ok (slice results limit offset) ↔
        ∀ r ∈ slice results limit offset,
          r.errorType = none ∧ r.durationMs = none ∧ r.sequenceIndex = none) := by
  obtain ⟨t, hsave, hget⟩ := getResults_saveResults limit offset h
  refine ⟨t, hsave, ?_⟩
  have hmap : (slice results limit offset).map kept = slice results limit offset ↔
      ∀ r ∈ slice results limit offset, kept r = r := by
    have hid := @List.map_inj_left _ _ (slice results limit offset) kept id
    rwa [List.map_id] at hid
  rw [hget, Except.ok.injEq, hmap]
  exact forall₂_congr fun r _ => kept_eq_iff

def executed : PersistedResult where
  timestamp := "2026-06-25T22:00:00.000Z"
  success := true
  taskType := "stellar_payment"
  data := .object [("txHash", .string "abc123")]
  error := none
  errorType := none
  correlationId := some "c-1"
  durationMs := none
  sequenceIndex := none

theorem serialisable_executed : Serialisable executed.data :=
  ⟨.object [("txHash", .string "abc123")], rfl⟩

def refused : PersistedResult :=
  { executed with
    success := false
    data := .undefined
    error := some "Destination not found"
    errorType := some "NOT_FOUND" }

theorem results_round_trip_two :
    ∃ t, saveResults .empty [refused, executed] = .ok t ∧
      (getResults t (some 1) none = .ok (slice [refused, executed] (some 1) none) ↔
        ∀ r ∈ slice [refused, executed] (some 1) none,
          r.errorType = none ∧ r.durationMs = none ∧ r.sequenceIndex = none) := by
  refine results_round_trip_iff (some 1) none (List.forall_mem_cons.mpr ⟨.inl rfl, ?_⟩)
  exact List.forall_mem_singleton.mpr (.inr serialisable_executed)

theorem type_of_error_lost :
    ∃ t, saveResults .empty [refused] = .ok t ∧ getResults t none none ≠ .ok [refused] := by
  have hdata : ∀ r ∈ [refused], r.data = .undefined ∨ Serialisable r.data :=
    List.forall_mem_singleton.mpr (.inl rfl)
  obtain ⟨t, hsave, hget⟩ := getResults_saveResults none none hdata
  refine ⟨t, hsave, fun h => ?_⟩
  rw [hget] at h
  have htypes := congrArg (List.map PersistedResult.errorType) (Except.ok.inj h)
  exact absurd htypes (by decide)

end PayFi.Agent.Persistence
