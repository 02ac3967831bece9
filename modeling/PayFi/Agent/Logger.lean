import PayFi.Agent.Secrets
import PayFi.Library.Objects

namespace PayFi.Agent.Logger

open Library.Words Library.JsonText Library.JsonWords Library.Objects
open Redaction (IsKey HasKey keys)
open Secrets (redactKeys)

inductive LogLevel where
  | debug
  | info
  | warn
  | error
  deriving DecidableEq

def LogLevel.name : LogLevel → String
  | .debug => "debug"
  | .info => "info"
  | .warn => "warn"
  | .error => "error"

def LOG_LEVELS : LogLevel → ℕ
  | .debug => 0
  | .info => 1
  | .warn => 2
  | .error => 3

/-- A moment in UTC. -/
structure Moment where
  year : ℤ
  month : ℕ
  day : ℕ
  hours : ℕ
  minutes : ℕ
  seconds : ℕ
  milliseconds : ℕ

def padded (width n : ℕ) : List Char := (Nat.toDigits 10 n).leftpad width '0'

def yearText (year : ℤ) : List Char :=
  if 0 ≤ year ∧ year ≤ 9999 then padded 4 year.natAbs
  else (if year < 0 then '-' else '+') :: padded 6 year.natAbs

def toISOString (t : Moment) : String :=
  String.ofList (yearText t.year ++ '-' :: padded 2 t.month ++ '-' :: padded 2 t.day ++
    'T' :: padded 2 t.hours ++ ':' :: padded 2 t.minutes ++ ':' :: padded 2 t.seconds ++
    '.' :: padded 3 t.milliseconds ++ ['Z'])

mutual

def redactSecrets : Json → Json
  | .string value => .string (redactKeys value)
  | .array values => .array (redactAll values)
  | .object entries => .object (redactEntries entries)
  | value => value

def redactAll : List Json → List Json
  | [] => []
  | value :: values => redactSecrets value :: redactAll values

/-- The assignment to `__proto__` makes no property. -/
def redactEntries : List (String × Json) → List (String × Json)
  | [] => []
  | (key, val) :: entries =>
    if key = "__proto__" then redactEntries entries
    else (key, redactSecrets val) :: redactEntries entries

end

inductive Stream where
  | stdout
  | stderr
  deriving DecidableEq

structure Written where
  stream : Stream
  output : String

def fields (level : LogLevel) (now : Moment) (message : String) : List (String × Json) :=
  [("level", .string level.name),
   ("timestamp", .string (toISOString now)),
   ("message", redactSecrets (.string message))]

def entry (level : LogLevel) (now : Moment) (message : String) (metadata : Object Json) : Json :=
  .object (spread (fields level now message) (redactEntries metadata.entries))

/-- What is written, if the level is not below the current one. -/
def log (CURRENT_LEVEL level : LogLevel) (now : Moment) (message : String)
    (metadata : Object Json := .empty) : Option Written :=
  if LOG_LEVELS level < LOG_LEVELS CURRENT_LEVEL then none
  else
    some ⟨if level = .error then .stderr else .stdout,
      String.ofList (print (entry level now message metadata))⟩

mutual

/-- The keys of a document's objects, which are not redacted. -/
def keysOf : Json → List String
  | .array values => keysOfAll values
  | .object entries => keysOfEntries entries
  | _ => []

def keysOfAll : List Json → List String
  | [] => []
  | value :: values => keysOf value ++ keysOfAll values

/-- What stands under `__proto__` is lost with it. -/
def keysOfEntries : List (String × Json) → List String
  | [] => []
  | (key, val) :: entries =>
    if key = "__proto__" then keysOfEntries entries
    else key :: (keysOf val ++ keysOfEntries entries)

end

mutual

theorem among_redactSecrets : ∀ value : Json,
    Among keys (texts (redactSecrets value)) ↔ Among keys (keysOf value)
  | .null | .boolean _ | .number _ => Iff.rfl
  | .string value =>
    iff_of_false (fun h => Secrets.not_hasKey_redactKeys value (among_singleton.mp h)) among_nil
  | .array values => by
    rw [redactSecrets, texts, keysOf]
    exact among_redactAll values
  | .object entries => by
    rw [redactSecrets, texts, keysOf]
    exact among_redactEntries entries

theorem among_redactAll : ∀ values : List Json,
    Among keys (textsOfAll (redactAll values)) ↔ Among keys (keysOfAll values)
  | [] => Iff.rfl
  | value :: values => by
    rw [redactAll, textsOfAll, keysOfAll, among_append, among_append, among_redactSecrets value,
      among_redactAll values]

theorem among_redactEntries : ∀ entries : List (String × Json),
    Among keys (textsOfEntries (redactEntries entries)) ↔ Among keys (keysOfEntries entries)
  | [] => Iff.rfl
  | (key, val) :: entries => by
    rw [redactEntries, keysOfEntries]
    split
    · exact among_redactEntries entries
    · rw [textsOfEntries, among_cons, among_cons, among_append, among_append,
        among_redactSecrets val, among_redactEntries entries]

end

theorem starts_padded (width n : ℕ) : (padded width n).any keys.starts = false := by
  refine List.any_eq_false.mpr fun c hc hstarts => ?_
  rw [of_decide_eq_true hstarts, padded, List.leftpad, List.mem_append] at hc
  obtain hzero | hdigit := hc
  · exact absurd (List.eq_of_mem_replicate hzero) (by decide)
  · exact absurd (Nat.isDigit_of_mem_toDigits (by decide) (by decide) hdigit) (by decide)

theorem starts_yearText (year : ℤ) : (yearText year).any keys.starts = false := by
  unfold yearText
  split
  · exact starts_padded 4 year.natAbs
  · rw [List.any_cons, starts_padded, Bool.or_false]
    split <;> decide

theorem starts_toISOString (t : Moment) : (toISOString t).toList.any keys.starts = false := by
  have hmarks : ['-', 'T', ':', '.', 'Z'].any keys.starts = false := by decide
  simp only [List.any_cons, Bool.or_eq_false_iff] at hmarks
  obtain ⟨hdash, htime, hcolon, hpoint, hzone, -⟩ := hmarks
  simp only [toISOString, String.toList_ofList, List.any_append, List.any_cons, List.any_nil,
    starts_yearText, starts_padded, hdash, htime, hcolon, hpoint, hzone, Bool.or_self]

theorem not_hasKey_toISOString (t : Moment) : ¬HasKey (toISOString t).toList :=
  not_occurs_of_starts (V := keys) (eq_false_of_any (starts_toISOString t))

theorem not_hasKey_name (level : LogLevel) : ¬HasKey level.name.toList := by
  apply not_occurs_name Secrets.foreign_keys
  cases level <;> decide

theorem sublist_redactEntries : ∀ entries : List (String × Json),
    ((redactEntries entries).map Prod.fst).Sublist (entries.map Prod.fst)
  | [] => .slnil
  | (key, val) :: entries => by
    rw [redactEntries]
    split
    · exact (sublist_redactEntries entries).cons key
    · exact (sublist_redactEntries entries).cons_cons key

theorem field_without_key (name : String) (hname : name.toList.all Char.isLower = true)
    {text : String} (htext : ¬HasKey text.toList) :
    ¬(HasKey name.toList ∨ Among keys (texts (.string text))) :=
  not_or.mpr ⟨not_occurs_name Secrets.foreign_keys hname, fun h => htext (among_singleton.mp h)⟩

theorem fields_without_key (level : LogLevel) (now : Moment) (message : String) :
    ∀ e ∈ fields level now message, ¬(HasKey e.1.toList ∨ Among keys (texts e.2)) := by
  intro e he
  simp only [fields, List.mem_cons, List.not_mem_nil, or_false] at he
  rcases he with rfl | rfl | rfl
  · exact field_without_key "level" (by decide) (not_hasKey_name level)
  · exact field_without_key "timestamp" (by decide) (not_hasKey_toISOString now)
  · exact field_without_key "message" (by decide) (Secrets.not_hasKey_redactKeys message)

theorem hasKey_entry (level : LogLevel) (now : Moment) (message : String)
    (metadata : Object Json) : HasKey (print (entry level now message metadata)) ↔
      Among keys (keysOf (.object metadata.entries)) := by
  have hdistinct := metadata.distinct.sublist (sublist_redactEntries metadata.entries)
  calc HasKey (print (entry level now message metadata))
    _ ↔ Among keys (texts (entry level now message metadata)) := occurs_print Secrets.foreign_keys _
    _ ↔ ∃ e ∈ spread (fields level now message) (redactEntries metadata.entries),
        HasKey e.1.toList ∨ Among keys (texts e.2) := among_entries
    _ ↔ ∃ e ∈ redactEntries metadata.entries, HasKey e.1.toList ∨ Among keys (texts e.2) :=
      exists_mem_spread (fields_without_key level now message) hdistinct
    _ ↔ Among keys (keysOf (.object metadata.entries)) :=
      among_entries.symm.trans (among_redactEntries metadata.entries)

/-- A written line is without a key exactly when the keys of the objects in its metadata are. -/
theorem log_without_key_iff (CURRENT_LEVEL level : LogLevel) (now : Moment) (message : String)
    (metadata : Object Json) :
    (∀ written, log CURRENT_LEVEL level now message metadata = some written →
        ¬HasKey written.output.toList) ↔
      LOG_LEVELS level < LOG_LEVELS CURRENT_LEVEL ∨
        ∀ key ∈ keysOf (.object metadata.entries), ¬HasKey key.toList := by
  have hentry := hasKey_entry level now message metadata
  unfold log
  split
  · rename_i hbelow
    exact iff_of_true nofun (.inl hbelow)
  · rename_i hlevel
    simp only [Option.some.injEq, forall_eq', String.toList_ofList, hentry, hlevel, false_or]
    exact not_exists.trans (forall_congr' fun key => not_and)

/-- A key of an object is written as it is. -/
theorem log_with_key :
    let key := "SCZANGBA5XTONSYOA7ZOMCLMQBZAVOZRJHSBXAVLMVZ5BFXAOLL5OQUD"
    let metadata : Object Json :=
      ⟨[("accounts", .object [(key, .string key)])],
        List.nodup_cons.mpr ⟨List.not_mem_nil, List.nodup_nil⟩⟩
    ∃ written, log .info .info ⟨2026, 1, 31, 12, 0, 0, 5⟩ "Accounts loaded" metadata =
        some written ∧ HasKey written.output.toList := by
  intro key metadata
  have hkey : IsKey key.toList := by decide +kernel
  refine ⟨_, rfl, ?_⟩
  rw [String.toList_ofList, hasKey_entry]
  exact ⟨key, List.mem_cons_of_mem _ List.mem_cons_self, key.toList, List.infix_rfl, hkey⟩

end PayFi.Agent.Logger
