import Mathlib.Data.List.Basic
import Mathlib.Tactic.Common

namespace PayFi.Agent.Errors

/-- A value as far as `sanitizeCause` and `JSON.stringify` look into it. A number has its
decimal text, if it is finite; a function what `JSON.stringify` makes of its answer when it is
called as `toJSON`. A property may throw when it is read, or lead back to an enclosing object. -/
inductive Value where
  | undefined
  | null
  | boolean (b : Bool)
  | number (text : Option String)
  | string (s : String)
  | bigint
  | function (toJSON : Except Unit (Option String))
  | array (vs : List Value)
  | object (entries : List (String × Value))
  | throwing
  | cyclic

def sensitiveCauseKeys : List String := ["secretKey", "privateKey", "seed", "_secretKey"]

def Value.isThrowing : Value → Bool
  | .throwing => true
  | _ => false

/-- `Object.entries` reads every property before the loop starts. A `__proto__` that is
assigned does not become a property. -/
def entriesReadable (entries : List (String × Value)) : Except Unit Unit :=
  if entries.any fun e => e.2.isThrowing then .error () else .ok ()

mutual

def sanitizeCause : Value → Except Unit Value
  | .array vs => do return .array (← sanitizeAll vs)
  | .object entries => do
    entriesReadable entries
    return .object (← sanitizeEntries entries)
  | .throwing => .error ()
  | .cyclic => .error ()
  | v => .ok v

def sanitizeAll : List Value → Except Unit (List Value)
  | [] => .ok []
  | v :: vs => do
    let v ← sanitizeCause v
    return v :: (← sanitizeAll vs)

def sanitizeEntries : List (String × Value) → Except Unit (List (String × Value))
  | [] => .ok []
  | (key, value) :: entries =>
    if sensitiveCauseKeys.contains key then sanitizeEntries entries
    else do
      let value ← sanitizeCause value
      let entries ← sanitizeEntries entries
      return if key = "__proto__" then entries else (key, value) :: entries

end

/-- `v[key]`, which throws for `null` and `undefined`. -/
def Value.property (key : String) : Value → Except Unit Value
  | .undefined => .error ()
  | .null => .error ()
  | .object entries =>
    match entries.lookup key with
    | some .throwing => .error ()
    | some v => .ok v
    | none => .ok .undefined
  | _ => .ok .undefined

/-- `v?.[key]`. -/
def Value.optional (key : String) : Value → Except Unit Value
  | .undefined => .ok .undefined
  | .null => .ok .undefined
  | v => v.property key

mutual

/-- Every property can be read, and none leads back. -/
def Value.finite : Value → Bool
  | .array vs => finiteAll vs
  | .object entries => finiteEntries entries
  | .throwing => false
  | .cyclic => false
  | _ => true

def finiteAll : List Value → Bool
  | [] => true
  | v :: vs => v.finite && finiteAll vs

def finiteEntries : List (String × Value) → Bool
  | [] => true
  | (_, v) :: entries => v.finite && finiteEntries entries

end

theorem entriesReadable_of_finite {entries : List (String × Value)}
    (h : finiteEntries entries = true) : entriesReadable entries = .ok () := by
  have hany : entries.any (fun e => e.2.isThrowing) = false := by
    induction entries with
    | nil => rfl
    | cons e entries ih =>
      obtain ⟨key, v⟩ := e
      rw [finiteEntries, Bool.and_eq_true] at h
      rw [List.any_cons, ih h.2, Bool.or_false]
      cases v with
      | throwing => exact absurd h.1 (by simp [Value.finite])
      | _ => rfl
  rw [entriesReadable, hany]
  rfl

mutual

theorem sanitizeCause_of_finite {v : Value} (h : v.finite = true) :
    ∃ w, sanitizeCause v = .ok w := by
  cases v with
  | array vs =>
    rw [Value.finite] at h
    obtain ⟨ws, hws⟩ := sanitizeAll_of_finite vs h
    rw [sanitizeCause, hws]
    exact ⟨.array ws, rfl⟩
  | object entries =>
    rw [Value.finite] at h
    obtain ⟨ws, hws⟩ := sanitizeEntries_of_finite entries h
    rw [sanitizeCause, entriesReadable_of_finite h, hws]
    exact ⟨.object ws, rfl⟩
  | throwing => simp [Value.finite] at h
  | cyclic => simp [Value.finite] at h
  | _ => simp [sanitizeCause]

theorem sanitizeAll_of_finite : ∀ vs : List Value, finiteAll vs = true →
    ∃ ws, sanitizeAll vs = .ok ws
  | [], _ => ⟨[], rfl⟩
  | v :: vs, h => by
    rw [finiteAll, Bool.and_eq_true] at h
    obtain ⟨w, hw⟩ := sanitizeCause_of_finite h.1
    obtain ⟨ws, hws⟩ := sanitizeAll_of_finite vs h.2
    exact ⟨w :: ws, by rw [sanitizeAll, hw, hws]; rfl⟩

theorem sanitizeEntries_of_finite : ∀ entries : List (String × Value),
    finiteEntries entries = true → ∃ ws, sanitizeEntries entries = .ok ws
  | [], _ => ⟨[], rfl⟩
  | (key, v) :: entries, h => by
    rw [finiteEntries, Bool.and_eq_true] at h
    obtain ⟨w, hw⟩ := sanitizeCause_of_finite h.1
    obtain ⟨ws, hws⟩ := sanitizeEntries_of_finite entries h.2
    rw [sanitizeEntries]
    by_cases hkey : sensitiveCauseKeys.contains key = true
    · exact ⟨ws, by rw [if_pos hkey, hws]⟩
    · rw [if_neg hkey, hw, hws]
      exact ⟨_, rfl⟩

end

def hexDigits (n : ℕ) : List Char := [(n / 16 % 16).digitChar, (n % 16).digitChar]

def quoteChar (c : Char) : List Char :=
  if c = '"' then ['\\', '"']
  else if c = '\\' then ['\\', '\\']
  else if c = '\x08' then ['\\', 'b']
  else if c = '\t' then ['\\', 't']
  else if c = '\n' then ['\\', 'n']
  else if c = '\x0c' then ['\\', 'f']
  else if c = '\r' then ['\\', 'r']
  else if c.toNat < 32 then ['\\', 'u', '0', '0'] ++ hexDigits c.toNat
  else [c]

def quote (s : String) : String := String.ofList (['"'] ++ s.toList.flatMap quoteChar ++ ['"'])

def toJSON (entries : List (String × Value)) : Option (Except Unit (Option String)) :=
  entries.findSome? fun e =>
    match e with
    | ("toJSON", .function answer) => some answer
    | _ => none

mutual

/-- `JSON.stringify`, which has no text for `undefined` and functions. -/
def stringify : Value → Except Unit (Option String)
  | .undefined => .ok none
  | .function _ => .ok none
  | .null => .ok (some "null")
  | .boolean b => .ok (some (if b then "true" else "false"))
  | .number text => .ok (some (text.getD "null"))
  | .string s => .ok (some (quote s))
  | .array vs => do return some ("[" ++ ",".intercalate (← stringifyAll vs) ++ "]")
  | .object entries =>
    match toJSON entries with
    | some answer => answer
    | none => do return some ("\x7b" ++ ",".intercalate (← stringifyEntries entries) ++ "\x7d")
  | .bigint => .error ()
  | .throwing => .error ()
  | .cyclic => .error ()

def stringifyAll : List Value → Except Unit (List String)
  | [] => .ok []
  | v :: vs => do
    let text ← stringify v
    return text.getD "null" :: (← stringifyAll vs)

def stringifyEntries : List (String × Value) → Except Unit (List String)
  | [] => .ok []
  | (key, value) :: entries => do
    let text ← stringify value
    let texts ← stringifyEntries entries
    return match text with
      | none => texts
      | some text => (quote key ++ ":" ++ text) :: texts

end

/-- A thrown value: an error, a `StructuredError` with its cause, or anything else by its
`String` text. -/
inductive Thrown where
  | error (message : String)
  | structured (message : String) (cause : Value)
  | other (text : String)

def Thrown.message : Thrown → String
  | .error message => message
  | .structured message _ => message
  | .other text => text

/-- An undefined cause, and one that cannot be serialised, leaves the message alone. -/
def describeError : Thrown → String
  | .structured message .undefined => message
  | .structured message cause =>
    match sanitizeCause cause >>= stringify with
    | .ok (some context) => message ++ " | context: " ++ context
    | _ => message
  | err => err.message

example : describeError (.structured "Denied" (.object [("signer", .string "GABC"),
    ("secretKey", .string "SABC"), ("expected", .array [.number (some "2"), .undefined])])) =
    "Denied | context: \x7b\"signer\":\"GABC\",\"expected\":[2,null]\x7d" := by decide +kernel

end PayFi.Agent.Errors
