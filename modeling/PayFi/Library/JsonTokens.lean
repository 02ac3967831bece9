import Mathlib.Data.List.TakeWhile
import Mathlib.Data.Nat.Basic
import Mathlib.Tactic.Common

namespace PayFi.Library.JsonTokens

def isNumberChar (c : Char) : Bool := c.isDigit || ['-', '+', '.', 'e', 'E'].contains c

def digits (cs : List Char) : Option (List Char) :=
  if cs.takeWhile Char.isDigit = [] then none else some (cs.dropWhile Char.isDigit)

def whole : List Char → Option (List Char)
  | '0' :: cs => some cs
  | cs => digits cs

def fraction : List Char → Option (List Char)
  | '.' :: cs => digits cs
  | cs => some cs

def exponent : List Char → Option (List Char)
  | 'e' :: '+' :: cs | 'e' :: '-' :: cs | 'E' :: '+' :: cs | 'E' :: '-' :: cs => digits cs
  | 'e' :: cs | 'E' :: cs => digits cs
  | cs => some cs

def unsigned : List Char → List Char
  | '-' :: cs => cs
  | cs => cs

def isNumber (cs : List Char) : Bool :=
  ((whole (unsigned cs)).bind fraction).bind exponent = some []

structure Literal where
  text : List Char
  valid : isNumber text = true
  deriving DecidableEq

/-- `rest` follows some characters of a number. -/
def Takes (cs rest : List Char) : Prop :=
  ∃ ds, cs = ds ++ rest ∧ ∀ d ∈ ds, isNumberChar d = true

variable {cs ds rest : List Char} {c : Char}

theorem Takes.refl (cs : List Char) : Takes cs cs := ⟨[], rfl, nofun⟩

theorem Takes.cons (hc : isNumberChar c = true) (h : Takes cs rest) : Takes (c :: cs) rest := by
  obtain ⟨ds, rfl, hds⟩ := h
  exact ⟨c :: ds, rfl, List.forall_mem_cons.mpr ⟨hc, hds⟩⟩

theorem Takes.trans (h : Takes cs ds) (h' : Takes ds rest) : Takes cs rest := by
  obtain ⟨es, rfl, hes⟩ := h
  obtain ⟨fs, rfl, hfs⟩ := h'
  exact ⟨es ++ fs, (List.append_assoc ..).symm, List.forall_mem_append.mpr ⟨hes, hfs⟩⟩

theorem takes_digits (h : digits cs = some rest) : Takes cs rest := by
  unfold digits at h
  split at h
  · cases h
  · cases h
    refine ⟨cs.takeWhile Char.isDigit, List.takeWhile_append_dropWhile.symm, fun d hd => ?_⟩
    rw [isNumberChar, List.mem_takeWhile_imp hd]
    rfl

theorem takes_whole (h : whole cs = some rest) : Takes cs rest := by
  unfold whole at h
  split at h
  · cases h
    exact (Takes.refl _).cons (by decide)
  · exact takes_digits h

theorem takes_fraction (h : fraction cs = some rest) : Takes cs rest := by
  unfold fraction at h
  split at h
  · exact (takes_digits h).cons (by decide)
  · cases h
    exact Takes.refl _

theorem takes_exponent (h : exponent cs = some rest) : Takes cs rest := by
  unfold exponent at h
  split at h
  all_goals first
    | exact ((takes_digits h).cons (by decide)).cons (by decide)
    | exact (takes_digits h).cons (by decide)
    | cases h; exact Takes.refl _

theorem takes_unsigned (cs : List Char) : Takes cs (unsigned cs) := by
  unfold unsigned
  split
  · exact (Takes.refl _).cons (by decide)
  · exact Takes.refl _

theorem isNumberChar_of_mem (h : isNumber cs = true) : ∀ c ∈ cs, isNumberChar c = true := by
  have h := of_decide_eq_true h
  obtain ⟨es, hes, hexponent⟩ := Option.bind_eq_some_iff.mp h
  obtain ⟨fs, hfs, hfraction⟩ := Option.bind_eq_some_iff.mp hes
  have hfront := (takes_unsigned cs).trans (takes_whole hfs)
  have hback := (takes_fraction hfraction).trans (takes_exponent hexponent)
  obtain ⟨ds, hds, hall⟩ := hfront.trans hback
  rw [hds, List.append_nil]
  exact hall

theorem ne_nil_of_isNumber (h : isNumber cs = true) : cs ≠ [] := by
  rintro rfl
  cases h

def hexValue (c : Char) : Option ℕ :=
  if c.isDigit then some (c.toNat - '0'.toNat)
  else if 'a' ≤ c ∧ c ≤ 'f' then some (c.toNat - 'a'.toNat + 10)
  else if 'A' ≤ c ∧ c ≤ 'F' then some (c.toNat - 'A'.toNat + 10)
  else none

def hexDigits (n : ℕ) : List Char := [(n / 16 % 16).digitChar, (n % 16).digitChar]

def quoteChar (c : Char) : List Char :=
  if c = '"' then ['\\', '"']
  else if c = '\\' then ['\\', '\\']
  else if c = '\x08' then ['\\', 'b']
  else if c = '\t' then ['\\', 't']
  else if c = '\n' then ['\\', 'n']
  else if c = '\x0c' then ['\\', 'f']
  else if c = '\r' then ['\\', 'r']
  else if c.toNat < 32 then ['\\', 'u', '0', '0'] ++ hexDigits c.toNat
  else [c]

def quote (cs : List Char) : List Char := '"' :: (cs.flatMap quoteChar ++ ['"'])

def unescape : Char → Option Char
  | '"' => some '"'
  | '\\' => some '\\'
  | '/' => some '/'
  | 'b' => some '\x08'
  | 'f' => some '\x0c'
  | 'n' => some '\n'
  | 'r' => some '\r'
  | 't' => some '\t'
  | _ => none

def codeUnit (a b c d : Char) : Option ℕ := do
  return ((((← hexValue a) * 16 + (← hexValue b)) * 16 + (← hexValue c)) * 16 + (← hexValue d))

def joined (high low : ℕ) : Option Char :=
  if 0xD800 ≤ high ∧ high < 0xDC00 ∧ 0xDC00 ≤ low ∧ low < 0xE000 then
    some (Char.ofNat (0x10000 + (high - 0xD800) * 0x400 + (low - 0xDC00)))
  else none

/-- The characters up to the closing quote, and what follows it. A surrogate that is alone
is no character. -/
def parseChars : List Char → Option (List Char × List Char)
  | [] => none
  | c :: cs =>
    if c = '"' then some ([], cs)
    else if c = '\\' then
      match cs with
      | 'u' :: a :: b :: c :: d :: cs => do
        let high ← codeUnit a b c d
        if high < 0xD800 ∨ 0xE000 ≤ high then
          let (s, rest) ← parseChars cs
          return (Char.ofNat high :: s, rest)
        else
          match cs with
          | '\\' :: 'u' :: e :: f :: g :: h :: cs => do
            let joint ← joined high (← codeUnit e f g h)
            let (s, rest) ← parseChars cs
            return (joint :: s, rest)
          | _ => none
      | c :: cs => do
        let c ← unescape c
        let (s, rest) ← parseChars cs
        return (c :: s, rest)
      | [] => none
    else if c.toNat < 32 then none
    else do
      let (s, rest) ← parseChars cs
      return (c :: s, rest)

theorem codeUnit_hexDigits : ∀ n < 32,
    codeUnit '0' '0' (n / 16 % 16).digitChar (n % 16).digitChar = some n := by
  decide

theorem parseChars_plain (hquote : c ≠ '"') (hescape : c ≠ '\\') (hcontrol : ¬ c.toNat < 32) :
    parseChars (c :: cs) = (parseChars cs).map fun p => (c :: p.1, p.2) := by
  rw [parseChars.eq_def]
  dsimp only
  rw [if_neg hquote, if_neg hescape, if_neg hcontrol]
  cases parseChars cs with
  | none => rfl
  | some p => rfl

theorem parseChars_escape {e : Char} (hu : e ≠ 'u') (h : unescape e = some c) :
    parseChars ('\\' :: e :: cs) = (parseChars cs).map fun p => (c :: p.1, p.2) := by
  rw [parseChars.eq_def]
  dsimp only
  rw [if_neg (by decide), if_pos rfl]
  split
  · rename_i heq
    cases heq
    exact absurd rfl hu
  · rename_i heq
    cases heq
    rw [h]
    cases parseChars cs with
    | none => rfl
    | some p => rfl
  · rename_i heq
    cases heq

theorem parseChars_control (h : c.toNat < 32) :
    parseChars ('\\' :: 'u' :: '0' :: '0' :: (hexDigits c.toNat ++ cs)) =
      (parseChars cs).map fun p => (c :: p.1, p.2) := by
  rw [parseChars.eq_def]
  simp only [hexDigits, List.cons_append, List.nil_append, codeUnit_hexDigits c.toNat h]
  rw [if_neg (by decide), if_pos trivial, Option.bind_eq_bind, Option.bind_some,
    if_pos (.inl (by omega)), Char.ofNat_toNat]
  cases parseChars cs with
  | none => rfl
  | some p => rfl

theorem parseChars_quoteChar (c : Char) (cs : List Char) :
    parseChars (quoteChar c ++ cs) = (parseChars cs).map fun p => (c :: p.1, p.2) := by
  unfold quoteChar
  split_ifs with hquote hescape h1 h2 h3 h4 h5 hcontrol
  · subst hquote
    exact parseChars_escape (by decide) rfl
  · subst hescape
    exact parseChars_escape (by decide) rfl
  · subst h1
    exact parseChars_escape (by decide) rfl
  · subst h2
    exact parseChars_escape (by decide) rfl
  · subst h3
    exact parseChars_escape (by decide) rfl
  · subst h4
    exact parseChars_escape (by decide) rfl
  · subst h5
    exact parseChars_escape (by decide) rfl
  · exact parseChars_control hcontrol
  · exact parseChars_plain hquote hescape hcontrol

theorem parseChars_quote (s cs : List Char) :
    parseChars (s.flatMap quoteChar ++ '"' :: cs) = some (s, cs) := by
  induction s with
  | nil =>
    rw [List.flatMap_nil, List.nil_append, parseChars.eq_def]
    rfl
  | cons c s ih =>
    rw [List.flatMap_cons, List.append_assoc, parseChars_quoteChar, ih]
    rfl

end PayFi.Library.JsonTokens
