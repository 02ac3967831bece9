import Mathlib.Algebra.Order.Field.Rat
import Mathlib.Algebra.BigOperators.Group.List.Basic
import Mathlib.Algebra.Order.BigOperators.Group.List
import Mathlib.Algebra.Order.Field.Power
import Mathlib.Data.List.TakeWhile
import Mathlib.Tactic.NormNum

namespace PayFi.Library.Numbers

/-- JavaScript numbers, with exact values in place of the rounded ones. -/
inductive Number where
  | nan
  | infinity (negative : Bool)
  | finite (q : ℚ)
  deriving DecidableEq

def Number.isNaN : Number → Bool
  | .nan => true
  | _ => false

def Number.add : Number → Number → Number
  | .finite p, .finite q => .finite (p + q)
  | .finite _, .infinity n => .infinity n
  | .infinity n, .finite _ => .infinity n
  | .infinity m, .infinity n => if m = n then .infinity m else .nan
  | _, _ => .nan

def Number.neg : Number → Number
  | .finite q => .finite (-q)
  | .infinity n => .infinity !n
  | .nan => .nan

def Number.sub (m n : Number) : Number := m.add n.neg

/-- The comparison `x < y`, false as soon as one side is NaN. -/
def Number.lt : Number → Number → Bool
  | .finite p, .finite q => p < q
  | .finite _, .infinity n => !n
  | .infinity n, .finite _ => n
  | .infinity m, .infinity n => m && !n
  | _, _ => false

def sum (xs : List Number) : Number := xs.foldl Number.add (.finite 0)

def spaces : List Char :=
  ['\t', '\n', '\x0b', '\x0c', '\r', ' ', '\u00a0', '\u1680', '\u2028', '\u2029', '\u202f',
    '\u205f', '\u3000', '\ufeff']

def isWhiteSpace (c : Char) : Bool :=
  spaces.contains c || (0x2000 ≤ c.toNat && c.toNat ≤ 0x200a)

def natOfDigits (ds : List Char) : ℕ :=
  ds.foldl (fun n d => 10 * n + (d.toNat - '0'.toNat)) 0

def exponentPart : List Char → ℤ
  | c :: cs =>
    if c = 'e' ∨ c = 'E' then
      match cs with
      | '+' :: ds => natOfDigits (ds.takeWhile Char.isDigit)
      | '-' :: ds => -natOfDigits (ds.takeWhile Char.isDigit)
      | ds => natOfDigits (ds.takeWhile Char.isDigit)
    else 0
  | [] => 0

def fractionPart : List Char → List Char × List Char
  | '.' :: cs => (cs.takeWhile Char.isDigit, cs.dropWhile Char.isDigit)
  | cs => ([], cs)

def unsignedDecimal (cs : List Char) : Option ℚ :=
  let whole := cs.takeWhile Char.isDigit
  let fraction := fractionPart (cs.dropWhile Char.isDigit)
  if whole ++ fraction.1 = [] then none
  else some (natOfDigits (whole ++ fraction.1) *
    (10 : ℚ) ^ (exponentPart fraction.2 - fraction.1.length))

def parseUnsigned (negative : Bool) (cs : List Char) : Number :=
  if "Infinity".toList.isPrefixOf cs then .infinity negative
  else
    match unsignedDecimal cs with
    | none => .nan
    | some q => .finite (if negative then -q else q)

def parseFloat (s : String) : Number :=
  match s.toList.dropWhile isWhiteSpace with
  | '+' :: cs => parseUnsigned false cs
  | '-' :: cs => parseUnsigned true cs
  | cs => parseUnsigned false cs

def parseDigits (negative : Bool) (cs : List Char) : Option ℤ :=
  let ds := cs.takeWhile Char.isDigit
  if ds = [] then none else some (if negative then -natOfDigits ds else natOfDigits ds)

/-- `parseInt` with radix 10; `none` stands for NaN. -/
def parseInt (s : String) : Option ℤ :=
  match s.toList.dropWhile isWhiteSpace with
  | '+' :: cs => parseDigits false cs
  | '-' :: cs => parseDigits true cs
  | cs => parseDigits false cs

/-- The pattern `\d+(\.\d{1,7})?`. -/
def isDecimal (cs : List Char) : Bool :=
  cs.takeWhile Char.isDigit ≠ [] &&
    match cs.dropWhile Char.isDigit with
    | [] => true
    | '.' :: ds => ds.all Char.isDigit && 1 ≤ ds.length && ds.length ≤ 7
    | _ => false

variable {xs : List ℚ}

theorem Number.eq_nan {n : Number} (h : n.isNaN = true) : n = .nan := by
  cases n with
  | nan => rfl
  | infinity => cases h
  | finite => cases h

theorem foldl_add_finite (xs : List ℚ) (q : ℚ) :
    (xs.map Number.finite).foldl Number.add (.finite q) = .finite (q + xs.sum) := by
  induction xs generalizing q with
  | nil => simp
  | cons x xs ih =>
    rw [List.map_cons, List.foldl_cons, Number.add, ih, List.sum_cons, add_assoc]

theorem sum_finite (xs : List ℚ) : sum (xs.map Number.finite) = .finite xs.sum := by
  rw [sum, foldl_add_finite, zero_add]

theorem unsignedDecimal_nonneg {cs : List Char} {q : ℚ} (h : unsignedDecimal cs = some q) :
    0 ≤ q := by
  simp only [unsignedDecimal] at h
  split at h
  · cases h
  · cases h
    exact mul_nonneg (Nat.cast_nonneg _) (zpow_nonneg (by norm_num) _)

theorem unsignedDecimal_of_digit {c : Char} (hc : c.isDigit = true) (cs : List Char) :
    ∃ q, unsignedDecimal (c :: cs) = some q := by
  simp only [unsignedDecimal, List.takeWhile_cons_of_pos hc, List.cons_append, reduceCtorEq,
    if_false]
  exact ⟨_, rfl⟩

theorem isDigit_not_whiteSpace {c : Char} (h : c.isDigit = true) : isWhiteSpace c = false := by
  by_contra hw
  rw [Bool.not_eq_false, isWhiteSpace, Bool.or_eq_true] at hw
  obtain hw | hw := hw
  · have hall : (spaces.all fun w => !w.isDigit) = true := by decide
    have hc := List.all_eq_true.mp hall c (List.contains_iff_mem.mp hw)
    rw [h] at hc
    cases hc
  · simp only [Char.isDigit, Bool.and_eq_true, decide_eq_true_eq] at h hw
    have hle : c.toNat ≤ 57 := UInt32.le_iff_toNat_le.mp h.2
    omega

theorem parseFloat_of_unsignedDecimal {s : String} {c : Char} {cs : List Char} {q : ℚ}
    (hs : s.toList = c :: cs) (hc : c.isDigit = true) (hq : unsignedDecimal (c :: cs) = some q) :
    parseFloat s = .finite q := by
  have hplus : c ≠ '+' := by
    rintro rfl
    cases hc
  have hminus : c ≠ '-' := by
    rintro rfl
    cases hc
  have hinf : "Infinity".toList.isPrefixOf (c :: cs) = false := by
    have hI : 'I' ≠ c := by
      rintro rfl
      cases hc
    simp [List.isPrefixOf, hI]
  have htrim : (c :: cs).dropWhile isWhiteSpace = c :: cs :=
    List.dropWhile_cons_of_neg (by simp [isDigit_not_whiteSpace hc])
  rw [parseFloat, hs, htrim]
  have hval : parseUnsigned false (c :: cs) = .finite q := by
    simp only [parseUnsigned, hinf, hq, Bool.false_eq_true, if_false]
  rw [← hval]
  split
  · rename_i heq
    cases heq
    exact absurd rfl hplus
  · rename_i heq
    cases heq
    exact absurd rfl hminus
  · rfl

theorem parseFloat_of_digit {s : String} {c : Char} {cs : List Char} (hs : s.toList = c :: cs)
    (hc : c.isDigit = true) : ∃ q, parseFloat s = .finite q ∧ 0 ≤ q := by
  obtain ⟨q, hq⟩ := unsignedDecimal_of_digit hc cs
  exact ⟨q, parseFloat_of_unsignedDecimal hs hc hq, unsignedDecimal_nonneg hq⟩

theorem parseFloat_of_isDecimal {s : String} (h : isDecimal s.toList = true) :
    ∃ q, parseFloat s = .finite q ∧ 0 ≤ q := by
  have hwhole : s.toList.takeWhile Char.isDigit ≠ [] := by
    rw [isDecimal, Bool.and_eq_true] at h
    exact of_decide_eq_true h.1
  cases hs : s.toList with
  | nil => exact absurd (by rw [hs]; rfl) hwhole
  | cons c cs =>
    by_cases hc : c.isDigit = true
    · exact parseFloat_of_digit hs hc
    · rw [hs, List.takeWhile_cons_of_neg hc] at hwhole
      exact absurd rfl hwhole

theorem natOfDigits_toDigits (n : ℕ) : natOfDigits (Nat.toDigits 10 n) = n := by
  have h := Nat.ofDigitChars_ten_toDigits (n := n)
  rwa [Nat.ofDigitChars_eq_foldl] at h

theorem parseInt_of_digit {s : String} {c : Char} {cs : List Char} (hs : s.toList = c :: cs)
    (hc : c.isDigit = true) : parseInt s = parseDigits false (c :: cs) := by
  have htrim : (c :: cs).dropWhile isWhiteSpace = c :: cs :=
    List.dropWhile_cons_of_neg (by simp [isDigit_not_whiteSpace hc])
  rw [parseInt, hs, htrim]
  split
  · rename_i heq
    cases heq
    cases hc
  · rename_i heq
    cases heq
    cases hc
  · rfl

theorem parseInt_toString (n : ℕ) : parseInt (toString n) = some (n : ℤ) := by
  have hlist : (toString n).toList = Nat.toDigits 10 n := Nat.toList_repr
  have hdigits : ∀ c ∈ Nat.toDigits 10 n, c.isDigit = true := fun c hc =>
    Nat.isDigit_of_mem_toDigits (by decide) (by decide) hc
  have hwhole : (Nat.toDigits 10 n).takeWhile Char.isDigit = Nat.toDigits 10 n :=
    List.takeWhile_eq_self_iff.mpr hdigits
  have hne : Nat.toDigits 10 n ≠ [] := Nat.toDigits_ne_nil
  cases hd : Nat.toDigits 10 n with
  | nil => exact absurd hd hne
  | cons c cs =>
    have hc := hdigits c (hd ▸ List.mem_cons_self)
    rw [parseInt_of_digit (hlist.trans hd) hc, parseDigits, ← hd, hwhole, if_neg hne,
      natOfDigits_toDigits]
    rfl

theorem parseInt_toString_int (n : ℤ) : parseInt (toString n) = some n := by
  cases n with
  | ofNat n => exact parseInt_toString n
  | negSucc n =>
    have hlist : (toString (Int.negSucc n)).toList = '-' :: Nat.toDigits 10 (n + 1) := by
      have htext : toString (Int.negSucc n) = "-" ++ (n + 1).repr := rfl
      rw [htext, String.toList_append, Nat.toList_repr]
      rfl
    have hdigits : ∀ c ∈ Nat.toDigits 10 (n + 1), c.isDigit = true := fun c hc =>
      Nat.isDigit_of_mem_toDigits (by decide) (by decide) hc
    have hwhole : (Nat.toDigits 10 (n + 1)).takeWhile Char.isDigit = Nat.toDigits 10 (n + 1) :=
      List.takeWhile_eq_self_iff.mpr hdigits
    have htrim : ('-' :: Nat.toDigits 10 (n + 1)).dropWhile isWhiteSpace =
        '-' :: Nat.toDigits 10 (n + 1) := List.dropWhile_cons_of_neg (by decide)
    have hparse : parseInt (toString (Int.negSucc n)) =
        parseDigits true (Nat.toDigits 10 (n + 1)) := by
      unfold parseInt
      rw [hlist, htrim]
      rfl
    rw [hparse, parseDigits, hwhole, if_neg Nat.toDigits_ne_nil, natOfDigits_toDigits]
    rfl

end PayFi.Library.Numbers
