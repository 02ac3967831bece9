import Mathlib.Data.List.TakeWhile
import Mathlib.Tactic.Common

namespace PayFi.Library.Base64

def alphabet : List Char :=
  "ABCDEFGHIJKLMNOPQRSTUVWXYZabcdefghijklmnopqrstuvwxyz0123456789+/".toList

def digit (n : ℕ) : Char := alphabet.getD n '='

def isDigit (c : Char) : Bool := alphabet.contains c

def value (c : Char) : Option ℕ :=
  if c = '-' then some 62 else if c = '_' then some 63 else alphabet.idxOf? c

def encode : List UInt8 → List Char
  | [] => []
  | [a] => [digit (a.toNat / 4), digit (a.toNat % 4 * 16), '=', '=']
  | [a, b] =>
    [digit (a.toNat / 4), digit (a.toNat % 4 * 16 + b.toNat / 16), digit (b.toNat % 16 * 4), '=']
  | a :: b :: c :: rest =>
    digit (a.toNat / 4) :: digit (a.toNat % 4 * 16 + b.toNat / 16) ::
      digit (b.toNat % 16 * 4 + c.toNat / 64) :: digit (c.toNat % 64) :: encode rest

def bytes : List ℕ → List UInt8
  | s :: t :: u :: v :: rest =>
    .ofNat (s * 4 + t / 16) :: .ofNat (t % 16 * 16 + u / 4) :: .ofNat (u % 4 * 64 + v) :: bytes rest
  | [s, t, u] => [.ofNat (s * 4 + t / 16), .ofNat (t % 16 * 16 + u / 4)]
  | [s, t] => [.ofNat (s * 4 + t / 16)]
  | [_] => []
  | [] => []

def values (cs : List Char) : List ℕ := (cs.takeWhile (· ≠ '=')).filterMap value

/-- A lenient reader. -/
def decode (cs : List Char) : List UInt8 := bytes (values cs)

/-- Digits in groups of four, the last of which may be padded. -/
def isBase64 (cs : List Char) : Bool :=
  cs.length % 4 = 0 && [[], ['='], ['=', '=']].contains (cs.dropWhile isDigit)

theorem value_digit {n : ℕ} (h : n < 64) : value (digit n) = some n := by
  have hall : ∀ n : Fin 64, value (digit n) = some n.val := by decide +kernel
  exact hall ⟨n, h⟩

theorem isDigit_digit {n : ℕ} (h : n < 64) : isDigit (digit n) = true := by
  have hall : ∀ n : Fin 64, isDigit (digit n) = true := by decide +kernel
  exact hall ⟨n, h⟩

@[simp] theorem values_padding (cs : List Char) : values ('=' :: cs) = [] := by
  simp [values]

theorem values_digit {n : ℕ} (h : n < 64) (cs : List Char) :
    values (digit n :: cs) = n :: values cs := by
  have hne : digit n ≠ '=' := by
    have hall : ∀ n : Fin 64, digit n ≠ '=' := by decide +kernel
    exact hall ⟨n, h⟩
  rw [values, List.takeWhile_cons, if_pos (decide_eq_true hne),
    List.filterMap_cons_some (value_digit h)]
  rfl

theorem eq_ofNat {n : ℕ} {a : UInt8} (h : n = a.toNat) : UInt8.ofNat n = a := by
  rw [h]
  exact UInt8.ofNat_toNat

theorem decode_encode (bs : List UInt8) : decode (encode bs) = bs := by
  induction bs using encode.induct with
  | case1 => rfl
  | case2 a =>
    have ha := a.toNat_lt
    simp only [decode, encode, values_padding, bytes, values_digit (by omega : a.toNat / 4 < 64),
      values_digit (by omega : a.toNat % 4 * 16 < 64)]
    rw [eq_ofNat (by omega : a.toNat / 4 * 4 + a.toNat % 4 * 16 / 16 = a.toNat)]
  | case3 a b =>
    have ha := a.toNat_lt
    have hb := b.toNat_lt
    simp only [decode, encode, values_padding, bytes, values_digit (by omega : a.toNat / 4 < 64),
      values_digit (by omega : a.toNat % 4 * 16 + b.toNat / 16 < 64),
      values_digit (by omega : b.toNat % 16 * 4 < 64)]
    rw [eq_ofNat (by omega :
        a.toNat / 4 * 4 + (a.toNat % 4 * 16 + b.toNat / 16) / 16 = a.toNat),
      eq_ofNat (by omega :
        (a.toNat % 4 * 16 + b.toNat / 16) % 16 * 16 + b.toNat % 16 * 4 / 4 = b.toNat)]
  | case4 a b c rest ih =>
    have ha := a.toNat_lt
    have hb := b.toNat_lt
    have hc := c.toNat_lt
    rw [decode] at ih
    simp only [decode, encode, bytes, values_digit (by omega : a.toNat / 4 < 64),
      values_digit (by omega : a.toNat % 4 * 16 + b.toNat / 16 < 64),
      values_digit (by omega : b.toNat % 16 * 4 + c.toNat / 64 < 64),
      values_digit (by omega : c.toNat % 64 < 64)]
    rw [ih, eq_ofNat (by omega :
        a.toNat / 4 * 4 + (a.toNat % 4 * 16 + b.toNat / 16) / 16 = a.toNat),
      eq_ofNat (by omega : (a.toNat % 4 * 16 + b.toNat / 16) % 16 * 16 +
        (b.toNat % 16 * 4 + c.toNat / 64) / 4 = b.toNat),
      eq_ofNat (by omega :
        (b.toNat % 16 * 4 + c.toNat / 64) % 4 * 64 + c.toNat % 64 = c.toNat)]

theorem length_encode (bs : List UInt8) : (encode bs).length = (bs.length + 2) / 3 * 4 := by
  induction bs using encode.induct with
  | case1 => rfl
  | case2 a => simp only [encode, List.length_cons, List.length_nil]
  | case3 a b => simp only [encode, List.length_cons, List.length_nil]
  | case4 a b c rest ih =>
    simp only [encode, List.length_cons, ih]
    omega

theorem encode_parts (bs : List UInt8) : ∃ front pad, encode bs = front ++ pad ∧
    (∀ c ∈ front, isDigit c = true) ∧ pad ∈ [[], ['='], ['=', '=']] := by
  induction bs using encode.induct with
  | case1 => exact ⟨[], [], rfl, nofun, by decide⟩
  | case2 a =>
    have ha := a.toNat_lt
    refine ⟨[_, _], ['=', '='], encode.eq_2 a, ?_, by decide⟩
    simp [isDigit_digit (by omega : a.toNat / 4 < 64),
      isDigit_digit (by omega : a.toNat % 4 * 16 < 64)]
  | case3 a b =>
    have ha := a.toNat_lt
    have hb := b.toNat_lt
    refine ⟨[_, _, _], ['='], encode.eq_3 a b, ?_, by decide⟩
    simp [isDigit_digit (by omega : a.toNat / 4 < 64),
      isDigit_digit (by omega : a.toNat % 4 * 16 + b.toNat / 16 < 64),
      isDigit_digit (by omega : b.toNat % 16 * 4 < 64)]
  | case4 a b c rest ih =>
    obtain ⟨front, pad, hrest, hfront, hpad⟩ := ih
    have ha := a.toNat_lt
    have hb := b.toNat_lt
    have hc := c.toNat_lt
    rw [encode, hrest]
    refine ⟨_ :: _ :: _ :: _ :: front, pad, rfl, ?_, hpad⟩
    simp only [List.forall_mem_cons]
    exact ⟨isDigit_digit (by omega), isDigit_digit (by omega), isDigit_digit (by omega),
      isDigit_digit (by omega), hfront⟩

theorem dropWhile_pad {pad : List Char} (h : pad ∈ [[], ['='], ['=', '=']]) :
    pad.dropWhile isDigit = pad := by
  have hall : ∀ pad ∈ [[], ['='], ['=', '=']], pad.dropWhile isDigit = pad := by decide +kernel
  exact hall pad h

theorem isBase64_encode (bs : List UInt8) : isBase64 (encode bs) = true := by
  obtain ⟨front, pad, hencode, hfront, hpad⟩ := encode_parts bs
  have hdrop : (encode bs).dropWhile isDigit = pad := by
    rw [hencode, List.dropWhile_append_of_pos hfront, dropWhile_pad hpad]
  have hlength : (encode bs).length % 4 = 0 := by
    rw [length_encode]
    omega
  rw [isBase64, hdrop, Bool.and_eq_true, decide_eq_true_eq, List.contains_iff_mem]
  exact ⟨hlength, hpad⟩

theorem value_of_isDigit {c : Char} (h : isDigit c = true) :
    c ≠ '=' ∧ ∃ n, value c = some n := by
  have hall : (alphabet.all fun c => c != '=' && (value c).isSome) = true := by decide +kernel
  have hc := List.all_eq_true.mp hall c (List.contains_iff_mem.mp h)
  rw [Bool.and_eq_true, bne_iff_ne] at hc
  exact ⟨hc.1, Option.isSome_iff_exists.mp hc.2⟩

theorem length_values {cs pad : List Char} (h : ∀ c ∈ cs, isDigit c = true)
    (hpad : pad ∈ [[], ['='], ['=', '=']]) : (values (cs ++ pad)).length = cs.length := by
  induction cs with
  | nil =>
    have hall : ∀ pad ∈ [[], ['='], ['=', '=']], values pad = [] := by decide +kernel
    rw [List.nil_append, hall pad hpad]
    rfl
  | cons c cs ih =>
    obtain ⟨hc, hcs⟩ := List.forall_mem_cons.mp h
    obtain ⟨hne, n, hn⟩ := value_of_isDigit hc
    rw [values, List.cons_append, List.takeWhile_cons, if_pos (decide_eq_true hne),
      List.filterMap_cons_some hn, List.length_cons, List.length_cons]
    exact congrArg (· + 1) (ih hcs)

theorem length_bytes (ns : List ℕ) : (bytes ns).length = ns.length * 3 / 4 := by
  induction ns using bytes.induct with
  | case1 s t u v rest ih =>
    simp only [bytes, List.length_cons, ih]
    omega
  | case2 s t u => simp only [bytes, List.length_cons, List.length_nil]
  | case3 s t => simp only [bytes, List.length_cons, List.length_nil]
  | case4 s => simp only [bytes, List.length_cons, List.length_nil]
  | case5 => rfl

theorem length_encode_decode {cs : List Char} (h : isBase64 cs = true) :
    (encode (decode cs)).length = cs.length := by
  rw [isBase64, Bool.and_eq_true, decide_eq_true_eq, List.contains_iff_mem] at h
  obtain ⟨hlength, hpad⟩ := h
  have hsplit := List.takeWhile_append_dropWhile (p := isDigit) (l := cs)
  have htwo : (cs.dropWhile isDigit).length ≤ 2 := by
    have hall : ∀ pad ∈ [[], ['='], ['=', '=']], pad.length ≤ 2 := by decide
    exact hall _ hpad
  have hvalues := @length_values (cs.takeWhile isDigit) _
    (fun _ => List.mem_takeWhile_imp) hpad
  rw [hsplit] at hvalues
  have hsum := congrArg List.length hsplit
  rw [List.length_append] at hsum
  rw [length_encode, decode, length_bytes, hvalues]
  omega

end PayFi.Library.Base64
