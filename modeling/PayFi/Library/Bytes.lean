import Mathlib.Data.List.Basic
import Mathlib.Tactic.Common

namespace PayFi.Library.Bytes

def alphabet : List Char := "0123456789abcdef".toList

def hexDigit (n : ℕ) : Char := alphabet.getD n '0'

def hexValue (c : Char) : Option ℕ := alphabet.idxOf? c.toLower

def hexEncode (bs : List UInt8) : List Char :=
  bs.flatMap fun b => [hexDigit (b.toNat / 16), hexDigit (b.toNat % 16)]

def hexText (bs : List UInt8) : String := String.ofList (hexEncode bs)

def hexDecode : List Char → List UInt8
  | c :: d :: rest =>
    match hexValue c, hexValue d with
    | some m, some n => .ofNat (m * 16 + n) :: hexDecode rest
    | _, _ => []
  | _ => []

def isHex (cs : List Char) : Bool := cs ≠ [] && cs.all fun c => (hexValue c).isSome

def Spells (cs : List Char) (bs : List UInt8) : Prop := cs.map Char.toLower = hexEncode bs

variable {cs : List Char} {bs : List UInt8} {b : UInt8}

theorem hexValue_of_toLower {n : ℕ} {c : Char} (hn : n < 16) (h : c.toLower = hexDigit n) :
    hexValue c = some n := by
  have hall : ∀ n : Fin 16, alphabet.idxOf? (hexDigit n) = some n.val := by decide
  rw [hexValue, h]
  exact hall ⟨n, hn⟩

theorem spells_hexEncode (bs : List UInt8) : Spells (hexEncode bs) bs := by
  have hlower : ∀ n < 16, (hexDigit n).toLower = hexDigit n := by decide
  induction bs with
  | nil => rfl
  | cons b bs ih =>
    have hb := b.toNat_lt
    have hhigh := hlower (b.toNat / 16) (by omega)
    have hlow := hlower (b.toNat % 16) (by omega)
    rw [Spells, hexEncode, List.flatMap_cons, List.map_append, List.map_cons, List.map_cons,
      hhigh, hlow]
    exact congrArg _ ih

theorem spells_nil (h : Spells cs []) : cs = [] := List.map_eq_nil_iff.mp h

theorem spells_cons (h : Spells cs (b :: bs)) : ∃ c d rest, cs = c :: d :: rest ∧
    hexValue c = some (b.toNat / 16) ∧ hexValue d = some (b.toNat % 16) ∧ Spells rest bs := by
  have hb := b.toNat_lt
  obtain ⟨c, cs, rfl, hc, htail⟩ := List.map_eq_cons_iff.mp h
  obtain ⟨d, rest, rfl, hd, hrest⟩ := List.map_eq_cons_iff.mp htail
  exact ⟨c, d, rest, rfl, hexValue_of_toLower (by omega) hc, hexValue_of_toLower (by omega) hd,
    hrest⟩

theorem hexDecode_spells (h : Spells cs bs) : hexDecode cs = bs := by
  induction bs generalizing cs with
  | nil =>
    rw [spells_nil h]
    rfl
  | cons b bs ih =>
    obtain ⟨c, d, rest, rfl, hc, hd, hrest⟩ := spells_cons h
    have hsum : b.toNat / 16 * 16 + b.toNat % 16 = b.toNat := by omega
    rw [hexDecode, hc, hd, ih hrest]
    simp only [hsum, UInt8.ofNat_toNat]

theorem length_spells (h : Spells cs bs) : cs.length = 2 * bs.length := by
  induction bs generalizing cs with
  | nil =>
    rw [spells_nil h]
    rfl
  | cons b bs ih =>
    obtain ⟨c, d, rest, rfl, -, -, hrest⟩ := spells_cons h
    rw [List.length_cons, List.length_cons, List.length_cons, ih hrest]
    omega

theorem isHex_spells (h : Spells cs bs) (hne : bs ≠ []) : isHex cs = true := by
  have hdigits : ∀ c ∈ cs, (hexValue c).isSome = true := by
    clear hne
    induction bs generalizing cs with
    | nil =>
      rw [spells_nil h]
      exact nofun
    | cons b bs ih =>
      obtain ⟨c, d, rest, rfl, hc, hd, hrest⟩ := spells_cons h
      simp only [List.forall_mem_cons, hc, hd, Option.isSome_some, true_and]
      exact ih hrest
  have hlength := length_spells h
  have hpos := List.length_pos_iff.mpr hne
  have hfull : cs ≠ [] := by
    rw [← List.length_pos_iff]
    omega
  rw [isHex, Bool.and_eq_true, decide_eq_true_eq, List.all_eq_true]
  exact ⟨hfull, hdigits⟩

def utf8Bytes (s : String) : List UInt8 := s.toByteArray.data.toList

def utf8Text (lossyText : List UInt8 → String) (bs : List UInt8) : String :=
  if h : (ByteArray.mk bs.toArray).IsValidUTF8 then String.fromUTF8 _ h else lossyText bs

end PayFi.Library.Bytes
