import Mathlib.Algebra.Order.Field.Basic
import PayFi.Library.FixedPoint

namespace PayFi.Library.Decimals

open Numbers FixedPoint

@[ext]
structure Numeral where
  whole : List Char
  fraction : List Char
  nonempty : whole ≠ []
  whole_digits : ∀ c ∈ whole, c.isDigit = true
  fraction_digits : ∀ c ∈ fraction, c.isDigit = true

/-- A fraction with its point, which is there only when the fraction has a digit. -/
def point (fraction : List Char) : List Char := if fraction = [] then [] else '.' :: fraction

def Numeral.text (n : Numeral) : List Char := n.whole ++ point n.fraction

def Numeral.digits (n : Numeral) : List Char := n.whole ++ n.fraction

def Numeral.value (n : Numeral) : ℚ := natOfDigits n.digits / 10 ^ n.fraction.length

/-- A spelling of zero, with `m` zeros before the point and `k` after it. -/
def zeros (m k : ℕ) : List Char := List.replicate m '0' ++ point (List.replicate k '0')

variable {n : Numeral} {cs ds : List Char} {c : Char} {m k : ℕ}

theorem isDigit_digits (n : Numeral) : ∀ c ∈ n.digits, c.isDigit = true :=
  List.forall_mem_append.mpr ⟨n.whole_digits, n.fraction_digits⟩

theorem takeWhile_point (ds : List Char) :
    (point ds).takeWhile Char.isDigit = [] ∧ (point ds).dropWhile Char.isDigit = point ds := by
  unfold point
  split
  · exact ⟨rfl, rfl⟩
  · exact ⟨rfl, rfl⟩

theorem span_text (n : Numeral) :
    n.text.takeWhile Char.isDigit = n.whole ∧
      n.text.dropWhile Char.isDigit = point n.fraction := by
  obtain ⟨htake, hdrop⟩ := takeWhile_point n.fraction
  rw [Numeral.text, List.takeWhile_append_of_pos n.whole_digits,
    List.dropWhile_append_of_pos n.whole_digits, htake, hdrop, List.append_nil]
  exact ⟨rfl, rfl⟩

theorem point_injective : Function.Injective point := by
  intro ds es h
  unfold point at h
  split at h <;> split at h
  · rename_i hds hes
    rw [hds, hes]
  · cases h
  · cases h
  · exact (List.cons.inj h).2

theorem text_injective : Function.Injective Numeral.text := by
  intro n n' h
  obtain ⟨htake, hdrop⟩ := span_text n
  obtain ⟨htake', hdrop'⟩ := span_text n'
  rw [h] at htake hdrop
  exact Numeral.ext (htake.symm.trans htake') (point_injective (hdrop.symm.trans hdrop'))

/-- The texts of numerals, by what stands before and after the first character that is no
digit. -/
theorem numeral_iff (p : List Char → Prop) :
    (∃ n : Numeral, cs = n.text ∧ p n.fraction) ↔ cs.takeWhile Char.isDigit ≠ [] ∧
      (cs.dropWhile Char.isDigit = [] ∧ p [] ∨ ∃ ds, cs.dropWhile Char.isDigit = '.' :: ds ∧
        ds ≠ [] ∧ (∀ c ∈ ds, c.isDigit = true) ∧ p ds) := by
  constructor
  · rintro ⟨n, rfl, hp⟩
    obtain ⟨htake, hdrop⟩ := span_text n
    rw [htake, hdrop]
    refine ⟨n.nonempty, ?_⟩
    by_cases hnil : n.fraction = []
    · rw [hnil] at hp ⊢
      exact .inl ⟨rfl, hp⟩
    · rw [point, if_neg hnil]
      exact .inr ⟨_, rfl, hnil, n.fraction_digits, hp⟩
  · rintro ⟨hwhole, hrest⟩
    have hdigits : ∀ c ∈ cs.takeWhile Char.isDigit, c.isDigit = true :=
      fun c hc => List.mem_takeWhile_imp hc
    have hsplit := List.takeWhile_append_dropWhile (p := Char.isDigit) (l := cs)
    obtain ⟨hdrop, hp⟩ | ⟨ds, hdrop, hne, hds, hp⟩ := hrest
    · refine ⟨⟨_, [], hwhole, hdigits, List.forall_mem_nil _⟩, ?_, hp⟩
      rw [hdrop] at hsplit
      exact hsplit.symm
    · refine ⟨⟨_, ds, hwhole, hdigits, hds⟩, ?_, hp⟩
      rw [hdrop] at hsplit
      rw [Numeral.text, point, if_neg hne]
      exact hsplit.symm

theorem isDecimal_iff :
    isDecimal cs = true ↔ ∃ n : Numeral, cs = n.text ∧ n.fraction.length ≤ 7 := by
  rw [numeral_iff fun ds => ds.length ≤ 7, isDecimal, Bool.and_eq_true, decide_eq_true_eq]
  refine and_congr_right fun _ => ?_
  split
  · rename_i hdrop
    exact iff_of_true rfl (.inl ⟨hdrop, Nat.zero_le 7⟩)
  · rename_i ds hdrop
    have hpos : 1 ≤ ds.length ↔ ds ≠ [] := List.length_pos_iff
    simp only [Bool.and_eq_true, decide_eq_true_eq, List.all_eq_true, hdrop, reduceCtorEq,
      false_and, false_or, List.cons.injEq, true_and, exists_eq_left', hpos]
    tauto
  · rename_i hnil hpoint
    refine iff_of_false Bool.false_ne_true ?_
    rintro (⟨hdrop, -⟩ | ⟨ds, hdrop, -⟩)
    · exact hnil hdrop
    · exact hpoint ds hdrop

theorem natOfDigits_eq_zero (h : ∀ c ∈ ds, c.isDigit = true) :
    natOfDigits ds = 0 ↔ ∀ c ∈ ds, c = '0' := by
  induction ds using List.reverseRecOn with
  | nil => exact iff_of_true rfl (List.forall_mem_nil _)
  | append_singleton ds d ih =>
    obtain ⟨hds, hd⟩ := List.forall_mem_append.mp h
    have hdigit : d.toNat - '0'.toNat = 0 ↔ d = '0' := by
      refine ⟨fun hzero => ?_, fun hd => by rw [hd]; rfl⟩
      rw [← digitChar_digit (hd d (List.mem_singleton_self d)), hzero]
      rfl
    rw [natOfDigits_concat, List.forall_mem_append, List.forall_mem_singleton, ← ih hds, ← hdigit]
    omega

theorem value_pos_iff (n : Numeral) : 0 < n.value ↔ ∃ c ∈ n.digits, c ≠ '0' := by
  have hpow : (0 : ℚ) < 10 ^ n.fraction.length := by positivity
  have hzero := natOfDigits_eq_zero (isDigit_digits n)
  rw [Numeral.value, div_pos_iff_of_pos_right hpow, Nat.cast_pos, Nat.pos_iff_ne_zero, ne_eq, hzero]
  push Not
  rfl

theorem mem_point_iff : c ∈ point ds ↔ ds ≠ [] ∧ c = '.' ∨ c ∈ ds := by
  unfold point
  split
  · rename_i hnil
    simp [hnil]
  · rename_i hne
    rw [List.mem_cons]
    exact or_congr_left (and_iff_right hne).symm

theorem mem_text (h : c ∈ n.digits) : c ∈ n.text := by
  refine List.mem_append.mpr ((List.mem_append.mp h).imp_right fun hc => ?_)
  exact mem_point_iff.mpr (.inr hc)

theorem mem_zeros (h : c ∈ zeros m k) : c = '.' ∨ c = '0' := by
  obtain hc | hc := List.mem_append.mp h
  · exact .inr (List.eq_of_mem_replicate hc)
  · obtain ⟨-, hc⟩ | hc := mem_point_iff.mp hc
    · exact .inl hc
    · exact .inr (List.eq_of_mem_replicate hc)

theorem text_zeros (h : ∀ c ∈ n.digits, c = '0') :
    n.text = zeros n.whole.length n.fraction.length := by
  obtain ⟨hwhole, hfraction⟩ := List.forall_mem_append.mp h
  rw [Numeral.text, zeros, ← List.eq_replicate_of_mem hwhole, ← List.eq_replicate_of_mem hfraction]

theorem digits_of_text_zeros (h : n.text = zeros m k) : ∀ c ∈ n.digits, c = '0' := by
  intro c hc
  have hzero := mem_zeros (h ▸ mem_text hc)
  refine hzero.resolve_left fun hpoint => ?_
  have hdigit := isDigit_digits n c hc
  rw [hpoint] at hdigit
  cases hdigit

theorem not_pos_iff (n : Numeral) :
    ¬0 < n.value ↔ n.text = zeros n.whole.length n.fraction.length := by
  rw [value_pos_iff]
  push Not
  exact ⟨text_zeros, digits_of_text_zeros⟩

theorem value_pos_of_ne_zeros (n : Numeral) :
    0 < n.value ↔ ∀ m k, 1 ≤ m → n.text ≠ zeros m k := by
  constructor
  · intro hpos m k _ htext
    obtain ⟨c, hc, hne⟩ := (value_pos_iff n).mp hpos
    exact hne (digits_of_text_zeros htext c hc)
  · intro h
    by_contra hpos
    exact h _ _ (List.length_pos_of_ne_nil n.nonempty) ((not_pos_iff n).mp hpos)

theorem fractionPart_point (h : ∀ c ∈ ds, c.isDigit = true) :
    fractionPart (point ds) = (ds, []) := by
  unfold point
  split
  · rename_i hnil
    rw [hnil]
    rfl
  · rw [fractionPart, List.takeWhile_eq_self_iff.mpr h, List.dropWhile_eq_nil_iff.mpr h]

theorem unsignedDecimal_text (n : Numeral) : unsignedDecimal n.text = some n.value := by
  obtain ⟨htake, hdrop⟩ := span_text n
  have hne : n.whole ++ n.fraction ≠ [] := List.append_ne_nil_of_left_ne_nil n.nonempty _
  simp only [unsignedDecimal, htake, hdrop, fractionPart_point n.fraction_digits, hne, if_false,
    exponentPart, zero_sub, zpow_neg, zpow_natCast]
  rfl

theorem parseFloat_text {s : String} (h : s.toList = n.text) : parseFloat s = .finite n.value := by
  have hval := unsignedDecimal_text n
  cases hwhole : n.whole with
  | nil => exact absurd hwhole n.nonempty
  | cons c cs =>
    have hc := n.whole_digits c (hwhole ▸ List.mem_cons_self)
    have hcons : n.text = c :: (cs ++ point n.fraction) := by
      rw [Numeral.text, hwhole, List.cons_append]
    rw [hcons] at h hval
    exact parseFloat_of_unsignedDecimal h hc hval

end PayFi.Library.Decimals
