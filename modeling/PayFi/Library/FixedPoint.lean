import Mathlib.Data.List.Induction
import Mathlib.Data.List.TakeWhile
import Mathlib.Tactic.Ring
import PayFi.Library.Numbers

namespace PayFi.Library.FixedPoint

open Numbers

/-- The last `k` decimal digits of a number. -/
def lastDigits : ℕ → ℕ → List Char
  | 0, _ => []
  | k + 1, n => lastDigits k (n / 10) ++ [(n % 10).digitChar]

/-- A number of units of the `k`-th decimal, written with exactly `k` decimals. -/
def render (k n : ℕ) : List Char := Nat.toDigits 10 (n / 10 ^ k) ++ '.' :: lastDigits k (n % 10 ^ k)

/-- The units of the `k`-th decimal in a text with at most `k` decimals. -/
def units (k : ℕ) (cs : List Char) : ℕ :=
  let fraction := (fractionPart (cs.dropWhile Char.isDigit)).1
  natOfDigits (cs.takeWhile Char.isDigit) * 10 ^ k +
    natOfDigits fraction * 10 ^ (k - fraction.length)

def noLeadingZero (ds : List Char) : Bool := ds.length == 1 || ds.head? != some '0'

/-- A text with exactly `k` decimals and no superfluous leading zero. -/
def isCanonical (k : ℕ) (cs : List Char) : Bool :=
  cs.takeWhile Char.isDigit ≠ [] && noLeadingZero (cs.takeWhile Char.isDigit) &&
    match cs.dropWhile Char.isDigit with
    | '.' :: ds => ds.all Char.isDigit && ds.length == k
    | _ => false

variable {k n : ℕ} {cs ds : List Char} {c : Char}

theorem natOfDigits_concat (ds : List Char) (c : Char) :
    natOfDigits (ds ++ [c]) = 10 * natOfDigits ds + (c.toNat - '0'.toNat) := by
  simp [natOfDigits]

theorem natOfDigits_append (ds es : List Char) :
    natOfDigits (ds ++ es) = natOfDigits ds * 10 ^ es.length + natOfDigits es := by
  induction es using List.reverseRecOn with
  | nil => simp [natOfDigits]
  | append_singleton es e ih =>
    rw [← List.append_assoc, natOfDigits_concat, ih, natOfDigits_concat, List.length_append,
      List.length_singleton, pow_succ]
    ring

theorem digit_lt (h : c.isDigit = true) : c.toNat - '0'.toNat < 10 := by
  simp only [Char.isDigit, Bool.and_eq_true, decide_eq_true_eq] at h
  have hle : c.toNat ≤ 57 := UInt32.le_iff_toNat_le.mp h.2
  have hzero : '0'.toNat = 48 := rfl
  omega

theorem digitChar_digit (h : c.isDigit = true) : (c.toNat - '0'.toNat).digitChar = c := by
  have hlt := digit_lt h
  simp only [Char.isDigit, Bool.and_eq_true, decide_eq_true_eq] at h
  have hge : 48 ≤ c.toNat := UInt32.le_iff_toNat_le.mp h.1
  apply Char.toNat_inj.mp
  rw [Nat.toNat_digitChar_of_lt_ten hlt]
  have hzero : '0'.toNat = 48 := rfl
  omega

theorem natOfDigits_lt (h : ∀ c ∈ ds, c.isDigit = true) : natOfDigits ds < 10 ^ ds.length := by
  induction ds using List.reverseRecOn with
  | nil => exact Nat.one_pos
  | append_singleton ds c ih =>
    have hds := ih fun d hd => h d (List.mem_append_left _ hd)
    have hc := digit_lt (h c (by simp))
    rw [natOfDigits_concat, List.length_append, List.length_singleton, pow_succ]
    omega

theorem lastDigits_natOfDigits (h : ∀ c ∈ ds, c.isDigit = true) :
    lastDigits ds.length (natOfDigits ds) = ds := by
  induction ds using List.reverseRecOn with
  | nil => rfl
  | append_singleton ds c ih =>
    have hds := ih fun d hd => h d (List.mem_append_left _ hd)
    have hc := h c (by simp)
    have hlt := digit_lt hc
    have hdiv : (10 * natOfDigits ds + (c.toNat - '0'.toNat)) / 10 = natOfDigits ds := by omega
    have hmod : (10 * natOfDigits ds + (c.toNat - '0'.toNat)) % 10 = c.toNat - '0'.toNat := by
      omega
    rw [List.length_append, List.length_singleton, lastDigits, natOfDigits_concat, hdiv, hmod, hds,
      digitChar_digit hc]

theorem natOfDigits_pos (h : ∀ c ∈ ds, c.isDigit = true) (hne : ds ≠ [])
    (hhead : ds.head? ≠ some '0') : 0 < natOfDigits ds := by
  induction ds using List.reverseRecOn with
  | nil => exact absurd rfl hne
  | append_singleton ds c ih =>
    rw [natOfDigits_concat]
    by_cases hds : ds = []
    · subst hds
      have hc : (c.toNat - '0'.toNat).digitChar = c := digitChar_digit (h c (by simp))
      by_contra hzero
      have hval : c.toNat - '0'.toNat = 0 := by omega
      rw [hval] at hc
      apply hhead
      rw [← hc]
      rfl
    · have hpos := ih (fun d hd => h d (List.mem_append_left _ hd)) hds
        (by rwa [List.head?_append_of_ne_nil _ hds] at hhead)
      omega

theorem toDigits_natOfDigits (h : ∀ c ∈ ds, c.isDigit = true) (hne : ds ≠ [])
    (hzero : noLeadingZero ds = true) : Nat.toDigits 10 (natOfDigits ds) = ds := by
  induction ds using List.reverseRecOn with
  | nil => exact absurd rfl hne
  | append_singleton ds c ih =>
    have hc := h c (by simp)
    have hlt := digit_lt hc
    rw [natOfDigits_concat]
    by_cases hds : ds = []
    · subst hds
      have hval : 10 * natOfDigits [] + (c.toNat - '0'.toNat) = c.toNat - '0'.toNat := by
        simp [natOfDigits]
      rw [hval, Nat.toDigits_of_lt_base hlt, digitChar_digit hc]
      rfl
    · have hdigits : ∀ d ∈ ds, d.isDigit = true := fun d hd => h d (List.mem_append_left _ hd)
      have hhead : ds.head? ≠ some '0' := by
        have hlen : ds.length ≠ 0 := mt List.length_eq_zero_iff.mp hds
        rw [noLeadingZero, List.head?_append_of_ne_nil _ hds] at hzero
        simpa [hds] using hzero
      have hpos := natOfDigits_pos hdigits hds hhead
      have hdiv : (10 * natOfDigits ds + (c.toNat - '0'.toNat)) / 10 = natOfDigits ds := by omega
      have hmod : (10 * natOfDigits ds + (c.toNat - '0'.toNat)) % 10 = c.toNat - '0'.toNat := by
        omega
      rw [Nat.toDigits_of_base_le (by decide) (by omega), hdiv, hmod, digitChar_digit hc,
        ih hdigits hds (by simp [noLeadingZero, hhead])]

theorem length_lastDigits (k n : ℕ) : (lastDigits k n).length = k := by
  induction k generalizing n with
  | zero => rfl
  | succ k ih => rw [lastDigits, List.length_append, ih, List.length_singleton]

theorem isDigit_lastDigits (k n : ℕ) : ∀ c ∈ lastDigits k n, c.isDigit = true := by
  induction k generalizing n with
  | zero => exact List.forall_mem_nil _
  | succ k ih =>
    refine List.forall_mem_append.mpr ⟨ih (n / 10), List.forall_mem_singleton.mpr ?_⟩
    rw [Nat.isDigit_digitChar]
    exact decide_eq_true (Nat.mod_lt n (by decide))

theorem natOfDigits_lastDigits (h : n < 10 ^ k) : natOfDigits (lastDigits k n) = n := by
  induction k generalizing n with
  | zero =>
    have hn : n = 0 := Nat.lt_one_iff.mp h
    rw [hn]
    rfl
  | succ k ih =>
    have hdigit : ((n % 10).digitChar).toNat - '0'.toNat = n % 10 := by
      rw [Nat.toNat_digitChar_of_lt_ten (Nat.mod_lt n (by decide))]
      exact Nat.add_sub_cancel_left ..
    have hlt : n / 10 < 10 ^ k := by
      rw [pow_succ] at h
      omega
    rw [lastDigits, natOfDigits_concat, ih hlt, hdigit]
    exact Nat.div_add_mod n 10

theorem leftpad_toDigits (h : n < 10 ^ k) (hk : 0 < k) :
    (Nat.toDigits 10 n).leftpad k '0' = lastDigits k n := by
  have hlen : ((Nat.toDigits 10 n).leftpad k '0').length = k := by
    rw [List.length_leftpad, max_eq_left]
    exact (Nat.length_toDigits_le_iff (by decide) hk).mpr h
  have hdigits : ∀ c ∈ (Nat.toDigits 10 n).leftpad k '0', c.isDigit = true := by
    refine List.forall_mem_append.mpr ⟨fun c hc => ?_, fun c hc => ?_⟩
    · rw [List.eq_of_mem_replicate hc]
      rfl
    · exact Nat.isDigit_of_mem_toDigits (by decide) (by decide) hc
  have hzeros : ∀ m, natOfDigits (List.replicate m '0') = 0 := by
    intro m
    induction m with
    | zero => rfl
    | succ m ih =>
      rw [List.replicate_succ', natOfDigits_concat, ih]
      rfl
  have hval : natOfDigits ((Nat.toDigits 10 n).leftpad k '0') = n := by
    rw [List.leftpad, natOfDigits_append, hzeros, natOfDigits_toDigits, Nat.zero_mul,
      Nat.zero_add]
  have hlast := lastDigits_natOfDigits hdigits
  rw [hlen, hval] at hlast
  exact hlast.symm

theorem head?_toDigits_pos (h : 0 < n) : (Nat.toDigits 10 n).head? ≠ some '0' := by
  induction n using Nat.strong_induction_on with
  | _ n ih =>
    by_cases hlt : n < 10
    · rw [Nat.toDigits_of_lt_base hlt]
      simpa using h.ne'
    · rw [Nat.toDigits_of_base_le (by decide) (by omega),
        List.head?_append_of_ne_nil _ Nat.toDigits_ne_nil]
      exact ih (n / 10) (by omega) (by omega)

theorem noLeadingZero_toDigits (n : ℕ) : noLeadingZero (Nat.toDigits 10 n) = true := by
  by_cases h : n = 0
  · subst h
    rfl
  · have hhead := head?_toDigits_pos (Nat.pos_of_ne_zero h)
    simp [noLeadingZero, hhead]

theorem span_point (h : ∀ c ∈ ds, c.isDigit = true) (cs : List Char) :
    (ds ++ '.' :: cs).takeWhile Char.isDigit = ds ∧
      (ds ++ '.' :: cs).dropWhile Char.isDigit = '.' :: cs := by
  have hpoint : ('.' :: cs).takeWhile Char.isDigit = [] ∧
      ('.' :: cs).dropWhile Char.isDigit = '.' :: cs := ⟨rfl, rfl⟩
  rw [List.takeWhile_append_of_pos h, List.dropWhile_append_of_pos h, hpoint.1, hpoint.2,
    List.append_nil]
  exact ⟨rfl, rfl⟩

theorem render_canonical (k n : ℕ) : isCanonical k (render k n) = true := by
  have hdigits : ∀ c ∈ Nat.toDigits 10 (n / 10 ^ k), c.isDigit = true := fun c hc =>
    Nat.isDigit_of_mem_toDigits (by decide) (by decide) hc
  obtain ⟨htake, hdrop⟩ := span_point hdigits (lastDigits k (n % 10 ^ k))
  have hall : (lastDigits k (n % 10 ^ k)).all Char.isDigit = true :=
    List.all_eq_true.mpr (isDigit_lastDigits k _)
  rw [isCanonical, render, htake, hdrop, noLeadingZero_toDigits]
  simp [hall, length_lastDigits, Nat.toDigits_ne_nil]

theorem unsignedDecimal_render (k n : ℕ) :
    unsignedDecimal (render k n) = some ((n : ℚ) / 10 ^ k) := by
  have hdigits : ∀ c ∈ Nat.toDigits 10 (n / 10 ^ k), c.isDigit = true := fun c hc =>
    Nat.isDigit_of_mem_toDigits (by decide) (by decide) hc
  obtain ⟨htake, hdrop⟩ := span_point hdigits (lastDigits k (n % 10 ^ k))
  have hfraction := isDigit_lastDigits k (n % 10 ^ k)
  have htail : fractionPart ('.' :: lastDigits k (n % 10 ^ k)) =
      (lastDigits k (n % 10 ^ k), []) := by
    rw [fractionPart, List.takeWhile_eq_self_iff.mpr hfraction,
      List.dropWhile_eq_nil_iff.mpr hfraction]
  have hval : natOfDigits (Nat.toDigits 10 (n / 10 ^ k) ++ lastDigits k (n % 10 ^ k)) = n := by
    rw [natOfDigits_append, natOfDigits_toDigits, length_lastDigits,
      natOfDigits_lastDigits (Nat.mod_lt n (Nat.pow_pos (by decide))), Nat.div_add_mod']
  simp only [unsignedDecimal, render, htake, hdrop, htail, hval, length_lastDigits, exponentPart]
  rw [if_neg (by simp [Nat.toDigits_ne_nil]), zero_sub, zpow_neg, zpow_natCast, div_eq_mul_inv]

theorem parseFloat_render {s : String} (hs : s.toList = render k n) :
    parseFloat s = .finite ((n : ℚ) / 10 ^ k) := by
  cases hd : Nat.toDigits 10 (n / 10 ^ k) with
  | nil => exact absurd hd Nat.toDigits_ne_nil
  | cons c cs =>
    have hc : c.isDigit = true :=
      Nat.isDigit_of_mem_toDigits (n := n / 10 ^ k) (by decide) (by decide)
        (hd ▸ List.mem_cons_self)
    have hcons : render k n = c :: (cs ++ '.' :: lastDigits k (n % 10 ^ k)) := by
      rw [render, hd, List.cons_append]
    refine parseFloat_of_unsignedDecimal (hs.trans hcons) hc ?_
    rw [← hcons]
    exact unsignedDecimal_render k n

theorem isCanonical_iff : isCanonical k cs = true ↔ ∃ whole fraction,
    cs = whole ++ '.' :: fraction ∧ (∀ c ∈ whole, c.isDigit = true) ∧ whole ≠ [] ∧
      noLeadingZero whole = true ∧ (∀ c ∈ fraction, c.isDigit = true) ∧ fraction.length = k := by
  constructor
  · intro h
    rw [isCanonical, Bool.and_eq_true, Bool.and_eq_true] at h
    obtain ⟨⟨hne, hzero⟩, hrest⟩ := h
    have hsplit := List.takeWhile_append_dropWhile (p := Char.isDigit) (l := cs)
    split at hrest
    · rename_i fraction hdrop
      rw [Bool.and_eq_true, beq_iff_eq] at hrest
      rw [hdrop] at hsplit
      refine ⟨_, fraction, hsplit.symm, ?_, of_decide_eq_true hne, hzero,
        List.all_eq_true.mp hrest.1, hrest.2⟩
      intro c hc
      exact List.mem_takeWhile_imp hc
    · cases hrest
  · rintro ⟨whole, fraction, rfl, hwhole, hne, hzero, hfraction, hlen⟩
    obtain ⟨htake, hdrop⟩ := span_point hwhole fraction
    rw [isCanonical, htake, hdrop, hzero]
    simp [hne, hlen, List.all_eq_true.mpr hfraction]

theorem render_units_iff (k : ℕ) (cs : List Char) :
    render k (units k cs) = cs ↔ isCanonical k cs = true := by
  constructor
  · intro h
    have hcanonical := render_canonical k (units k cs)
    rwa [h] at hcanonical
  · intro h
    obtain ⟨whole, fraction, rfl, hwhole, hne, hzero, hfraction, hlen⟩ := isCanonical_iff.mp h
    obtain ⟨htake, hdrop⟩ := span_point hwhole fraction
    have hdigits : fraction.takeWhile Char.isDigit = fraction :=
      List.takeWhile_eq_self_iff.mpr hfraction
    have hunits : units k (whole ++ '.' :: fraction) =
        natOfDigits whole * 10 ^ k + natOfDigits fraction := by
      simp only [units, htake, hdrop, fractionPart, hdigits, hlen, Nat.sub_self, pow_zero, mul_one]
    have hlt : natOfDigits fraction < 10 ^ k := by
      rw [← hlen]
      exact natOfDigits_lt hfraction
    have hpos : 0 < 10 ^ k := Nat.pow_pos (by decide)
    have hdiv : (natOfDigits whole * 10 ^ k + natOfDigits fraction) / 10 ^ k =
        natOfDigits whole := by
      rw [Nat.mul_comm, Nat.mul_add_div hpos, Nat.div_eq_of_lt hlt, Nat.add_zero]
    have hmod : (natOfDigits whole * 10 ^ k + natOfDigits fraction) % 10 ^ k =
        natOfDigits fraction := by
      rw [Nat.mul_comm, Nat.mul_add_mod, Nat.mod_eq_of_lt hlt]
    have hlast := lastDigits_natOfDigits hfraction
    rw [hlen] at hlast
    rw [render, hunits, hdiv, hmod, toDigits_natOfDigits hwhole hne hzero, hlast]

end PayFi.Library.FixedPoint
