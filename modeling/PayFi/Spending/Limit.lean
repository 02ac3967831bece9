import PayFi.Library.Decimals
import PayFi.Spending.Tracker

namespace PayFi.Spending.Limit

open Library.Numbers Library.FixedPoint Library.Decimals Tracker

/-- A positive decimal with up to seven places and no superfluous zero in front. -/
def IsLimit (s : String) : Prop :=
  ∃ n : Numeral, s.toList = n.text ∧ n.fraction.length ≤ 7 ∧ noLeadingZero n.whole = true ∧
    0 < n.value

/-- A zero, a point and up to seven digits, not all of them zeros. -/
def BelowOne (s : String) : Prop :=
  ∃ ds, s.toList = '0' :: '.' :: ds ∧ ds.length ≤ 7 ∧ (∀ c ∈ ds, c.isDigit = true) ∧
    ∃ c ∈ ds, c ≠ '0'

variable {s : String} {n : Numeral}

theorem head?_text (n : Numeral) : n.text.head? = n.whole.head? := by
  rw [Numeral.text, List.head?_append_of_ne_nil _ n.nonempty]

theorem spendingLimitSchema_iff : spendingLimitSchema s = true ↔
    ∃ n : Numeral, s.toList = n.text ∧ n.fraction.length ≤ 7 ∧ n.whole.head? ≠ some '0' := by
  rw [spendingLimitSchema, Bool.and_eq_true, decide_eq_true_eq, isDecimal_iff]
  constructor
  · rintro ⟨⟨n, hs, hlength⟩, hhead⟩
    rw [hs, head?_text] at hhead
    exact ⟨n, hs, hlength, hhead⟩
  · rintro ⟨n, hs, hlength, hhead⟩
    refine ⟨⟨n, hs, hlength⟩, ?_⟩
    rwa [hs, head?_text]

theorem value_pos_of_head (h : n.whole.head? ≠ some '0') : 0 < n.value := by
  rw [value_pos_iff]
  cases hwhole : n.whole with
  | nil => exact absurd hwhole n.nonempty
  | cons c cs =>
    rw [hwhole, List.head?_cons, ne_eq, Option.some.injEq] at h
    exact ⟨c, List.mem_append_left _ (hwhole ▸ List.mem_cons_self), h⟩

theorem isLimit_of_accepted (h : spendingLimitSchema s = true) : IsLimit s := by
  obtain ⟨n, hs, hlength, hhead⟩ := spendingLimitSchema_iff.mp h
  refine ⟨n, hs, hlength, ?_, value_pos_of_head hhead⟩
  rw [noLeadingZero, bne_iff_ne.mpr hhead, Bool.or_true]

theorem whole_eq_zero (hhead : n.whole.head? = some '0') (hzero : noLeadingZero n.whole = true) :
    n.whole = ['0'] := by
  rw [noLeadingZero, hhead, bne_self_eq_false, Bool.or_false, beq_iff_eq] at hzero
  obtain ⟨c, hc⟩ := List.length_eq_one_iff.mp hzero
  rw [hc, List.head?_cons, Option.some.injEq] at hhead
  rw [hc, hhead]

theorem belowOne_iff : BelowOne s ↔ IsLimit s ∧ spendingLimitSchema s = false := by
  constructor
  · rintro ⟨ds, hs, hlength, hds, c, hc, hne⟩
    have hnil : ds ≠ [] := List.ne_nil_of_mem hc
    let n : Numeral := ⟨['0'], ds, List.cons_ne_nil _ _, List.forall_mem_singleton.mpr rfl, hds⟩
    have htext : s.toList = n.text := by
      rw [hs, Numeral.text, point, if_neg hnil]
      rfl
    refine ⟨⟨n, htext, hlength, rfl, (value_pos_iff n).mpr ⟨c, ?_, hne⟩⟩, ?_⟩
    · exact List.mem_append_right _ hc
    · rw [spendingLimitSchema, hs]
      exact Bool.and_false _
  · rintro ⟨⟨n, hs, hlength, hzero, hpos⟩, hrejected⟩
    have hhead : n.whole.head? = some '0' := by
      by_contra hhead
      rw [spendingLimitSchema_iff.mpr ⟨n, hs, hlength, hhead⟩] at hrejected
      cases hrejected
    have hwhole := whole_eq_zero hhead hzero
    obtain ⟨c, hc, hne⟩ := (value_pos_iff n).mp hpos
    have hfraction : c ∈ n.fraction := by
      obtain hc | hc := List.mem_append.mp hc
      · rw [hwhole] at hc
        exact absurd (List.mem_singleton.mp hc) hne
      · exact hc
    refine ⟨n.fraction, ?_, hlength, n.fraction_digits, c, hfraction, hne⟩
    rw [hs, Numeral.text, hwhole, point, if_neg (List.ne_nil_of_mem hfraction)]
    rfl

/-- The schema takes the positive decimals, but for those below one. -/
theorem limit_grammar_iff (s : String) :
    (spendingLimitSchema s = true ↔ IsLimit s) ↔ ¬BelowOne s := by
  rw [belowOne_iff, not_and, Bool.not_eq_false]
  exact ⟨fun h => h.mpr, fun h => ⟨isLimit_of_accepted, h⟩⟩

theorem half_refused : spendingLimitSchema "0.5" = false ∧ IsLimit "0.5" :=
  (belowOne_iff.mp ⟨['5'], by decide, by decide, List.forall_mem_singleton.mpr rfl, '5',
    List.mem_cons_self, by decide⟩).symm

end PayFi.Spending.Limit
