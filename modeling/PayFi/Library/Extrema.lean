import PayFi.Library.Numbers

namespace PayFi.Library.Extrema

open Numbers

section Pick

variable {α β : Type} [LinearOrder β] (f : α → β)

def pick (best candidate : α) : α := if f best < f candidate then candidate else best

theorem pick_eq (best candidate : α) :
    pick f best candidate = best ∨ pick f best candidate = candidate := by
  unfold pick
  split
  · exact .inr rfl
  · exact .inl rfl

theorem le_pick (best candidate : α) :
    f best ≤ f (pick f best candidate) ∧ f candidate ≤ f (pick f best candidate) := by
  unfold pick
  split
  · rename_i h
    exact ⟨h.le, le_rfl⟩
  · rename_i h
    exact ⟨le_rfl, not_lt.mp h⟩

theorem foldl_pick_mem (a : α) (as : List α) : as.foldl (pick f) a ∈ a :: as := by
  induction as generalizing a with
  | nil => exact List.mem_cons_self
  | cons b as ih =>
    rw [List.foldl_cons]
    apply List.mem_cons.mpr
    rcases List.mem_cons.mp (ih (pick f a b)) with h | h
    · rw [h]
      rcases pick_eq f a b with h | h
      · exact .inl h
      · rw [h]
        exact .inr List.mem_cons_self
    · exact .inr (List.mem_cons_of_mem b h)

theorem le_foldl_pick (a : α) (as : List α) : ∀ x ∈ a :: as, f x ≤ f (as.foldl (pick f) a) := by
  induction as generalizing a with
  | nil =>
    intro x hx
    rw [List.mem_singleton.mp hx]
    exact le_rfl
  | cons b as ih =>
    intro x hx
    have hpick := ih (pick f a b) (pick f a b) List.mem_cons_self
    rw [List.foldl_cons]
    rcases List.mem_cons.mp hx with rfl | hx
    · exact (le_pick f x b).1.trans hpick
    · rcases List.mem_cons.mp hx with rfl | hx
      · exact (le_pick f a x).2.trans hpick
      · exact ih (pick f a b) x (List.mem_cons_of_mem _ hx)

end Pick

def mul : Number → Number → Number
  | .finite p, .finite q => .finite (p * q)
  | .finite p, .infinity n | .infinity n, .finite p =>
    if p = 0 then .nan else .infinity (n != decide (p < 0))
  | .infinity m, .infinity n => .infinity (m != n)
  | _, _ => .nan

def div : Number → Number → Number
  | .finite p, .finite q =>
    if q ≠ 0 then .finite (p / q) else if p = 0 then .nan else .infinity (p < 0)
  | .finite _, .infinity _ => .finite 0
  | .infinity n, .finite q => .infinity (n != decide (q < 0))
  | _, _ => .nan

/-- The comparison `x <= y`. -/
def le (m n : Number) : Bool := m.lt n || (m = n && !m.isNaN)

def max (m n : Number) : Number :=
  if m.isNaN || n.isNaN then .nan else if m.lt n then n else m

def min (m n : Number) : Number :=
  if m.isNaN || n.isNaN then .nan else if n.lt m then n else m

/-- `Math.max` of any number of arguments. -/
def maximum (ns : List Number) : Number := ns.foldl max (.infinity true)

/-- `Math.min`. -/
def minimum (ns : List Number) : Number := ns.foldl min (.infinity false)

theorem foldl_max_finite (q : ℚ) (qs : List ℚ) :
    (qs.map Number.finite).foldl max (.finite q) = .finite (qs.foldl (pick id) q) := by
  induction qs generalizing q with
  | nil => rfl
  | cons r qs ih =>
    have hmax : max (.finite q) (.finite r) = .finite (pick id q r) := by
      simp only [max, Number.isNaN, Number.lt, pick, Bool.or_self, Bool.false_eq_true, if_false,
        decide_eq_true_eq, id]
      split <;> rfl
    rw [List.map_cons, List.foldl_cons, List.foldl_cons, hmax, ih]

theorem foldl_min_finite (q : ℚ) (qs : List ℚ) :
    (qs.map Number.finite).foldl min (.finite q) = .finite (qs.foldl (pick Neg.neg) q) := by
  induction qs generalizing q with
  | nil => rfl
  | cons r qs ih =>
    have hmin : min (.finite q) (.finite r) = .finite (pick Neg.neg q r) := by
      simp only [min, Number.isNaN, Number.lt, pick, Bool.or_self, Bool.false_eq_true, if_false,
        decide_eq_true_eq, neg_lt_neg_iff]
      split <;> rfl
    rw [List.map_cons, List.foldl_cons, List.foldl_cons, hmin, ih]

variable {qs : List ℚ}

theorem maximum_finite (hne : qs ≠ []) :
    ∃ m, maximum (qs.map Number.finite) = .finite m ∧ m ∈ qs ∧ ∀ q ∈ qs, q ≤ m := by
  cases qs with
  | nil => exact absurd rfl hne
  | cons q qs =>
    refine ⟨qs.foldl (pick id) q, ?_, foldl_pick_mem id q qs, le_foldl_pick id q qs⟩
    exact foldl_max_finite q qs

theorem minimum_finite (hne : qs ≠ []) :
    ∃ m, minimum (qs.map Number.finite) = .finite m ∧ m ∈ qs ∧ ∀ q ∈ qs, m ≤ q := by
  cases qs with
  | nil => exact absurd rfl hne
  | cons q qs =>
    refine ⟨qs.foldl (pick Neg.neg) q, ?_, foldl_pick_mem Neg.neg q qs, fun r hr => ?_⟩
    · exact foldl_min_finite q qs
    · exact neg_le_neg_iff.mp (le_foldl_pick Neg.neg q qs r hr)

end PayFi.Library.Extrema
