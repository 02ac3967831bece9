import Mathlib.Data.List.Basic
import Mathlib.Tactic.Common

namespace PayFi.Library.Parties

variable {α : Type} {P : α → Prop} {xs : List α} {i : ℕ} {f : α → α}

theorem forall_mem_concat (h : ∀ x ∈ xs, P x) {y : α} (hy : P y) : ∀ x ∈ xs ++ [y], P x :=
  List.forall_mem_append.mpr ⟨h, List.forall_mem_singleton.mpr hy⟩

theorem pairwise_concat {R : α → α → Prop} (h : xs.Pairwise R) {y : α} (hy : ∀ x ∈ xs, R x y) :
    (xs ++ [y]).Pairwise R := by
  refine List.pairwise_append.mpr ⟨h, List.pairwise_singleton .., fun x hx z hz => ?_⟩
  rw [List.mem_singleton.mp hz]
  exact hy x hx

theorem mem_modify {x : α} (hx : x ∈ xs.modify i f) :
    x ∈ xs ∨ ∃ y, xs[i]? = some y ∧ x = f y := by
  obtain ⟨j, hj⟩ := List.mem_iff_getElem?.mp hx
  rw [List.getElem?_modify] at hj
  obtain ⟨y, hy, rfl⟩ := Option.map_eq_some_iff.mp hj
  by_cases hij : i = j
  · subst hij
    exact .inr ⟨y, hy, by simp⟩
  · exact .inl (by simpa [hij] using List.mem_of_getElem? hy)

theorem forall_mem_modify (h : ∀ x ∈ xs, P x) (hf : ∀ y, xs[i]? = some y → P y → P (f y)) :
    ∀ x ∈ xs.modify i f, P x := by
  intro x hx
  obtain hx | ⟨y, hy, rfl⟩ := mem_modify hx
  · exact h x hx
  · exact hf y hy (h y (List.mem_of_getElem? hy))

theorem map_modify {β : Type} {view : α → β} {f : α → α} {g : β → β}
    (h : ∀ x, view (f x) = g (view x)) (xs : List α) (i : ℕ) :
    (xs.modify i f).map view = (xs.map view).modify i g := by
  apply List.ext_getElem?
  intro j
  rw [List.getElem?_map, List.getElem?_modify, List.getElem?_modify, List.getElem?_map]
  cases xs[j]? with
  | none => rfl
  | some x => by_cases hij : i = j <;> simp [hij, h]

end PayFi.Library.Parties
