import Mathlib.Data.List.Forall2
import Mathlib.Tactic.Common

namespace PayFi.Library.Results

variable {ε ε' α β : Type}

theorem bind_eq_ok {x : Except ε α} {f : α → Except ε β} {b : β} :
    x >>= f = .ok b ↔ ∃ a, x = .ok a ∧ f a = .ok b := by
  cases x <;> simp [Bind.bind, Except.bind]

theorem bind_eq_error {x : Except ε α} {f : α → Except ε β} {e : ε} :
    x >>= f = .error e ↔ x = .error e ∨ ∃ a, x = .ok a ∧ f a = .error e := by
  cases x <;> simp [Bind.bind, Except.bind]

theorem mapError_eq_ok {x : Except ε α} {g : ε → ε'} {a : α} :
    x.mapError g = .ok a ↔ x = .ok a := by
  cases x <;> simp [Except.mapError]

theorem mapError_eq_error {x : Except ε α} {g : ε → ε'} {e : ε'} :
    x.mapError g = .error e ↔ ∃ e', x = .error e' ∧ g e' = e := by
  cases x <;> simp [Except.mapError]

theorem map_eq_map {γ : Type} {x : Except ε α} {y : Except ε β} {f : α → γ} {g : β → γ}
    (h : x.map f = y.map g) :
    (∃ e, x = .error e ∧ y = .error e) ∨ ∃ a b, x = .ok a ∧ y = .ok b ∧ f a = g b := by
  cases x with
  | error e =>
    cases y with
    | error e' =>
      cases h
      exact .inl ⟨e, rfl, rfl⟩
    | ok b => cases h
  | ok a =>
    cases y with
    | error e => cases h
    | ok b => exact .inr ⟨a, b, rfl, rfl, Except.ok.inj h⟩

theorem throwIf_eq_ok {p : Prop} [Decidable p] {e : ε} {f : PUnit → Except ε β} {b : β} :
    (if p then throw e >>= f else f ⟨⟩) = .ok b ↔ ¬p ∧ f ⟨⟩ = .ok b := by
  by_cases hp : p
  · rw [if_pos hp]
    refine iff_of_false (fun h => ?_) fun h => h.1 hp
    cases h
  · rw [if_neg hp]
    exact ⟨fun h => ⟨hp, h⟩, fun h => h.2⟩

theorem throwIf_eq_error {p : Prop} [Decidable p] {e e' : ε} {f : PUnit → Except ε β} :
    (if p then throw e' >>= f else f ⟨⟩) = .error e ↔ p ∧ e' = e ∨ ¬p ∧ f ⟨⟩ = .error e := by
  by_cases hp : p
  · rw [if_pos hp]
    simp [hp, throw, throwThe, MonadExceptOf.throw, Bind.bind, Except.bind]
  · simp [hp]

theorem bind_unit_eq_error {x : Except ε Unit} {y : Except ε α} :
    (∃ e, (x >>= fun _ => y) = .error e) ↔ x ≠ .ok () ∨ ∃ e, y = .error e := by
  cases x <;> simp [Bind.bind, Except.bind]

theorem mapM_eq_ok {f : α → Except ε β} {xs : List α} {ys : List β} :
    xs.mapM f = .ok ys ↔ List.Forall₂ (fun x y => f x = .ok y) xs ys := by
  induction xs generalizing ys with
  | nil =>
    rw [List.mapM_nil, List.forall₂_nil_left_iff]
    exact ⟨fun h => by cases h; rfl, fun h => by rw [h]; rfl⟩
  | cons x xs ih =>
    simp only [List.mapM_cons, bind_eq_ok, List.forall₂_cons_left_iff, ih]
    constructor
    · rintro ⟨y, hy, ys', hys, h⟩
      cases h
      exact ⟨y, ys', hy, hys, rfl⟩
    · rintro ⟨y, ys', hy, hys, rfl⟩
      exact ⟨y, hy, ys', hys, rfl⟩

end PayFi.Library.Results
