import Mathlib.Data.List.Basic
import Mathlib.Tactic.Common

namespace PayFi.Library.Validation

variable {ε α β : Type}

inductive Checked (ε α : Type) where
  | valid (a : α)
  | invalid (issues : List ε)

def Checked.apply : Checked ε (α → β) → Checked ε α → Checked ε β
  | .valid f, .valid a => .valid (f a)
  | .valid _, .invalid issues => .invalid issues
  | .invalid issues, .valid _ => .invalid issues
  | .invalid issues, .invalid issues' => .invalid (issues ++ issues')

inductive Related (r : α → β → Prop) : Checked ε α → Checked ε β → Prop
  | valid {a : α} {b : β} (h : r a b) : Related r (.valid a) (.valid b)
  | invalid (issues : List ε) : Related r (.invalid issues) (.invalid issues)

variable {f : Checked ε (α → β)} {x y : Checked ε α}

theorem apply_eq_valid {b : β} :
    f.apply x = .valid b ↔ ∃ g a, f = .valid g ∧ x = .valid a ∧ g a = b := by
  cases f with
  | invalid issues => cases x <;> simp [Checked.apply]
  | valid g => cases x <;> simp [Checked.apply]

theorem Related.refl {r : α → α → Prop} (hr : ∀ a, r a a) (x : Checked ε α) : Related r x x := by
  cases x with
  | valid a => exact .valid (hr a)
  | invalid issues => exact .invalid issues

theorem Related.apply {s : α → α → Prop} {r : β → β → Prop} {g : Checked ε (α → β)}
    (hf : Related (fun f g => ∀ a b, s a b → r (f a) (g b)) f g) (hx : Related s x y) :
    Related r (f.apply x) (g.apply y) := by
  cases hf with
  | valid hf =>
    cases hx with
    | valid hx => exact .valid (hf _ _ hx)
    | invalid issues => exact .invalid issues
  | invalid issues =>
    cases hx with
    | valid hx => exact .invalid issues
    | invalid issues' => exact .invalid (issues ++ issues')

end PayFi.Library.Validation
