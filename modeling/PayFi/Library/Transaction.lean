import Mathlib.Tactic.Common

namespace PayFi.Library.Transaction

variable {σ ε α β : Type}

/-- A computation over a store that either returns or panics. A panic carries no
store: whatever was written before it is gone. -/
abbrev Atomic (σ ε α : Type) := StateT σ (Except ε) α

def panicIf (p : Prop) [Decidable p] (e : ε) : Atomic σ ε Unit :=
  fun s => if p then .error e else .ok ((), s)

def expect (e : ε) : Option α → Atomic σ ε α
  | some a => pure a
  | none => fun _ => .error e

def read (f : σ → α) : Atomic σ ε α := fun s => .ok (f s, s)

def write (f : σ → σ) : Atomic σ ε Unit := fun s => .ok ((), f s)

def commit (x : Atomic σ ε α) (s : σ) : σ :=
  match x s with
  | .ok (_, t) => t
  | .error _ => s

def succeeds (x : Atomic σ ε α) (s : σ) : Bool := (x s).isOk

section Bind

variable {s : σ} {e : ε}

theorem bind_assoc_apply {γ : Type} (x : Atomic σ ε α) (f : α → Atomic σ ε β)
    (g : β → Atomic σ ε γ) : ((x >>= f) >>= g) s = (x >>= fun a => f a >>= g) s := by
  rw [bind_assoc]

theorem panicIf_bind (p : Prop) [Decidable p] (f : Unit → Atomic σ ε β) :
    (panicIf p e >>= f) s = if p then .error e else f () s := by
  by_cases h : p <;> simp [panicIf, bind, StateT.bind, Except.bind, h]

theorem expect_bind (o : Option α) (f : α → Atomic σ ε β) :
    (expect e o >>= f) s = match o with | some a => f a s | none => .error e := by
  cases o <;> rfl

theorem read_bind (g : σ → α) (f : α → Atomic σ ε β) : (read g >>= f) s = f (g s) s := by
  simp only [read, bind, StateT.bind, Except.bind]

theorem write_bind (g : σ → σ) (f : Unit → Atomic σ ε β) :
    (write g >>= f) s = f () (g s) := by
  simp only [write, bind, StateT.bind, Except.bind]

end Bind

theorem commit_of_ok {x : Atomic σ ε α} {a : α} {s t : σ} (h : x s = .ok (a, t)) :
    commit x s = t := by simp [commit, h]

theorem commit_of_not_succeeds {x : Atomic σ ε α} {s : σ} (h : succeeds x s = false) :
    commit x s = s := by
  cases hx : x s with
  | error e => simp [commit, hx]
  | ok p => simp [succeeds, hx, Except.isOk, Except.toBool] at h

theorem succeeds_iff {x : Atomic σ ε α} {s : σ} :
    succeeds x s = true ↔ ∃ a t, x s = .ok (a, t) := by
  cases hx : x s with
  | error e => simp [succeeds, hx, Except.isOk, Except.toBool]
  | ok p => exact ⟨fun _ => ⟨p.1, p.2, hx ▸ rfl⟩, fun _ => by simp [succeeds, hx, Except.isOk,
      Except.toBool]⟩

theorem commit_cases (x : Atomic σ ε α) (s : σ) :
    (∃ a, x s = .ok (a, commit x s)) ∨ succeeds x s = false ∧ commit x s = s := by
  cases h : succeeds x s with
  | false => exact .inr ⟨rfl, commit_of_not_succeeds h⟩
  | true =>
    obtain ⟨a, t, ht⟩ := succeeds_iff.mp h
    exact .inl ⟨a, by rw [commit_of_ok ht, ht]⟩

end PayFi.Library.Transaction
