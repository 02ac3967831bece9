import Mathlib.Data.List.Basic
import Mathlib.Tactic.Common

namespace PayFi.Library.Programs

/-- A program that ends with a result, or asks a question and goes on with the answer. -/
inductive Program (Q : Type) (A : Q → Type) (R : Type) where
  | done (result : R)
  | ask (question : Q) (rest : A question → Program Q A R)

variable {Q P S : Type} {A : Q → Type} {B : P → Type} {R R' : Type}

def Program.bind (p : Program Q A R) (f : R → Program Q A R') : Program Q A R' :=
  match p with
  | .done r => f r
  | .ask q rest => .ask q fun a => (rest a).bind f

theorem Program.bind_assoc {R'' : Type} (p : Program Q A R) (f : R → Program Q A R')
    (g : R' → Program Q A R'') : (p.bind f).bind g = p.bind fun r => (f r).bind g := by
  induction p with
  | done r => rfl
  | ask q rest ih =>
    rw [Program.bind, Program.bind, Program.bind]
    exact congrArg (Program.ask q) (funext ih)

def substitute (f : (q : Q) → Program P B (A q)) : Program Q A R → Program P B R
  | .done r => .done r
  | .ask q rest => (f q).bind fun a => substitute f (rest a)

/-- The questions are answered by a handler with a state. -/
def follow (handler : (q : Q) → S → A q × S) : Program Q A R → S → R × S
  | .done r, s => (r, s)
  | .ask q rest, s => follow handler (rest (handler q s).1) (handler q s).2

def asked (handler : (q : Q) → S → A q × S) : Program Q A R → S → List Q
  | .done _, _ => []
  | .ask q rest, s => q :: asked handler (rest (handler q s).1) (handler q s).2

theorem follow_bind (handler : (q : Q) → S → A q × S) (p : Program Q A R)
    (f : R → Program Q A R') (s : S) :
    follow handler (p.bind f) s = follow handler (f (follow handler p s).1)
      (follow handler p s).2 := by
  induction p generalizing s with
  | done r => rfl
  | ask q rest ih => exact ih _ _

theorem asked_bind (handler : (q : Q) → S → A q × S) (p : Program Q A R)
    (f : R → Program Q A R') (s : S) :
    asked handler (p.bind f) s = asked handler p s ++
      asked handler (f (follow handler p s).1) (follow handler p s).2 := by
  induction p generalizing s with
  | done r => rfl
  | ask q rest ih =>
    rw [Program.bind, asked, ih]
    rfl

theorem follow_substitute (handler : (p : P) → S → B p × S) (f : (q : Q) → Program P B (A q))
    (p : Program Q A R) (s : S) :
    follow handler (substitute f p) s = follow (fun q => follow handler (f q)) p s := by
  induction p generalizing s with
  | done r => rfl
  | ask q rest ih =>
    rw [substitute, follow_bind]
    exact ih _ _

end PayFi.Library.Programs
