import PayFi.Escrow.Effects
import PayFi.Library.Machine

namespace PayFi.Escrow.Runs

open Library.Integers Library.Machine Library.Transaction Contract Specs Effects

variable {Address : Type} [DecidableEq Address]

/-- What can happen next: a top-level call with the authorisations it carries, a
new ledger time, or token activity outside the escrow. The last may leave any
balances to other holders, but only adds to what the escrow holds. -/
inductive Action (Address : Type) where
  | invoke (auths : Finset Address) (call : Call Address)
  | advance (now : UInt64)
  | outside (others : Address → Address → ℕ) (deposits : Address → ℕ)

def step (escrow : Address) (s : Ledger Address) : Action Address → Ledger Address
  | .invoke auths call => commit (invoke ⟨escrow, auths⟩ call) s
  | .advance now => { s with timestamp := now }
  | .outside others deposits =>
      { s with balance := fun token holder =>
          if holder = escrow then s.balance token escrow + deposits token else others token holder }

abbrev History (Address : Type) := List (Transition (Ledger Address) (Action Address))

/-- The call a transition has made, if it made one and the call went through. -/
def successful (escrow : Address) (t : Transition (Ledger Address) (Action Address)) :
    Option (Call Address) :=
  match t.action with
  | .invoke auths call =>
      if succeeds (invoke ⟨escrow, auths⟩ call) t.before then some call else none
  | _ => none

/-- The ledger when the contract has just been deployed. -/
def deployed (now : UInt64) (balance : Address → Address → ℕ) : Ledger Address :=
  ⟨now, {}, balance, [], []⟩

variable {escrow : Address} {s t : Ledger Address}

inductive Outcome (escrow : Address) (s : Ledger Address) : Action Address → Ledger Address → Prop
  | made {auths : Finset Address} {call : Call Address} {t : Ledger Address}
      (h : Effect ⟨escrow, auths⟩ s call t) : Outcome escrow s (.invoke auths call) t
  | refused {auths : Finset Address} {call : Call Address}
      (h : succeeds (invoke ⟨escrow, auths⟩ call) s = false) :
      Outcome escrow s (.invoke auths call) s
  | advance (now : UInt64) : Outcome escrow s (.advance now) (step escrow s (.advance now))
  | outside (others : Address → Address → ℕ) (deposits : Address → ℕ) :
      Outcome escrow s (.outside others deposits) (step escrow s (.outside others deposits))

theorem step_outcome (escrow : Address) (hs : Shaped s.storage) (a : Action Address) :
    Outcome escrow s a (step escrow s a) := by
  cases a with
  | invoke auths call =>
    obtain ⟨_, h⟩ | ⟨hf, he⟩ := commit_cases (invoke ⟨escrow, auths⟩ call) s
    · exact .made (effect_of_ok hs h)
    · rw [step, he]
      exact .refused hf
  | advance now => exact .advance now
  | outside others deposits => exact .outside others deposits

theorem successful_of_effect {auths : Finset Address} {call : Call Address}
    (h : Effect ⟨escrow, auths⟩ s call t) (t' : Ledger Address) :
    successful escrow ⟨s, .invoke auths call, t'⟩ = some call := by
  have hs : succeeds (invoke ⟨escrow, auths⟩ call) s = true :=
    succeeds_iff.mpr ⟨(), t, h.invoke_ok⟩
  simp only [successful, hs, if_true]

theorem successful_of_refused {auths : Finset Address} {call : Call Address}
    (h : succeeds (invoke ⟨escrow, auths⟩ call) s = false) (t' : Ledger Address) :
    successful escrow ⟨s, .invoke auths call, t'⟩ = none := by
  simp only [successful, h, Bool.false_eq_true, if_false]

theorem step_shaped (hs : Shaped s.storage) (a : Action Address) :
    Shaped (step escrow s a).storage := by
  have h := step_outcome escrow hs a
  generalize step escrow s a = t at h
  cases h with
  | made h => exact .inr h.deal
  | refused => exact hs
  | advance => exact hs
  | outside => exact hs

theorem reachable_shaped (escrow : Address) (now : UInt64) (balance : Address → Address → ℕ)
    (as : List (Action Address)) : Shaped (run (step escrow) (deployed now balance) as).storage :=
  run_invariant (I := fun s : Ledger Address => Shaped s.storage) (.inl rfl)
    (fun _ a hs => step_shaped hs a) as

theorem effect_of_successful (hs : Shaped s.storage) {a : Action Address} {call : Call Address}
    (h : successful escrow ⟨s, a, t⟩ = some call) :
    ∃ auths, a = .invoke auths call ∧ Effect ⟨escrow, auths⟩ s call (step escrow s a) := by
  have ho := step_outcome escrow hs a
  generalize step escrow s a = s' at ho
  cases ho with
  | made he =>
    rw [successful_of_effect he] at h
    cases h
    exact ⟨_, rfl, he⟩
  | refused hf =>
    rw [successful_of_refused hf] at h
    cases h
  | advance => cases h
  | outside => cases h

theorem effect_of_succeeds (hs : Shaped s.storage) {auths : Finset Address} {call : Call Address}
    (h : succeeds (invoke ⟨escrow, auths⟩ call) s = true) :
    Effect ⟨escrow, auths⟩ s call (step escrow s (.invoke auths call)) := by
  obtain ⟨_, t, ht⟩ := succeeds_iff.mp h
  have he := effect_of_ok hs ht
  rwa [step, commit_of_ok ht]

theorem step_of_effect {auths : Finset Address} {call : Call Address}
    (h : Effect ⟨escrow, auths⟩ s call t) : step escrow s (.invoke auths call) = t :=
  commit_of_ok h.invoke_ok

theorem step_deal {d : Deal Address} (hs : s.storage = d.storage) (a : Action Address) :
    ∃ d' : Deal Address, (step escrow s a).storage = d'.storage := by
  have h := step_outcome escrow (.inr ⟨d, hs⟩) a
  generalize step escrow s a = t at h
  cases h with
  | made h => exact h.deal
  | refused => exact ⟨d, hs⟩
  | advance => exact ⟨d, hs⟩
  | outside => exact ⟨d, hs⟩

theorem opened_of_succeeds (hs : Shaped s.storage) {auths : Finset Address}
    {a b c token : Address} {n : I128} {e : UInt64}
    (h : succeeds (invoke ⟨escrow, auths⟩ (.initialise a b c token n e)) s = true) :
    a ∈ auths ∧ a ≠ c ∧ a ≠ b ∧ c ≠ b ∧ 0 < (n : ℤ) ∧ Covers s token a n ∧
      step escrow s (.invoke auths (.initialise a b c token n e)) =
        settle s (opening a b c token n e s.timestamp) a escrow n
          ⟨["escrow", "initialized"], [.address a, .address b, .i128 n]⟩ := by
  have he := effect_of_succeeds hs h
  generalize step escrow s (.invoke auths (.initialise a b c token n e)) = t at he
  cases he with
  | initialised hs ha hac hab hcb hn hmax he hc => exact ⟨ha, hac, hab, hcb, hn, hc, rfl⟩
  | paid _ _ hp => cases hp

end PayFi.Escrow.Runs
