import PayFi.Escrow.Completeness

namespace PayFi.Escrow.Rotation

open Library.Integers Library.Machine Library.Transaction
open Contract Specs Effects Runs Completeness

variable {Address : Type}

def rotates : Call Address → Bool
  | .proposeNewArbiter .. => true
  | .acceptArbiterRotation => true
  | _ => false

theorem rotates_of_pays {auths : Finset Address} {now : UInt64} {d d' : Deal Address}
    {call : Call Address} {destination : Address} {n : I128} {e : Event Address}
    (hp : Pays auths now d call destination n d' e) : rotates call = false := by
  cases hp <;> rfl

variable [DecidableEq Address]

/-- No arbiter is proposed or accepted. -/
def Quiet (escrow : Address) (u : Transition (Ledger Address) (Action Address)) : Prop :=
  ∀ call, successful escrow u = some call → rotates call = false

/-- A successful proposal, signed by the depositor the escrow stores. -/
structure Proposes (escrow : Address) (u : Transition (Ledger Address) (Action Address))
    (depositor : Address) (p : Proposal Address) : Prop where
  call : successful escrow u = some (.proposeNewArbiter depositor p.candidate)
  signed : ∃ auths, u.action = .invoke auths (.proposeNewArbiter depositor p.candidate) ∧
    depositor ∈ auths
  stored : u.before.storage.depositor = some depositor
  time : u.before.timestamp = p.time

/-- A pending candidate is that of the latest proposal of the history, which
has not been accepted since. -/
def Tracked (escrow : Address) (ts : History Address) (s : Ledger Address) : Prop :=
  ∀ d : Deal Address, s.storage = d.storage → ∀ p, d.pending = some p →
    ∃ u, Since (Quiet escrow) ts u ∧ Proposes escrow u d.state.depositor p

variable {escrow : Address} {s t : Ledger Address} {ts : History Address}

theorem Tracked.concat {v : Transition (Ledger Address) (Action Address)}
    (h : Tracked escrow ts s) (hv : Quiet escrow v)
    (hkeep : ∀ d : Deal Address, t.storage = d.storage → ∀ p, d.pending = some p →
      ∃ d' : Deal Address, s.storage = d'.storage ∧ d'.pending = some p ∧
        d'.state.depositor = d.state.depositor) : Tracked escrow (ts ++ [v]) t := by
  intro d hd p hp
  obtain ⟨d', hs, hp', hdep⟩ := hkeep d hd p hp
  obtain ⟨u, hu, hpr⟩ := h d' hs p hp'
  rw [hdep] at hpr
  exact ⟨u, hu.concat hv, hpr⟩

theorem quiet_of_none {v : Transition (Ledger Address) (Action Address)}
    (h : successful escrow v = none) : Quiet escrow v := by
  intro call hc
  rw [h] at hc
  cases hc

theorem quiet_of_effect {auths : Finset Address} {call : Call Address}
    (he : Effect ⟨escrow, auths⟩ s call t) (h : rotates call = false) (t' : Ledger Address) :
    Quiet escrow ⟨s, .invoke auths call, t'⟩ := by
  intro call' hc
  rw [successful_of_effect he] at hc
  cases hc
  exact h

theorem step_tracked (a : Action Address) (hs : Shaped s.storage) (h : Tracked escrow ts s) :
    Tracked escrow (ts ++ [⟨s, a, step escrow s a⟩]) (step escrow s a) := by
  have ho := step_outcome escrow hs a
  generalize step escrow s a = t at ho
  cases ho with
  | made he =>
    cases he with
    | initialised =>
      intro d hd p hp
      cases Deal.storage_injective hd
      cases hp
    | paid hs' hr hp hc =>
      have hq := quiet_of_effect (.paid hs' hr hp hc) (rotates_of_pays hp)
      refine h.concat (hq _) fun d hd p hpd => ?_
      cases Deal.storage_injective hd
      exact ⟨_, hs', hp.keeps.pending.symm.trans hpd, hp.keeps.depositor.symm⟩
    | @proposed d₀ c hs' ha =>
      intro d hd p hp
      cases Deal.storage_injective hd
      cases hp
      refine ⟨_, Since.last _ _ _, successful_of_effect (.proposed hs' ha) _, ⟨_, rfl, ha⟩, ?_, rfl⟩
      rw [hs']
      rfl
    | accepted =>
      intro d hd p hp
      cases Deal.storage_injective hd
      cases hp
    | observed hs' =>
      exact h.concat (quiet_of_effect (.observed hs') rfl _) fun d hd p hp => ⟨d, hd, hp, rfl⟩
  | refused hf =>
    exact h.concat (quiet_of_none (successful_of_refused hf _)) fun d hd p hp => ⟨d, hd, hp, rfl⟩
  | advance => exact h.concat (quiet_of_none rfl) fun d hd p hp => ⟨d, hd, hp, rfl⟩
  | outside => exact h.concat (quiet_of_none rfl) fun d hd p hp => ⟨d, hd, hp, rfl⟩

theorem reachable_tracked (escrow : Address) (now : UInt64) (balance : Address → Address → ℕ)
    (as : List (Action Address)) :
    Tracked escrow (trace (step escrow) (deployed now balance) as)
      (run (step escrow) (deployed now balance) as) := by
  have h : Shaped (run (step escrow) (deployed now balance) as).storage ∧
      Tracked escrow (trace (step escrow) (deployed now balance) as)
        (run (step escrow) (deployed now balance) as) := by
    refine run_induction (s := deployed now balance)
      (R := fun ts s => Shaped s.storage ∧ Tracked escrow ts s) ⟨.inl rfl, ?_⟩ ?_ as
    · intro d hd
      exact absurd hd.symm (Deal.storage_ne_empty d)
    · rintro ts s a ⟨hs, h⟩
      exact ⟨step_shaped hs a, step_tracked a hs h⟩
  exact h.2

/-- Whenever a step of a run changes the stored arbiter, it is the first
`initialise`, or it installs the candidate of the latest proposal not yet
accepted, no sooner than a day after that proposal. -/
theorem arbiter_change_locked (escrow : Address) (now : UInt64) (balance : Address → Address → ℕ)
    (as : List (Action Address)) (a : Action Address)
    (hchange : (step escrow (run (step escrow) (deployed now balance) as) a).storage.arbiter ≠
      (run (step escrow) (deployed now balance) as).storage.arbiter) :
    let ts := trace (step escrow) (deployed now balance) as
    let s := run (step escrow) (deployed now balance) as
    let t := step escrow s a
    (s.storage.arbiter = none ∧ (successful escrow ⟨s, a, t⟩).any opens = true) ∨
      ∃ u depositor p, Since (Quiet escrow) ts u ∧ Proposes escrow u depositor p ∧
        s.storage.depositor = some depositor ∧ t.storage.arbiter = some p.candidate ∧
        p.time.toNat + 86400 ≤ s.timestamp.toNat := by
  intro ts s t
  have htr : Tracked escrow ts s := reachable_tracked escrow now balance as
  have ho : Outcome escrow s a t := step_outcome escrow (reachable_shaped escrow now balance as) a
  change t.storage.arbiter ≠ s.storage.arbiter at hchange
  clear_value ts s t
  cases ho with
  | made he =>
    rw [successful_of_effect he]
    cases he with
    | initialised hs =>
      refine .inl ⟨?_, rfl⟩
      rw [hs]
    | paid hs hr hp hc =>
      refine absurd ?_ hchange
      rw [hs]
      exact congrArg some hp.keeps.arbiter
    | proposed hs =>
      refine absurd ?_ hchange
      rw [hs]
      rfl
    | @accepted d p hs hp ht =>
      obtain ⟨u, hu, hpr⟩ := htr d hs p hp
      refine .inr ⟨u, _, p, hu, hpr, ?_, rfl, ht⟩
      rw [hs]
      rfl
    | observed => exact absurd rfl hchange
  | refused => exact absurd rfl hchange
  | advance => exact absurd rfl hchange
  | outside => exact absurd rfl hchange

theorem arbiter_change_locked_replaced :
    let as : List (Action ℕ) := [.invoke {1} (.initialise 1 2 3 9 (.ofNat 100 (by decide)) 50),
      .invoke {1} (.proposeNewArbiter 1 4), .advance 10, .invoke {1} (.proposeNewArbiter 1 5),
      .advance 86410]
    let start : Ledger ℕ := deployed 0 fun _ holder => if holder = 1 then 500 else 0
    let s := run (step 0) start as
    let t := step 0 s (.invoke {} .acceptArbiterRotation)
    (s.storage.arbiter = none ∧
        (successful 0 ⟨s, .invoke {} .acceptArbiterRotation, t⟩).any opens = true) ∨
      ∃ u depositor p, Since (Quiet 0) (trace (step 0) start as) u ∧ Proposes 0 u depositor p ∧
        s.storage.depositor = some depositor ∧ t.storage.arbiter = some p.candidate ∧
        p.time.toNat + 86400 ≤ s.timestamp.toNat :=
  arbiter_change_locked 0 0 _ _ _ (by decide)

end PayFi.Escrow.Rotation
