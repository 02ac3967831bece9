import PayFi.Escrow.Completeness
import PayFi.Escrow.Solvency

namespace PayFi.Escrow.Authority

open Library.Integers Library.Machine Library.Transaction
open Contract Specs Effects Runs Completeness Solvency

variable {Address : Type}

/-- A call without its address arguments. -/
def erase : Call Address → Call Unit
  | .initialise _ _ _ _ n e => .initialise () () () () n e
  | .release _ => .release ()
  | .refund _ => .refund ()
  | .getState => .getState
  | .releasePartial _ n => .releasePartial () n
  | .cancel _ _ => .cancel () ()
  | .proposeNewArbiter _ _ => .proposeNewArbiter () ()
  | .acceptArbiterRotation => .acceptArbiterRotation

/-- What a call pays out of the deal `e`, whatever addresses it is given. -/
def dues (escrow : Address) (e : EscrowState Address) : Call Unit → List (Transfer Address)
  | .release _ => [⟨e.token, escrow, e.recipient, e.amount⟩]
  | .refund _ => [⟨e.token, escrow, e.depositor, e.amount⟩]
  | .releasePartial _ n => [⟨e.token, escrow, e.recipient, n⟩]
  | .cancel _ _ => [⟨e.token, escrow, e.depositor, e.amount⟩]
  | _ => []

/-- A payout of the deal `e` that its parties have signed for. -/
structure Signed (escrow : Address) (auths : Finset Address) (now : UInt64)
    (e : EscrowState Address) (p : Transfer Address) : Prop where
  source : p.source = escrow
  token : p.token = e.token
  payee : p.destination = e.recipient ∨ p.destination = e.depositor
  released : p.destination = e.recipient → e.arbiter ∈ auths
  refunded : p.destination = e.depositor →
    e.depositor ∈ auths ∧ e.expiry ≤ now ∨ e.depositor ∈ auths ∧ e.arbiter ∈ auths

/-- The transfer by which an escrow is opened. -/
structure Pulled (escrow : Address) (auths : Finset Address) (s : Ledger Address)
    (call : Call Address) (p : Transfer Address) : Prop where
  uninitialised : s.storage.depositor = none
  call : opens call = true
  source : p.source ∈ auths
  destination : p.destination = escrow

variable {escrow : Address} {s t : Ledger Address} {d : Deal Address}

theorem paid_dues {auths : Finset Address} {now : UInt64} {call : Call Address}
    {d' : Deal Address} {destination : Address} {n : I128} {e : Event Address}
    (hp : Pays auths now d call destination n d' e) :
    dues escrow d.state (erase call) = [⟨d'.state.token, escrow, destination, n⟩] := by
  cases hp with
  | release => rfl
  | refund => rfl
  | cancel => rfl
  | releasePartial => rfl

theorem paid_signed {auths : Finset Address} {now : UInt64} {call : Call Address}
    {d' : Deal Address} {destination : Address} {n : I128} {e : Event Address}
    (hne : d.state.depositor ≠ d.state.recipient)
    (hp : Pays auths now d call destination n d' e) :
    Signed escrow auths now d.state ⟨d'.state.token, escrow, destination, n⟩ := by
  refine ⟨rfl, hp.keeps.token, ?_, ?_, ?_⟩
  · cases hp with
    | release => exact .inl rfl
    | refund => exact .inr rfl
    | cancel => exact .inr rfl
    | releasePartial => exact .inl rfl
  · intro hr
    cases hp with
    | release ha => exact ha
    | refund => exact absurd hr hne
    | cancel => exact absurd hr hne
    | releasePartial ha => exact ha
  · intro hd
    cases hp with
    | release => exact absurd hd.symm hne
    | refund hdep he => exact .inl ⟨hdep, he⟩
    | cancel hdep ha => exact .inr ⟨hdep, ha⟩
    | releasePartial => exact absurd hd.symm hne

variable [DecidableEq Address]

theorem transfers_of_effect {auths : Finset Address} {call : Call Address}
    (hs : s.storage = d.storage) (he : Effect ⟨escrow, auths⟩ s call t) :
    t.transfers = s.transfers ++ dues escrow d.state (erase call) := by
  cases he with
  | initialised h0 => exact absurd h0 (Deal.initialised hs)
  | paid hs' hr hp =>
    cases Deal.unique hs' hs
    rw [paid_dues hp]
    rfl
  | proposed => exact (List.append_nil _).symm
  | accepted => exact (List.append_nil _).symm
  | observed => exact (List.append_nil _).symm

theorem step_transfers (h : Sound escrow s) (a : Action Address) :
    ∃ ps, (step escrow s a).transfers = s.transfers ++ ps ∧ ∀ p ∈ ps, ∃ auths call,
      a = .invoke auths call ∧ (Pulled escrow auths s call p ∨
        ∃ e, Stores s.storage e ∧ Signed escrow auths s.timestamp e p) := by
  have ho := step_outcome escrow h.shaped a
  generalize step escrow s a = t at ho
  cases ho with
  | made he =>
    cases he with
    | initialised hs ha =>
      refine ⟨_, rfl, fun p hp => ⟨_, _, rfl, .inl ?_⟩⟩
      cases List.mem_singleton.mp hp
      exact ⟨by rw [hs], rfl, ha, rfl⟩
    | paid hs hr hp =>
      refine ⟨_, rfl, fun p hmem => ⟨_, _, rfl, .inr ⟨_, Deal.stores hs, ?_⟩⟩⟩
      cases List.mem_singleton.mp hmem
      exact paid_signed (h.solvent hs).distinct hp
    | proposed => exact ⟨[], (List.append_nil _).symm, by simp⟩
    | accepted => exact ⟨[], (List.append_nil _).symm, by simp⟩
    | observed => exact ⟨[], (List.append_nil _).symm, by simp⟩
  | refused => exact ⟨[], (List.append_nil _).symm, by simp⟩
  | advance => exact ⟨[], (List.append_nil _).symm, by simp⟩
  | outside => exact ⟨[], (List.append_nil _).symm, by simp⟩

/-- Along every run each transfer is either the one that opens the escrow or a
payout its parties have signed for. And two calls that differ in their address
arguments and signers only, when both succeed, transfer the same. -/
theorem transfers_signed (escrow : Address) (now : UInt64) (balance : Address → Address → ℕ)
    (as : List (Action Address)) :
    let s := run (step escrow) (deployed now balance) as
    (∀ a, ∃ ps, (step escrow s a).transfers = s.transfers ++ ps ∧ ∀ p ∈ ps, ∃ auths call,
      a = .invoke auths call ∧ (Pulled escrow auths s call p ∨
        ∃ e, Stores s.storage e ∧ Signed escrow auths s.timestamp e p)) ∧
    ∀ e, Stores s.storage e → ∀ auths auths' call call', erase call = erase call' →
      succeeds (invoke ⟨escrow, auths⟩ call) s = true →
      succeeds (invoke ⟨escrow, auths'⟩ call') s = true →
      (step escrow s (.invoke auths call)).transfers =
        (step escrow s (.invoke auths' call')).transfers := by
  intro s
  have hs : Sound escrow s := reachable_sound escrow now balance as
  refine ⟨step_transfers hs, fun e he auths auths' call call' hsame h h' => ?_⟩
  obtain h0 | ⟨d, hd⟩ := hs.shaped
  · have hdep := he.depositor
    rw [h0] at hdep
    cases hdep
  · rw [transfers_of_effect hd (effect_of_succeeds hs.shaped h),
      transfers_of_effect hd (effect_of_succeeds hs.shaped h'), hsame]

end PayFi.Escrow.Authority
