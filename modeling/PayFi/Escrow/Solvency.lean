import PayFi.Escrow.Runs

namespace PayFi.Escrow.Solvency

open Library.Balances Library.Machine Contract Specs Effects Runs

variable {Address : Type}

structure Solvent (escrow : Address) (s : Ledger Address) (d : Deal Address) : Prop where
  storage : s.storage = d.storage
  distinct : d.state.depositor ≠ d.state.recipient
  nonneg : 0 ≤ (d.state.amount : ℤ)
  positive : d.state.released = false → 0 < (d.state.amount : ℤ)
  covered : d.state.released = false → (d.state.amount : ℤ) ≤ s.balance d.state.token escrow

def Sound (escrow : Address) (s : Ledger Address) : Prop :=
  s.storage = {} ∨ ∃ d : Deal Address, Solvent escrow s d

variable {escrow : Address} {s t : Ledger Address} {d : Deal Address}

theorem Solvent.shaped (h : Solvent escrow s d) : Shaped s.storage := .inr ⟨d, h.storage⟩

theorem Sound.shaped (h : Sound escrow s) : Shaped s.storage := by
  obtain h | ⟨d, h⟩ := h
  · exact .inl h
  · exact h.shaped

theorem Solvent.eq_deal (h : Solvent escrow s d) {d' : Deal Address} (hs : s.storage = d'.storage) :
    d' = d := Deal.unique hs h.storage

theorem Sound.solvent (h : Sound escrow s) (hs : s.storage = d.storage) : Solvent escrow s d := by
  obtain h | ⟨d', h⟩ := h
  · exact absurd h (Deal.initialised hs)
  · rwa [h.eq_deal hs]

theorem Solvent.covers (h : Solvent escrow s d) (hr : d.state.released = false)
    {n : Library.Integers.I128} (h0 : 0 ≤ (n : ℤ)) (hn : (n : ℤ) ≤ d.state.amount) :
    Covers s d.state.token escrow n := ⟨h0, hn.trans (h.covered hr)⟩

variable [DecidableEq Address]

theorem settle_balance (d : Deal Address) (source destination : Address)
    (n : Library.Integers.I128) (e : Event Address) :
    (settle s d source destination n e).balance d.state.token =
      move (s.balance d.state.token) source destination (n : ℤ).toNat := by
  simp [settle, Ledger.pay]

theorem opened_solvent {a b c token : Address}
    {n : Library.Integers.I128} {e : UInt64} {ev : Event Address} (hab : a ≠ b)
    (hn : 0 < (n : ℤ)) (hc : Covers s token a n) :
    Solvent escrow (settle s (opening a b c token n e s.timestamp) a escrow n ev)
      (opening a b c token n e s.timestamp) := by
  refine ⟨rfl, hab, hn.le, fun _ => hn, fun _ => ?_⟩
  rw [settle_balance]
  have h := le_move_destination (s.balance token) a escrow (Int.toNat_le.mpr hc.2)
  exact (Int.self_le_toNat n).trans (Int.ofNat_le.mpr h)

theorem paid_solvent {auths : Finset Address} {call : Call Address} {destination : Address}
    {n : Library.Integers.I128} {d' : Deal Address} {ev : Event Address} (h : Solvent escrow s d)
    (hr : d.state.released = false) (hp : Pays auths s.timestamp d call destination n d' ev)
    (hc : Covers s d.state.token escrow n) :
    Solvent escrow (settle s d' escrow destination n ev) d' := by
  cases hp with
  | release => exact ⟨rfl, h.distinct, h.nonneg, nofun, nofun⟩
  | refund => exact ⟨rfl, h.distinct, h.nonneg, nofun, nofun⟩
  | cancel => exact ⟨rfl, h.distinct, h.nonneg, nofun, nofun⟩
  | releasePartial ha _ hn =>
    refine ⟨rfl, h.distinct, Int.sub_nonneg.mpr hn.2, fun hz => ?_, fun hz => ?_⟩
    · have hne : ¬ (remaining d.state.amount n hn : ℤ) = 0 := of_decide_eq_false hz
      exact lt_of_le_of_ne (Int.sub_nonneg.mpr hn.2) (Ne.symm hne)
    · rw [settle_balance]
      have hm := sub_le_move_source (s.balance d.state.token) escrow d.state.recipient
        (Int.toNat_le.mpr hc.2)
      have hb := h.covered hr
      change (d.state.amount : ℤ) - n ≤ _
      change _ ≤ move (s.balance d.state.token) escrow d.state.recipient (n : ℤ).toNat escrow at hm
      simp only [Deal.leave]
      omega

theorem step_sound (h : Sound escrow s) (a : Action Address) : Sound escrow (step escrow s a) := by
  have ho := step_outcome escrow h.shaped a
  generalize step escrow s a = t at ho
  cases ho with
  | made he =>
    cases he with
    | initialised hs ha hac hab hcb hn hmax he hc => exact .inr ⟨_, opened_solvent hab hn hc⟩
    | paid hs hr hp hc => exact .inr ⟨_, paid_solvent (h.solvent hs) hr hp hc⟩
    | proposed hs =>
      have h := h.solvent hs
      exact .inr ⟨_, ⟨rfl, h.distinct, h.nonneg, h.positive, h.covered⟩⟩
    | accepted hs =>
      have h := h.solvent hs
      exact .inr ⟨_, ⟨rfl, h.distinct, h.nonneg, h.positive, h.covered⟩⟩
    | observed => exact h
  | refused => exact h
  | advance now =>
    obtain h | ⟨d, h⟩ := h
    · exact .inl h
    · exact .inr ⟨d, ⟨h.storage, h.distinct, h.nonneg, h.positive, h.covered⟩⟩
  | outside others deposits =>
    obtain h | ⟨d, h⟩ := h
    · exact .inl h
    · refine .inr ⟨d, ⟨h.storage, h.distinct, h.nonneg, h.positive, fun hr => ?_⟩⟩
      have hb := h.covered hr
      simp only [step, if_true]
      omega

theorem reachable_sound (escrow : Address) (now : UInt64) (balance : Address → Address → ℕ)
    (as : List (Action Address)) : Sound escrow (run (step escrow) (deployed now balance) as) :=
  run_invariant (I := Sound escrow) (.inl rfl) (fun _ a h => step_sound h a) as

end PayFi.Escrow.Solvency
