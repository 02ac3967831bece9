import PayFi.Escrow.Completeness
import PayFi.Escrow.Solvency

namespace PayFi.Escrow.Invariants

open Library.Balances Library.Integers Library.Machine Library.Transaction
open Contract Specs Effects Runs Completeness Solvency

variable {Address : Type} [DecidableEq Address]

/-- The four invariants the contract declares. -/
def Declared (escrow : Address) (s : Ledger Address) : Prop :=
  ∀ e, Stores s.storage e →
    0 ≤ (e.amount : ℤ) ∧ ((e.amount : ℤ) = 0 → e.released = true) ∧
    (e.released = true → s.balance e.token escrow = 0) ∧
    (e.released = false → (s.balance e.token escrow : ℤ) = e.amount)

/-- Nobody else pays the token into the escrow. -/
def NoDeposits (token : Address) (as : List (Action Address)) : Prop :=
  ∀ others deposits, Action.outside others deposits ∈ as → deposits token = 0

structure Exact (escrow token : Address) (s : Ledger Address) (d : Deal Address) : Prop where
  storage : s.storage = d.storage
  denomination : d.state.token = token
  recipient : d.state.recipient ≠ escrow
  depositor : d.state.depositor ≠ escrow
  nonneg : 0 ≤ (d.state.amount : ℤ)
  positive : d.state.released = false → 0 < (d.state.amount : ℤ)
  settled : d.state.released = true → s.balance token escrow = 0
  active : d.state.released = false → (s.balance token escrow : ℤ) = d.state.amount

variable {escrow token : Address} {s t : Ledger Address} {d d' : Deal Address}

omit [DecidableEq Address] in
theorem Exact.declared (h : Exact escrow token s d) : Declared escrow s := by
  intro e he
  cases he.eq_state h.storage
  refine ⟨h.nonneg, fun hz => ?_, fun hr => ?_, fun hr => ?_⟩
  · by_contra hr
    have hp := h.positive (Bool.not_eq_true _ ▸ hr)
    omega
  · rw [h.denomination]
    exact h.settled hr
  · rw [h.denomination]
    exact h.active hr

theorem opened_exact {a b c : Address} {n : I128} {e : UInt64} {ev : Event Address}
    (hb : b ≠ escrow) (hbal : s.balance token escrow = 0) (hn : 0 < (n : ℤ))
    (hc : Covers s token a n) :
    Exact escrow token (settle s (opening a b c token n e s.timestamp) a escrow n ev)
      (opening a b c token n e s.timestamp) := by
  -- an escrow without funds cannot have paid itself
  have ha : a ≠ escrow := by
    rintro rfl
    have h := hc.2
    rw [hbal] at h
    omega
  refine ⟨rfl, rfl, hb, ha, hn.le, fun _ => hn, nofun, fun _ => ?_⟩
  have hm := settle_balance (s := s) (opening a b c token n e s.timestamp) a escrow n ev
  change _ = move (s.balance token) _ _ _ at hm
  have hd := move_destination (s.balance token) ha (n : ℤ).toNat
  rw [← hm, hbal] at hd
  change ((settle s _ a escrow n ev).balance token escrow : ℤ) = n
  change (settle s _ a escrow n ev).balance token escrow = _ at hd
  omega

theorem paid_exact {auths : Finset Address} {call : Call Address} {destination : Address}
    {n : I128} {ev : Event Address} (h : Exact escrow token s d) (hr : d.state.released = false)
    (hp : Pays auths s.timestamp d call destination n d' ev)
    (hc : Covers s d.state.token escrow n) :
    Exact escrow token (settle s d' escrow destination n ev) d' := by
  have hne : escrow ≠ destination := by
    cases hp with
    | release => exact h.recipient.symm
    | refund => exact h.depositor.symm
    | cancel => exact h.depositor.symm
    | releasePartial => exact h.recipient.symm
  have hm := settle_balance (s := s) d' escrow destination n ev
  rw [hp.keeps.token, h.denomination] at hm
  have hleft := move_source (s.balance token) hne (n : ℤ).toNat
  rw [← hm] at hleft
  have hbal := h.active hr
  have h0 := hc.1
  cases hp with
  | release =>
    refine ⟨rfl, h.denomination, h.recipient, h.depositor, h.nonneg, nofun, fun _ => ?_, nofun⟩
    omega
  | refund =>
    refine ⟨rfl, h.denomination, h.recipient, h.depositor, h.nonneg, nofun, fun _ => ?_, nofun⟩
    omega
  | cancel =>
    refine ⟨rfl, h.denomination, h.recipient, h.depositor, h.nonneg, nofun, fun _ => ?_, nofun⟩
    omega
  | releasePartial ha _ hn =>
    have hrem : (remaining d.state.amount n hn : ℤ) = d.state.amount - n := rfl
    refine ⟨rfl, h.denomination, h.recipient, h.depositor, Int.sub_nonneg.mpr hn.2, fun hz => ?_,
      fun hz => ?_, fun hz => ?_⟩
    · have hz : ¬ (remaining d.state.amount n hn : ℤ) = 0 := of_decide_eq_false hz
      exact lt_of_le_of_ne (Int.sub_nonneg.mpr hn.2) (Ne.symm hz)
    · have hz : (remaining d.state.amount n hn : ℤ) = 0 := of_decide_eq_true hz
      omega
    · change ((settle s _ escrow _ n _).balance token escrow : ℤ) = d.state.amount - n
      omega

theorem step_exact (h : ∃ d, Exact escrow token s d) (a : Action Address)
    (ha : ∀ others deposits, a = .outside others deposits → deposits token = 0) :
    ∃ d, Exact escrow token (step escrow s a) d := by
  obtain ⟨d, h⟩ := h
  have ho := step_outcome escrow (.inr ⟨d, h.storage⟩) a
  generalize step escrow s a = t at ho
  cases ho with
  | made he =>
    cases he with
    | initialised h0 => exact absurd h0 (Deal.initialised h.storage)
    | paid hs hr hp hc =>
      cases Deal.unique hs h.storage
      exact ⟨_, paid_exact h hr hp hc⟩
    | proposed hs =>
      cases Deal.unique hs h.storage
      exact ⟨_, rfl, h.denomination, h.recipient, h.depositor, h.nonneg, h.positive, h.settled,
        h.active⟩
    | accepted hs =>
      cases Deal.unique hs h.storage
      exact ⟨_, rfl, h.denomination, h.recipient, h.depositor, h.nonneg, h.positive, h.settled,
        h.active⟩
    | observed => exact ⟨d, h⟩
  | refused => exact ⟨d, h⟩
  | advance now =>
    exact ⟨d, h.storage, h.denomination, h.recipient, h.depositor, h.nonneg, h.positive, h.settled,
      h.active⟩
  | outside others deposits =>
    have hb : (step escrow s (.outside others deposits)).balance token escrow =
        s.balance token escrow := by
      simp [step, ha others deposits rfl]
    refine ⟨d, h.storage, h.denomination, h.recipient, h.depositor, h.nonneg, h.positive, ?_, ?_⟩
    · rw [hb]
      exact h.settled
    · rw [hb]
      exact h.active

theorem run_exact (h : ∃ d, Exact escrow token s d) (as : List (Action Address))
    (has : NoDeposits token as) : ∃ d, Exact escrow token (run (step escrow) s as) d :=
  run_invariant_of (I := fun s => ∃ d, Exact escrow token s d)
    (C := fun t => ∀ others deposits, t.action = .outside others deposits → deposits token = 0) h
    (fun _ a ha hs => step_exact hs a ha) as
    fun _ ht others deposits hd => has others deposits (hd ▸ action_mem ht)

theorem release_to_escrow {n : I128} (hs : s.storage = d.storage) (hr : d.state.released = false)
    (hb : d.state.recipient = escrow) (hn : d.state.amount = n) (h0 : 0 < (n : ℤ))
    (hbal : (n : ℤ) ≤ s.balance d.state.token escrow) :
    ¬ Declared escrow (step escrow s (.invoke {d.state.arbiter} (.release d.state.arbiter))) := by
  have hc : Covers s d.state.token escrow d.state.amount := by
    rw [hn]
    exact ⟨h0.le, hbal⟩
  have he : Effect ⟨escrow, {d.state.arbiter}⟩ s (.release d.state.arbiter) _ :=
    .paid hs hr (.release (Finset.mem_singleton_self _)) hc
  intro hd
  rw [step_of_effect he] at hd
  have hz := (hd d.seal.state (Deal.stores rfl)).2.2.1 rfl
  rw [settle_balance d.seal, hb] at hz
  have hm := le_move_destination (s.balance d.state.token) escrow escrow (Int.toNat_le.mpr hc.2)
  change move (s.balance d.state.token) _ _ _ _ = 0 at hz
  rw [hz, hn] at hm
  omega

/-- From an `initialise` into an escrow without funds, the declared invariants
hold along every later run exactly when the recipient is not the escrow itself. -/
theorem declared_iff (escrow : Address) (now : UInt64) (balance : Address → Address → ℕ)
    (before : List (Action Address)) (auths : Finset Address) (a b c token : Address) (n : I128)
    (e : UInt64)
    (hbal : (run (step escrow) (deployed now balance) before).balance token escrow = 0)
    (hok : succeeds (invoke ⟨escrow, auths⟩ (.initialise a b c token n e))
      (run (step escrow) (deployed now balance) before) = true) :
    (∀ as, NoDeposits token as → Declared escrow (run (step escrow)
      (run (step escrow) (deployed now balance) before)
      (.invoke auths (.initialise a b c token n e) :: as))) ↔ b ≠ escrow := by
  have hs := reachable_shaped escrow now balance before
  generalize run (step escrow) (deployed now balance) before = s at hbal hok hs
  obtain ⟨-, -, -, -, hn, hc, hstep⟩ := opened_of_succeeds hs hok
  constructor
  · intro h hb
    have h1 := h [.invoke {c} (.release c)] (by simp [NoDeposits])
    rw [run_cons, run_cons, run_nil, hstep] at h1
    refine release_to_escrow (d := opening a b c token n e s.timestamp) rfl rfl hb rfl hn ?_ h1
    rw [settle_balance]
    have hm := le_move_destination (s.balance token) a escrow (Int.toNat_le.mpr hc.2)
    exact (Int.self_le_toNat n).trans (Int.ofNat_le.mpr hm)
  · intro hb as has
    rw [run_cons, hstep]
    obtain ⟨d, h⟩ := run_exact ⟨_, opened_exact hb hbal hn hc⟩ as has
    exact h.declared

theorem declared_iff_separate_recipient :
    (∀ as, NoDeposits 9 as → Declared 0 (run (step 0)
      (run (step 0) (deployed 0 fun _ holder => if holder = 1 then 500 else 0) [.advance 7])
      (.invoke {1} (.initialise 1 2 3 9 (.ofNat 100 (by decide)) 50) :: as))) ↔ 2 ≠ 0 :=
  declared_iff 0 0 (fun _ holder => if holder = 1 then 500 else 0) [.advance 7] {1} 1 2 3 9
    (.ofNat 100 (by decide)) 50 (by decide) (by decide)

/-- The arbiter 3 releases an escrow whose recipient is the escrow 0 itself: it
is sealed, and still holds the 100 units. -/
theorem escrow_recipient_not_declared :
    let s : Ledger ℕ := deployed 0 fun _ holder => if holder = 1 then 500 else 0
    let opened : Call ℕ := .initialise 1 0 3 9 (.ofNat 100 (by decide)) 50
    let as : List (Action ℕ) := [.invoke {1} opened, .invoke {3} (.release 3)]
    s.balance 9 0 = 0 ∧ NoDeposits 9 as ∧ succeeds (invoke ⟨0, {1}⟩ opened) s = true ∧
      ¬ Declared 0 (run (step 0) s as) := by
  intro s opened as
  refine ⟨rfl, by simp [NoDeposits, as], by decide, fun h => ?_⟩
  let d : Deal ℕ := (opening 1 0 3 9 (.ofNat 100 (by decide)) 50 0).seal
  have hs : (run (step 0) s as).storage = d.storage := by decide
  have hd := h d.state (Deal.stores hs)
  exact absurd (hd.2.2.1 rfl) (by decide)

end PayFi.Escrow.Invariants
