import PayFi.Escrow.Completeness

namespace PayFi.Escrow.Parties

open Library.Integers Library.Machine Library.Transaction
open Contract Specs Effects Runs Completeness

variable {Address : Type}

def Separate (e : EscrowState Address) : Prop :=
  e.depositor ≠ e.recipient ∧ e.depositor ≠ e.arbiter ∧ e.recipient ≠ e.arbiter

/-- The escrow is initialised, and its three parties are pairwise distinct. -/
def Separated (s : Ledger Address) : Prop := ∃ e, Stores s.storage e ∧ Separate e

/-- An acceptance whose time has come installs neither the depositor nor the
recipient. -/
def InstallsThird (u : Transition (Ledger Address) (Action Address)) : Prop :=
  ∀ auths candidate time, u.action = .invoke auths .acceptArbiterRotation →
    u.before.storage.pendingArbiter = some candidate →
    u.before.storage.pendingArbiterTime = some time →
    time.toNat + minRotationDelay.toNat ≤ u.before.timestamp.toNat →
    u.before.storage.depositor ≠ some candidate ∧ u.before.storage.recipient ≠ some candidate

variable {escrow : Address} {s t : Ledger Address} {d : Deal Address}

theorem separated_iff_of_deal (hs : s.storage = d.storage) : Separated s ↔ Separate d.state := by
  constructor
  · rintro ⟨e, he, h⟩
    cases he.eq_state hs
    exact h
  · intro h
    exact ⟨d.state, Deal.stores hs, h⟩

theorem Separate.kept {d d' : Deal Address} (hk : Keeps d d') (h : Separate d.state) :
    Separate d'.state := by
  rw [Separate, hk.depositor, hk.recipient, hk.arbiter]
  exact h

variable [DecidableEq Address]

theorem step_separated (a : Action Address) (ha : InstallsThird ⟨s, a, step escrow s a⟩)
    (h : Separated s) (hd : ∃ d : Deal Address, s.storage = d.storage) :
    Separated (step escrow s a) := by
  obtain ⟨d, hs⟩ := hd
  have hsep := (separated_iff_of_deal hs).mp h
  have ho := step_outcome escrow (.inr ⟨d, hs⟩) a
  generalize step escrow s a = t at ha ho
  cases ho with
  | made he =>
    cases he with
    | initialised h0 => exact absurd h0 (Deal.initialised hs)
    | paid hs' _ hp =>
      cases Deal.unique hs' hs
      exact (separated_iff_of_deal rfl).mpr (hsep.kept hp.keeps)
    | proposed hs' =>
      cases Deal.unique hs' hs
      exact (separated_iff_of_deal (d := d.propose _) rfl).mpr hsep
    | @accepted d₀ p hs' hp ht =>
      cases Deal.unique hs' hs
      have hc : s.storage.pendingArbiter = some p.candidate := by
        simp [hs, Deal.storage, hp]
      have htime : s.storage.pendingArbiterTime = some p.time := by
        simp [hs, Deal.storage, hp]
      have hthird := ha _ p.candidate p.time rfl hc htime ht
      simp only [hs, Deal.storage, ne_eq, Option.some_inj] at hthird
      exact (separated_iff_of_deal (d := d.rotate p.candidate) rfl).mpr
        ⟨hsep.1, hthird.1, hthird.2⟩
    | observed => exact h
  | refused => exact h
  | advance => exact h
  | outside => exact h

theorem installsThird_of_separated {a : Action Address}
    (hd : ∃ d : Deal Address, s.storage = d.storage)
    (h : Separated (step escrow s a)) : InstallsThird ⟨s, a, step escrow s a⟩ := by
  obtain ⟨d, hs⟩ := hd
  intro auths candidate time ha hc htime ht
  change a = _ at ha
  subst ha
  obtain ⟨e, _ | p⟩ := d
  · rw [hs] at hc
    cases hc
  · have he : Effect ⟨escrow, auths⟩ s .acceptArbiterRotation _ :=
      .accepted hs rfl (by
        rw [hs] at htime
        cases htime
        exact ht)
    rw [step_of_effect he] at h
    have hsep := (separated_iff_of_deal (d := Deal.rotate _ _) rfl).mp h
    rw [hs] at hc ⊢
    cases hc
    refine ⟨fun hd => hsep.2.1 (Option.some_inj.mp hd), fun hr => hsep.2.2 (Option.some_inj.mp hr)⟩

theorem reachable_deal {d : Deal Address} (hs : s.storage = d.storage)
    (as : List (Action Address)) :
    ∃ d : Deal Address, (run (step escrow) s as).storage = d.storage :=
  run_invariant (I := fun s : Ledger Address => ∃ d : Deal Address, s.storage = d.storage) ⟨d, hs⟩
    (fun _ a ⟨_, h⟩ => step_deal h a) as

/-- After a successful `initialise` the parties stay distinct all along a run
exactly when no acceptance of that run installs the depositor or the recipient. -/
theorem separated_iff (escrow : Address) (now : UInt64) (balance : Address → Address → ℕ)
    (before : List (Action Address)) (auths : Finset Address) (a b c token : Address) (n : I128)
    (e : UInt64)
    (hok : succeeds (invoke ⟨escrow, auths⟩ (.initialise a b c token n e))
      (run (step escrow) (deployed now balance) before) = true) (as : List (Action Address)) :
    let s := run (step escrow) (deployed now balance)
      (before ++ [.invoke auths (.initialise a b c token n e)])
    (∀ pre, pre <+: as → Separated (run (step escrow) s pre)) ↔
      ∀ u ∈ trace (step escrow) s as, InstallsThird u := by
  intro s
  have hs := reachable_shaped escrow now balance before
  obtain ⟨-, hac, hab, hcb, -, -, hstep⟩ := opened_of_succeeds hs hok
  have hopen : s.storage = (opening a b c token n e
      (run (step escrow) (deployed now balance) before).timestamp).storage := by
    have hrun : s = step escrow (run (step escrow) (deployed now balance) before)
        (.invoke auths (.initialise a b c token n e)) := run_concat _ _ _
    rw [hrun, hstep]
    rfl
  constructor
  · intro h u hu
    obtain ⟨pre, post, has, hb, ha⟩ := mem_trace hu
    have hnext : Separated (run (step escrow) s (pre ++ [u.action])) :=
      h _ ⟨post, by rw [has]; simp⟩
    rw [run_concat] at hnext
    have hthird := installsThird_of_separated (reachable_deal hopen pre) hnext
    rwa [← ha, ← hb] at hthird
  · rintro h pre ⟨post, rfl⟩
    have hpre : ∀ u ∈ trace (step escrow) s pre, InstallsThird u := by
      intro u hu
      exact h u (by rw [trace_append]; exact List.mem_append_left _ hu)
    have hinv := run_invariant_of
      (I := fun s : Ledger Address => (∃ d : Deal Address, s.storage = d.storage) ∧ Separated s)
      ⟨⟨_, hopen⟩, (separated_iff_of_deal hopen).mpr ⟨hab, hac, hcb.symm⟩⟩
      (fun t a ha ⟨⟨d, hd⟩, ht⟩ => ⟨step_deal hd a, step_separated a ha ht ⟨d, hd⟩⟩) pre hpre
    exact hinv.2

/-- The depositor 1 proposes 4, whom anyone installs after the delay. -/
theorem separated_iff_third_party :
    let s := run (step 0) (deployed 0 fun _ holder => if holder = 1 then 500 else 0)
      ([] ++ [.invoke {1} (.initialise 1 2 3 9 (.ofNat 100 (by decide)) 50)])
    let as : List (Action ℕ) := [.invoke {1} (.proposeNewArbiter 1 4), .advance 86400,
      .invoke {} .acceptArbiterRotation]
    (run (step 0) s as).storage.arbiter = some 4 ∧
      ((∀ pre, pre <+: as → Separated (run (step 0) s pre)) ↔
        ∀ u ∈ trace (step 0) s as, InstallsThird u) :=
  ⟨by decide, separated_iff 0 0 (fun _ holder => if holder = 1 then 500 else 0) [] {1} 1 2 3 9
    (.ofNat 100 (by decide)) 50 (by decide) _⟩

/-- The depositor 1 proposes itself, and after the delay anyone installs it. -/
theorem depositor_becomes_arbiter :
    let s : Ledger ℕ := deployed 0 fun _ holder => if holder = 1 then 500 else 0
    let opened : Call ℕ := .initialise 1 2 3 9 (.ofNat 100 (by decide)) 50
    let as : List (Action ℕ) := [.invoke {1} opened, .invoke {1} (.proposeNewArbiter 1 1),
      .advance 86400, .invoke {} .acceptArbiterRotation]
    succeeds (invoke ⟨0, {1}⟩ opened) s = true ∧ ¬ Separated (run (step 0) s as) := by
  intro s opened as
  refine ⟨by decide, fun h => ?_⟩
  let d : Deal ℕ := (opening 1 2 3 9 (.ofNat 100 (by decide)) 50 0).rotate 1
  have hs : (run (step 0) s as).storage = d.storage := by decide
  exact ((separated_iff_of_deal hs).mp h).2.1 rfl

end PayFi.Escrow.Parties
