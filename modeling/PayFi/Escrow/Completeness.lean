import PayFi.Escrow.Runs

namespace PayFi.Escrow.Completeness

open Library.Machine Contract Specs Effects Runs

variable {Address : Type}

/-- Which of the keys that `initialise` writes are present. -/
def present (st : Storage Address) : List Bool :=
  [st.depositor.isSome, st.recipient.isSome, st.arbiter.isSome, st.token.isSome,
    st.amount.isSome, st.expiry.isSome, st.released.isSome, st.initializedAt.isSome]

/-- The stored fields, read as a whole. -/
structure Stores (st : Storage Address) (e : EscrowState Address) : Prop where
  depositor : st.depositor = some e.depositor
  recipient : st.recipient = some e.recipient
  arbiter : st.arbiter = some e.arbiter
  token : st.token = some e.token
  amount : st.amount = some e.amount
  expiry : st.expiry = some e.expiry
  released : st.released = some e.released
  initializedAt : st.initializedAt = some e.initializedAt

def opens : Call Address → Bool
  | .initialise .. => true
  | _ => false

variable {escrow : Address} {s : Ledger Address} {d : Deal Address}

theorem Deal.stores (hs : s.storage = d.storage) : Stores s.storage d.state := by
  rw [hs]
  exact ⟨rfl, rfl, rfl, rfl, rfl, rfl, rfl, rfl⟩

theorem Stores.eq_state {e : EscrowState Address} (h : Stores s.storage e)
    (hs : s.storage = d.storage) : e = d.state := by
  obtain ⟨st, p⟩ := d
  obtain ⟨_, _, _, _, _, _, _, _⟩ := st
  obtain ⟨_, _, _, _, _, _, _, _⟩ := e
  obtain ⟨h1, h2, h3, h4, h5, h6, h7, h8⟩ := h
  rw [hs] at h1 h2 h3 h4 h5 h6 h7 h8
  cases h1; cases h2; cases h3; cases h4; cases h5; cases h6; cases h7; cases h8
  rfl

theorem present_empty : ∀ b ∈ present ({} : Storage Address), b = false := by
  simp [present]

theorem present_deal (d : Deal Address) : ∀ b ∈ present d.storage, b = true := by
  simp [present, Deal.storage]

variable [DecidableEq Address]

theorem initialised_deal (escrow : Address) (now : UInt64) (balance : Address → Address → ℕ)
    (as : List (Action Address)) :
    (∃ t ∈ trace (step escrow) (deployed now balance) as, (successful escrow t).any opens = true) →
      ∃ d : Deal Address, (run (step escrow) (deployed now balance) as).storage = d.storage := by
  have h : Shaped (run (step escrow) (deployed now balance) as).storage ∧
      ((∃ t ∈ trace (step escrow) (deployed now balance) as,
        (successful escrow t).any opens = true) →
        ∃ d : Deal Address, (run (step escrow) (deployed now balance) as).storage = d.storage) := by
    refine run_induction (s := deployed now balance) (R := fun ts t => Shaped t.storage ∧
      ((∃ u ∈ ts, (successful escrow u).any opens = true) →
        ∃ d : Deal Address, t.storage = d.storage))
      ⟨.inl rfl, by simp⟩ ?_ as
    rintro ts s a ⟨hs, ih⟩
    refine ⟨step_shaped hs a, ?_⟩
    rintro ⟨u, hu, ho⟩
    obtain hu | hu := List.mem_append.mp hu
    · obtain ⟨d, hd⟩ := ih ⟨u, hu, ho⟩
      exact step_deal hd a
    · cases List.mem_singleton.mp hu
      obtain ⟨call, hc, -⟩ := (Option.any_eq_true _ _).mp ho
      obtain ⟨auths, -, he⟩ := effect_of_successful hs hc
      exact he.deal
  exact h.2

/-- In every reachable state the escrow's keys are all there or all missing, a
pending candidate comes with its time and only in an initialised escrow; from
then on no call finds a key missing and `getState` returns what is stored. -/
theorem storage_complete (escrow : Address) (now : UInt64) (balance : Address → Address → ℕ)
    (as : List (Action Address)) :
    let s := run (step escrow) (deployed now balance) as
    ((∀ b ∈ present s.storage, b = false) ∨ (∀ b ∈ present s.storage, b = true)) ∧
    s.storage.pendingArbiter.isSome = s.storage.pendingArbiterTime.isSome ∧
    (s.storage.pendingArbiter.isSome = true → s.storage.depositor.isSome = true) ∧
    ((∃ t ∈ trace (step escrow) (deployed now balance) as, (successful escrow t).any opens = true) →
      s.storage.depositor.isSome = true) ∧
    (s.storage.depositor.isSome = true →
      (∀ auths call, invoke ⟨escrow, auths⟩ call s ≠ .error (.expect "escrow: state corrupted")) ∧
      ∃ e, getState s = .ok (e, s) ∧ Stores s.storage e) := by
  intro s
  have hi := initialised_deal escrow now balance as
  have hr : Shaped s.storage := reachable_shaped escrow now balance as
  obtain hs | ⟨d, hs⟩ := hr
  · have hn : s.storage.depositor = none := by rw [hs]
    have hp : s.storage.pendingArbiter = none := by rw [hs]
    have ht : s.storage.pendingArbiterTime = none := by rw [hs]
    refine ⟨.inl (hs ▸ present_empty), by simp [hp, ht], by simp [hp], fun h => ?_, by simp [hn]⟩
    obtain ⟨d, hd⟩ := hi h
    exact absurd hs (Deal.initialised hd)
  · have hd : s.storage.depositor.isSome = true := by simp [hs, Deal.storage]
    have hp : s.storage.pendingArbiter.isSome = s.storage.pendingArbiterTime.isSome := by
      simp [hs, Deal.storage]
    exact ⟨.inr (hs ▸ present_deal d), hp, fun _ => hd, fun _ => hd, fun _ =>
      ⟨fun _ call => invoke_not_corrupted hs call, d.state, getState_eval hs, Deal.stores hs⟩⟩

end PayFi.Escrow.Completeness
