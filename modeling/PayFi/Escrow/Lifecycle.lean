import PayFi.Escrow.Runs

namespace PayFi.Escrow.Lifecycle

open Library.Machine Library.Transaction Contract Specs Effects Runs

inductive Phase where
  | uninitialised
  | active
  | settled
  deriving DecidableEq

inductive Label where
  | initialise
  | pay
  | seal
  | other
  deriving DecidableEq

/-- Uninitialised, then active, then settled: an active escrow may pay any number
of times before the payment that seals it. -/
def Phase.next : Phase → Label → Option Phase
  | .uninitialised, .initialise => some .active
  | .active, .pay => some .active
  | .active, .seal => some .settled
  | p, .other => some p
  | _, _ => none

@[simp] theorem next_other (p : Phase) : p.next .other = some p := by cases p <;> rfl

theorem next_settled {l : Label} {p : Phase} (h : Phase.settled.next l = some p) :
    l = .other ∧ p = .settled := by
  cases l <;> cases h
  exact ⟨rfl, rfl⟩

theorem run_settled {ls : List Label} {p : Phase}
    (h : ls.foldlM Phase.next .settled = some p) : ∀ l ∈ ls, l = .other := by
  induction ls with
  | nil => simp
  | cons l ls ih =>
    rw [List.foldlM_cons, Option.bind_eq_bind, Option.bind_eq_some_iff] at h
    obtain ⟨q, hq, h⟩ := h
    obtain ⟨rfl, rfl⟩ := next_settled hq
    exact List.forall_mem_cons.mpr ⟨rfl, ih h⟩

theorem after_seal {ls₁ ls₂ : List Label} {p q : Phase}
    (h : (ls₁ ++ .seal :: ls₂).foldlM Phase.next p = some q) : ∀ l ∈ ls₂, l = .other := by
  rw [List.foldlM_append, Option.bind_eq_bind, Option.bind_eq_some_iff] at h
  obtain ⟨p₁, -, h⟩ := h
  rw [List.foldlM_cons, Option.bind_eq_bind, Option.bind_eq_some_iff] at h
  obtain ⟨p₂, hn, h⟩ := h
  cases p₁ <;> cases hn
  exact run_settled h

def Phase.opensLeft : Phase → ℕ
  | .uninitialised => 1
  | _ => 0

def Phase.sealsLeft : Phase → ℕ
  | .settled => 0
  | _ => 1

theorem run_counts {ls : List Label} {p q : Phase} (h : ls.foldlM Phase.next p = some q) :
    ls.count .initialise ≤ p.opensLeft ∧ ls.count .seal ≤ p.sealsLeft := by
  induction ls generalizing p with
  | nil => simp
  | cons l ls ih =>
    rw [List.foldlM_cons, Option.bind_eq_bind, Option.bind_eq_some_iff] at h
    obtain ⟨p', hn, h⟩ := h
    have hi := ih h
    cases p <;> cases l <;> cases hn <;>
      simp only [Phase.opensLeft, Phase.sealsLeft, List.count_cons] at hi ⊢ <;> simp <;> omega

variable {Address : Type} [DecidableEq Address]

def phase (st : Storage Address) : Phase :=
  if st.depositor.isNone = true then .uninitialised
  else if st.released.getD false = true then .settled
  else .active

/-- A sealing call is a full payment, or a partial one that leaves nothing. -/
def label (escrow : Address) (t : Transition (Ledger Address) (Action Address)) : Label :=
  match successful escrow t with
  | some (.initialise ..) => .initialise
  | some (.release _) | some (.refund _) | some (.cancel _ _) => .seal
  | some (.releasePartial _ _) =>
      if t.after.storage.amount.any (fun n => (n : ℤ) = 0) then .seal else .pay
  | _ => .other

/-- The calls that need an escrow that is not settled. -/
def settling : Call Address → Bool
  | .initialise .. | .release _ | .releasePartial _ _ | .refund _ | .cancel _ _ => true
  | _ => false

/-- The fields fixed by `initialise`. -/
def terms (st : Storage Address) :=
  (st.depositor, st.recipient, st.token, st.expiry, st.initializedAt)

variable {escrow : Address} {s t : Ledger Address}

omit [DecidableEq Address] in
theorem phase_deal (d : Deal Address) :
    phase d.storage = if d.state.released = true then .settled else .active := by
  cases h : d.state.released <;> simp [phase, Deal.storage, h]

theorem settling_of_label_ne {u : Transition (Ledger Address) (Action Address)}
    (h : label escrow u = .other) {call : Call Address} (hc : successful escrow u = some call) :
    settling call = false := by
  unfold label at h
  rw [hc] at h
  cases call <;> try rfl
  all_goals simp at h
  split at h <;> cases h

theorem step_simulates (hs : Shaped s.storage) (a : Action Address) :
    (phase s.storage).next (label escrow ⟨s, a, step escrow s a⟩) =
      some (phase (step escrow s a).storage) := by
  have h := step_outcome escrow hs a
  generalize step escrow s a = t at h
  cases h with
  | @made auths call t he =>
    simp only [label, successful_of_effect he]
    cases he with
    | initialised h0 =>
      simp only [h0, settle, phase_deal]
      rfl
    | @paid _ _ _ _ n _ hs hr hp hc =>
      cases hp with
      | release => simp only [hs, settle, phase_deal, hr]; rfl
      | refund => simp only [hs, settle, phase_deal, hr]; rfl
      | cancel => simp only [hs, settle, phase_deal, hr]; rfl
      | releasePartial ha _ hn =>
        simp only [hs, settle, phase_deal, hr]
        by_cases hz : (remaining _ n hn : ℤ) = 0
        · simp [Deal.storage, Deal.leave, hz, Phase.next]
        · simp [Deal.storage, Deal.leave, hz, Phase.next]
    | proposed hs =>
      rw [hs, next_other, phase_deal]
      exact congrArg some (phase_deal _).symm
    | accepted hs =>
      rw [hs, next_other, phase_deal]
      exact congrArg some (phase_deal _).symm
    | observed hs => exact next_other _
  | refused hf =>
    simp only [label, successful_of_refused hf]
    exact next_other _
  | advance => exact next_other _
  | outside => exact next_other _

theorem step_terms {d : Deal Address} (hs : s.storage = d.storage) (a : Action Address) :
    terms (step escrow s a).storage = terms s.storage := by
  have h := step_outcome escrow (.inr ⟨d, hs⟩) a
  generalize step escrow s a = t at h
  cases h with
  | made he =>
    cases he with
    | initialised h0 => exact absurd h0 (Deal.initialised hs)
    | paid hs hr hp hc =>
      have hk := hp.keeps
      simp only [hs, settle, terms, Deal.storage, hk.depositor, hk.recipient, hk.token, hk.expiry,
        hk.initializedAt]
    | proposed hs => rw [hs]; rfl
    | accepted hs => rw [hs]; rfl
    | observed => rfl
  | refused => rfl
  | advance => rfl
  | outside => rfl

theorem settled_frozen {d : Deal Address} (hs : s.storage = d.storage)
    (hr : d.state.released = true) (auths : Finset Address) (call : Call Address) :
    let t := step escrow s (.invoke auths call)
    t.storage.amount = s.storage.amount ∧ t.storage.released = s.storage.released ∧
      t.balance = s.balance := by
  have h := step_outcome escrow (.inr ⟨d, hs⟩) (.invoke auths call)
  generalize step escrow s (.invoke auths call) = t at h
  cases h with
  | made he =>
    cases he with
    | initialised h0 => exact absurd h0 (Deal.initialised hs)
    | paid hs' hr' =>
      cases Deal.unique hs hs'
      cases hr.symm.trans hr'
    | proposed hs => exact ⟨by rw [hs]; rfl, by rw [hs]; rfl, rfl⟩
    | accepted hs => exact ⟨by rw [hs]; rfl, by rw [hs]; rfl, rfl⟩
    | observed => exact ⟨rfl, rfl, rfl⟩
  | refused => exact ⟨rfl, rfl, rfl⟩

/-- Every run of the contract is a run of the machine, so it is initialised and
sealed at most once, and nothing settles it again after that. -/
theorem lifecycle (escrow : Address) (now : UInt64) (balance : Address → Address → ℕ)
    (as : List (Action Address)) :
    let ts := trace (step escrow) (deployed now balance) as
    (ts.map (label escrow)).foldlM Phase.next .uninitialised =
      some (phase (run (step escrow) (deployed now balance) as).storage) ∧
    (ts.map (label escrow)).count .initialise ≤ 1 ∧ (ts.map (label escrow)).count .seal ≤ 1 ∧
    (∀ us u vs, ts = us ++ u :: vs → label escrow u = .seal →
      ∀ v ∈ vs, ∀ call, successful escrow v = some call → settling call = false) ∧
    (∀ u ∈ ts, u.before.storage.depositor.isSome = true →
      terms u.after.storage = terms u.before.storage) ∧
    (∀ u ∈ ts, phase u.before.storage = .settled → ∀ auths call, u.action = .invoke auths call →
      u.after.storage.amount = u.before.storage.amount ∧
      u.after.storage.released = u.before.storage.released ∧
      u.after.balance = u.before.balance) := by
  intro ts
  have hshaped : ∀ (s : Ledger Address) a, Shaped s.storage → Shaped (step escrow s a).storage :=
    fun _ a hs => step_shaped hs a
  have hrun : (ts.map (label escrow)).foldlM Phase.next .uninitialised =
      some (phase (run (step escrow) (deployed now balance) as).storage) :=
    run_simulates (s := deployed now balance) (I := fun s : Ledger Address => Shaped s.storage)
      (.inl rfl) hshaped (fun _ a hs => step_simulates hs a) as
  have hcount := run_counts hrun
  refine ⟨hrun, hcount.1, hcount.2, ?_, ?_, ?_⟩
  · intro us u vs hts hu v hv call hc
    rw [hts, List.map_append, List.map_cons, hu] at hrun
    exact settling_of_label_ne (after_seal hrun _ (List.mem_map_of_mem hv)) hc
  · refine trace_invariant (s := deployed now balance)
      (I := fun s : Ledger Address => Shaped s.storage) (.inl rfl) hshaped ?_ as
    rintro s a (hs | ⟨d, hs⟩) hd
    · rw [hs] at hd
      cases hd
    · exact step_terms hs a
  · refine trace_invariant (s := deployed now balance)
      (I := fun s : Ledger Address => Shaped s.storage) (.inl rfl) hshaped ?_ as
    rintro s a (hs | ⟨d, hs⟩) hp auths call rfl
    · rw [hs] at hp
      cases hp
    · have hr : d.state.released = true := by
        rw [hs, phase_deal] at hp
        by_contra hn
        rw [if_neg hn] at hp
        cases hp
      exact settled_frozen hs hr auths call

end PayFi.Escrow.Lifecycle
