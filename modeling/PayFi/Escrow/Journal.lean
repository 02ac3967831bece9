import PayFi.Escrow.Runs

namespace PayFi.Escrow.Journal

open Library.Integers Library.Machine Library.Transaction Contract Specs Effects Runs

variable {Address : Type}

inductive Kind where
  | initialized
  | partialReleased
  | released
  | refunded
  | cancelled
  deriving DecidableEq

def kind : List String → Option Kind
  | ["escrow", "initialized"] => some .initialized
  | ["partial_released"] => some .partialReleased
  | ["released"] => some .released
  | ["escrow", "released"] => some .released
  | ["refunded"] => some .refunded
  | ["escrow", "cancelled"] => some .cancelled
  | _ => none

def amount (e : Event Address) : ℤ :=
  (e.data.findSome? fun
    | .i128 n => some (n : ℤ)
    | _ => none).getD 0

def beneficiary (e : Event Address) : Option Address :=
  match e.data with
  | .address a :: _ => some a
  | _ => none

/-- The `remaining` field of a partial release. -/
def remainder (e : Event Address) : Option ℤ :=
  match e.data with
  | [_, _, .i128 n] => some (n : ℤ)
  | _ => none

structure Account where
  outstanding : ℤ
  settled : Bool
  deriving DecidableEq

def enter (a : Account) (e : Event Address) : Account :=
  match kind e.topics with
  | some .initialized => { a with outstanding := amount e }
  | some .partialReleased => { a with outstanding := a.outstanding - amount e }
  | some _ => ⟨a.outstanding - amount e, true⟩
  | none => a

def fold (es : List (Event Address)) : Account := es.foldl enter ⟨0, false⟩

/-- What the storage says: the stored amount, until the escrow is released. -/
def stored (st : Storage Address) : Account :=
  let released := st.released.getD false
  ⟨if released then 0 else (st.amount.map fun n => (n : ℤ)).getD 0, released⟩

def moves : Call Address → Bool
  | .initialise .. | .release _ | .refund _ | .releasePartial _ _ | .cancel _ _ => true
  | .getState | .proposeNewArbiter _ _ | .acceptArbiterRotation => false

variable [DecidableEq Address]

/-- One event for one transfer: a deposit, announced with its depositor, the recipient and
the amount, or a payout, announced with its beneficiary and the amount. The `remaining`
field of a partial release is what is then outstanding. -/
structure Announces (escrow : Address) (call : Call Address) (e : Event Address)
    (p : Transfer Address) (after : Account) : Prop where
  journaled : (kind e.topics).isSome = true
  amount : amount e = p.amount
  deposit : ∀ d r a t n x, call = .initialise d r a t n x →
    e.data = [.address d, .address r, .i128 n] ∧ p = ⟨t, d, escrow, n⟩
  payout : kind e.topics ≠ some .initialized →
    p.source = escrow ∧ beneficiary e = some p.destination
  remaining : kind e.topics = some .partialReleased → remainder e = some after.outstanding

/-- What one step publishes: a call that moves value one journal entry, for its one
transfer; any other call none, and no transfer; a failed call nothing at all. -/
def Published (escrow : Address) (u : Transition (Ledger Address) (Action Address)) : Prop :=
  match successful escrow u with
  | none => u.after.events = u.before.events ∧ u.after.transfers = u.before.transfers
  | some call => ∃ es ps, u.after.events = u.before.events ++ es ∧
      u.after.transfers = u.before.transfers ++ ps ∧
      if moves call then
        ∃ e p, es = [e] ∧ ps = [p] ∧ Announces escrow call e p (fold u.after.events)
      else (∀ e ∈ es, kind e.topics = none) ∧ ps = []

variable {escrow : Address} {s t : Ledger Address} {d d' : Deal Address} {a : Action Address}

omit [DecidableEq Address] in
theorem stored_deal (d : Deal Address) : stored d.storage =
    ⟨if d.state.released then 0 else d.state.amount, d.state.released⟩ := by
  rw [stored, Deal.storage]
  rfl

omit [DecidableEq Address] in
theorem enter_paid {auths : Finset Address} {now : UInt64} {call : Call Address}
    {destination : Address} {n : I128} {e : Event Address} (hr : d.state.released = false)
    (hp : Pays auths now d call destination n d' e) :
    enter (stored d.storage) e = stored d'.storage := by
  simp only [stored_deal, hr, Bool.false_eq_true, if_false]
  cases hp with
  | release => simp [enter, kind, amount, Deal.seal]
  | refund => simp [enter, kind, amount, Deal.seal]
  | cancel => simp [enter, kind, amount, Deal.seal]
  | releasePartial ha _ hn =>
    have hrest : (remaining d.state.amount n hn : ℤ) = d.state.amount - n := rfl
    by_cases hz : (remaining d.state.amount n hn : ℤ) = 0
    · rw [partialEvent, if_pos hz]
      simp [enter, kind, amount, Deal.leave, hz, ← hrest]
    · rw [partialEvent, if_neg hz]
      rw [hrest] at hz
      simp [enter, kind, amount, Deal.leave, hz, hrest]

omit [DecidableEq Address] in
theorem paid_moves {auths : Finset Address} {now : UInt64} {call : Call Address}
    {destination : Address} {n : I128} {e : Event Address}
    (hp : Pays auths now d call destination n d' e) : moves call = true := by
  cases hp <;> rfl

omit [DecidableEq Address] in
theorem paid_announces {auths : Finset Address} {now : UInt64} {call : Call Address}
    {destination : Address} {n : I128} {e : Event Address}
    (hp : Pays auths now d call destination n d' e) (token : Address) :
    Announces escrow call e ⟨token, escrow, destination, n⟩ (stored d'.storage) := by
  cases hp with
  | release => exact ⟨rfl, rfl, by simp, fun _ => ⟨rfl, rfl⟩, by simp [kind]⟩
  | refund => exact ⟨rfl, rfl, by simp, fun _ => ⟨rfl, rfl⟩, by simp [kind]⟩
  | cancel => exact ⟨rfl, rfl, by simp, fun _ => ⟨rfl, rfl⟩, by simp [kind]⟩
  | releasePartial ha _ hn =>
    by_cases hz : (remaining d.state.amount n hn : ℤ) = 0
    · rw [partialEvent, if_pos hz]
      exact ⟨rfl, rfl, by simp, fun _ => ⟨rfl, rfl⟩, by simp [kind]⟩
    · rw [partialEvent, if_neg hz]
      refine ⟨rfl, rfl, by simp, fun _ => ⟨rfl, rfl⟩, fun _ => ?_⟩
      simp [remainder, stored_deal, Deal.leave, hz]

theorem step_journal (hs : Shaped s.storage) (a : Action Address) :
    ∃ es, (step escrow s a).events = s.events ++ es ∧
      es.foldl enter (stored s.storage) = stored (step escrow s a).storage := by
  have ho := step_outcome escrow hs a
  generalize step escrow s a = t at ho
  cases ho with
  | made he =>
    cases he with
    | initialised hs0 => exact ⟨_, rfl, by rw [hs0]; rfl⟩
    | paid hd hr hp =>
      refine ⟨_, rfl, ?_⟩
      rw [hd]
      exact enter_paid hr hp
    | proposed hd => exact ⟨_, rfl, by rw [hd]; rfl⟩
    | accepted hd => exact ⟨_, rfl, by rw [hd]; rfl⟩
    | observed => exact ⟨[], by simp, rfl⟩
  | refused => exact ⟨[], by simp, rfl⟩
  | advance => exact ⟨[], by simp [step], rfl⟩
  | outside => exact ⟨[], by simp [step], rfl⟩

theorem reachable_fold (escrow : Address) (now : UInt64) (balance : Address → Address → ℕ)
    (as : List (Action Address)) :
    fold (run (step escrow) (deployed now balance) as).events =
      stored (run (step escrow) (deployed now balance) as).storage :=
  run_journal (I := fun s : Ledger Address => Shaped s.storage) (.inl rfl) rfl
    (fun _ a hs => step_shaped hs a) (fun _ a hs => step_journal hs a) as

theorem step_published (hs : Shaped s.storage)
    (hfold : fold (step escrow s a).events = stored (step escrow s a).storage) :
    Published escrow ⟨s, a, step escrow s a⟩ := by
  have ho := step_outcome escrow hs a
  generalize step escrow s a = t at ho hfold
  cases ho with
  | made he =>
    rw [Published, successful_of_effect he]
    dsimp only
    rw [hfold]
    cases he with
    | initialised =>
      refine ⟨_, _, rfl, rfl, ?_⟩
      simp only [moves, if_true]
      refine ⟨_, _, rfl, rfl, rfl, rfl, ?_, by simp [kind], by simp [kind]⟩
      intro d r a t n x hcall
      cases hcall
      exact ⟨rfl, rfl⟩
    | paid hd hr hp =>
      refine ⟨_, _, rfl, rfl, ?_⟩
      rw [if_pos (paid_moves hp)]
      exact ⟨_, _, rfl, rfl, paid_announces hp _⟩
    | proposed => exact ⟨_, [], rfl, by simp [note], by simp [moves, kind]⟩
    | accepted => exact ⟨_, [], rfl, by simp [note], by simp [moves, kind]⟩
    | observed => exact ⟨[], [], by simp, by simp, by simp [moves]⟩
  | refused hf =>
    rw [Published, successful_of_refused hf]
    exact ⟨rfl, rfl⟩
  | advance => exact ⟨rfl, rfl⟩
  | outside => exact ⟨rfl, rfl⟩

/-- After every run the folded events are what is stored, and every call has published
what it has moved. -/
theorem journal_reconstructs (escrow : Address) (now : UInt64)
    (balance : Address → Address → ℕ) (as : List (Action Address)) :
    fold (run (step escrow) (deployed now balance) as).events =
        stored (run (step escrow) (deployed now balance) as).storage ∧
      ∀ u ∈ trace (step escrow) (deployed now balance) as, Published escrow u := by
  refine ⟨reachable_fold escrow now balance as, fun u hu => ?_⟩
  obtain ⟨pre, post, has, hbefore, hafter⟩ := mem_trace hu
  have hshaped := reachable_shaped escrow now balance pre
  have hfold := reachable_fold escrow now balance (pre ++ [u.action])
  rw [run_concat] at hfold
  have h := step_published hshaped hfold
  rwa [← hafter, ← hbefore] at h

end PayFi.Escrow.Journal
