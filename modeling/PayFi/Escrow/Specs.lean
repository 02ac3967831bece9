import PayFi.Escrow.Contract

namespace PayFi.Escrow.Specs

open Library.Balances Library.Integers Library.Transaction Contract

variable {Address : Type}

@[ext]
structure Proposal (Address : Type) where
  candidate : Address
  time : UInt64
  deriving DecidableEq

/-- An initialised escrow: every field is there, and a pending candidate always
comes with the time of its proposal. -/
structure Deal (Address : Type) where
  state : EscrowState Address
  pending : Option (Proposal Address)

def Deal.storage (d : Deal Address) : Storage Address where
  depositor := some d.state.depositor
  recipient := some d.state.recipient
  arbiter := some d.state.arbiter
  token := some d.state.token
  amount := some d.state.amount
  expiry := some d.state.expiry
  released := some d.state.released
  initializedAt := some d.state.initializedAt
  pendingArbiter := d.pending.map Proposal.candidate
  pendingArbiterTime := d.pending.map Proposal.time

def Deal.seal (d : Deal Address) : Deal Address :=
  { d with state := { d.state with released := true } }

def Deal.leave (d : Deal Address) (remaining : I128) : Deal Address :=
  { d with state := { d.state with
      amount := remaining
      released := decide ((remaining : ℤ) = 0) } }

def Deal.propose (d : Deal Address) (p : Proposal Address) : Deal Address :=
  { d with pending := some p }

def Deal.rotate (d : Deal Address) (candidate : Address) : Deal Address :=
  { state := { d.state with arbiter := candidate }, pending := none }

/-- The deal that `initialise` stores. -/
def opening (depositor recipient arbiter token : Address) (amount : I128)
    (expiry now : UInt64) : Deal Address :=
  ⟨⟨depositor, recipient, arbiter, token, amount, expiry, false, now⟩, none⟩

def Covers (s : Ledger Address) (token source : Address) (amount : I128) : Prop :=
  0 ≤ (amount : ℤ) ∧ (amount : ℤ) ≤ s.balance token source

instance (s : Ledger Address) (token source : Address) (amount : I128) :
    Decidable (Covers s token source amount) := inferInstanceAs (Decidable (_ ∧ _))

theorem Deal.storage_ne_empty (d : Deal Address) : d.storage ≠ {} := by
  intro h
  cases congrArg Storage.depositor h

theorem Deal.storage_injective {d d' : Deal Address} (h : d.storage = d'.storage) : d = d' := by
  obtain ⟨st, p⟩ := d
  obtain ⟨st', p'⟩ := d'
  obtain ⟨_, _, _, _, _, _, _, _⟩ := st
  obtain ⟨_, _, _, _, _, _, _, _⟩ := st'
  cases p <;> cases p' <;> simp_all [Deal.storage, Proposal.ext_iff]

theorem Deal.unique {st : Storage Address} {d d' : Deal Address} (h : st = d.storage)
    (h' : st = d'.storage) : d = d' := Deal.storage_injective (h.symm.trans h')

theorem Deal.initialised {st : Storage Address} {d : Deal Address} (h : st = d.storage) :
    st ≠ {} := by
  rw [h]
  exact d.storage_ne_empty

section Host

variable {α β : Type} {s : Ledger Address}

theorem get_bind (key : Storage Address → Option α) (f : Option α → Invocation Address β) :
    (get key >>= f) s = f (key s.storage) s :=
  read_bind (fun s : Ledger Address => key s.storage) f

theorem load_bind (key : Storage Address → Option α) (f : α → Invocation Address β) :
    (load key >>= f) s = match key s.storage with
      | some a => f a s
      | none => .error (.expect "escrow: state corrupted") :=
  expect_bind (key s.storage) f

theorem store_bind (g : Storage Address → Storage Address) (f : Unit → Invocation Address β) :
    (store g >>= f) s = f () { s with storage := g s.storage } :=
  write_bind (fun s : Ledger Address => { s with storage := g s.storage }) f

theorem timestamp_bind (f : UInt64 → Invocation Address β) :
    (timestamp >>= f) s = f s.timestamp s :=
  read_bind Ledger.timestamp f

theorem transfer_bind [DecidableEq Address] (token source destination : Address) (amount : I128)
    (f : Unit → Invocation Address β) :
    (transfer token source destination amount >>= f) s =
      if Covers s token source amount then f () (s.pay token source destination amount)
      else .error .transfer := by
  simp only [transfer, bind_assoc_apply, read_bind, panicIf_bind, write_bind]
  by_cases h : Covers s token source amount
  · have hn : ¬((amount : ℤ) < 0 ∨ (s.balance token source : ℤ) < amount) := by
      rintro (hl | hl)
      · exact hl.not_ge h.1
      · exact hl.not_ge h.2
    rw [if_pos h, if_neg hn]
  · have hn : (amount : ℤ) < 0 ∨ (s.balance token source : ℤ) < amount := by
      simp only [Covers, not_and_or, not_le] at h
      exact h
    rw [if_neg h, if_pos hn]

theorem publish_apply (topics : List String) (data : List (Datum Address)) :
    publish topics data s = .ok ((), { s with events := s.events ++ [⟨topics, data⟩] }) := by
  rw [publish, write]

end Host

variable [DecidableEq Address]

/-- The ledger after a transfer of the deal's token that also rewrites the
storage and publishes one event. -/
def settle (s : Ledger Address) (d : Deal Address) (source destination : Address) (amount : I128)
    (e : Event Address) : Ledger Address :=
  { s.pay d.state.token source destination amount with
    storage := d.storage
    events := s.events ++ [e] }

def note (s : Ledger Address) (d : Deal Address) (e : Event Address) : Ledger Address :=
  { s with storage := d.storage, events := s.events ++ [e] }

def partialEvent (recipient : Address) (released rest : I128) : Event Address :=
  if (rest : ℤ) = 0 then ⟨["released"], [.address recipient, .i128 released]⟩
  else ⟨["partial_released"], [.address recipient, .i128 released, .i128 rest]⟩

variable {env : Env Address} {s t : Ledger Address} {u : Unit} {d : Deal Address}

theorem initialise_eval (hs : s.storage = {}) (a b c token : Address) (n : I128) (e : UInt64) :
    initialise env a b c token n e s =
      if a ∉ env.auths then .error .unauthorized
      else if a = c then .error (.contract .invalidParties)
      else if a = b then .error (.contract .invalidParties)
      else if c = b then .error (.contract .invalidParties)
      else if (n : ℤ) ≤ 0 then .error (.contract .invalidAmount)
      else if (I128.MAX : ℤ) / 2 < n then .error (.contract .invalidAmount)
      else if e ≤ s.timestamp then .error (.contract .invalidExpiry)
      else if Covers s token a n then
        .ok ((), settle s (opening a b c token n e s.timestamp) a env.contract n
          ⟨["escrow", "initialized"], [.address a, .address b, .i128 n]⟩)
      else .error .transfer := by
  obtain ⟨now, st, balance, transfers, events⟩ := s
  subst hs
  simp only [initialise, requireAuth, panicWithErrorIf, panicIf_bind, get_bind, store_bind,
    timestamp_bind, transfer_bind, publish_apply, Option.isSome_none, Bool.false_eq_true, if_false]
  rfl

theorem initialise_of_empty (hs : s.storage = {}) {call : Call Address}
    (h : invoke env call s = .ok (u, t)) :
    ∃ a b c token n e, call = .initialise a b c token n e := by
  obtain ⟨now, st, balance, transfers, events⟩ := s
  subst hs
  cases call with
  | initialise a b c token n e => exact ⟨a, b, c, token, n, e, rfl⟩
  | _ => cases h

theorem initialise_deal (hs : s.storage = d.storage) (a b c token : Address) (n : I128)
    (e : UInt64) :
    initialise env a b c token n e s = .error (.contract .alreadyInitialized) := by
  obtain ⟨now, st, balance, transfers, events⟩ := s
  subst hs
  rfl

theorem release_eval (hs : s.storage = d.storage) (a : Address) :
    release env a s =
      if d.state.arbiter ∉ env.auths then .error .unauthorized
      else if a ≠ d.state.arbiter then .error (.contract .notArbiter)
      else if d.state.released = true then .error (.contract .alreadyReleased)
      else if Covers s d.state.token env.contract d.state.amount then
        .ok ((), settle s d.seal env.contract d.state.recipient d.state.amount
          ⟨["escrow", "released"], [.address d.state.recipient, .i128 d.state.amount]⟩)
      else .error .transfer := by
  obtain ⟨now, st, balance, transfers, events⟩ := s
  subst hs
  simp only [release, load_bind, requireAuth, panicWithErrorIf, panicIf_bind, assertNotReleased,
    bind_assoc_apply, get_bind, store_bind, transfer_bind, publish_apply, Deal.storage,
    Option.getD_some]
  rfl

theorem refund_eval (hs : s.storage = d.storage) (a : Address) :
    refund env a s =
      if d.state.depositor ∉ env.auths then .error .unauthorized
      else if a ≠ d.state.depositor then .error (.contract .notDepositor)
      else if d.state.released = true then .error (.contract .alreadyReleased)
      else if s.timestamp < d.state.expiry then .error (.contract .notExpired)
      else if Covers s d.state.token env.contract d.state.amount then
        .ok ((), settle s d.seal env.contract d.state.depositor d.state.amount
          ⟨["refunded"], [.address d.state.depositor, .i128 d.state.amount]⟩)
      else .error .transfer := by
  obtain ⟨now, st, balance, transfers, events⟩ := s
  subst hs
  simp only [refund, load_bind, requireAuth, panicWithErrorIf, panicIf_bind, assertNotReleased,
    bind_assoc_apply, get_bind, store_bind, timestamp_bind, transfer_bind, publish_apply,
    Deal.storage, Option.getD_some]
  rfl

theorem cancel_eval (hs : s.storage = d.storage) (a b : Address) :
    cancel env a b s =
      if d.state.depositor ∉ env.auths then .error .unauthorized
      else if d.state.arbiter ∉ env.auths then .error .unauthorized
      else if a ≠ d.state.depositor then .error (.contract .notDepositor)
      else if b ≠ d.state.arbiter then .error (.contract .notArbiter)
      else if d.state.released = true then .error (.contract .alreadyReleased)
      else if Covers s d.state.token env.contract d.state.amount then
        .ok ((), settle s d.seal env.contract d.state.depositor d.state.amount
          ⟨["escrow", "cancelled"], [.address d.state.depositor, .i128 d.state.amount]⟩)
      else .error .transfer := by
  obtain ⟨now, st, balance, transfers, events⟩ := s
  subst hs
  simp only [cancel, load_bind, requireAuth, panicWithErrorIf, panicIf_bind, assertNotReleased,
    bind_assoc_apply, get_bind, store_bind, transfer_bind, publish_apply, Deal.storage,
    Option.getD_some]
  rfl

theorem proposeNewArbiter_eval (hs : s.storage = d.storage) (a c : Address) :
    proposeNewArbiter env a c s =
      if d.state.depositor ∉ env.auths then .error .unauthorized
      else if a ≠ d.state.depositor then .error (.contract .notDepositor)
      else .ok ((), note s (d.propose ⟨c, s.timestamp⟩)
        ⟨["arbiter_rotation_proposed"], [.address a, .address c, .u64 s.timestamp]⟩) := by
  obtain ⟨now, st, balance, transfers, events⟩ := s
  subst hs
  simp only [proposeNewArbiter, load_bind, requireAuth, panicWithErrorIf, panicIf_bind,
    store_bind, timestamp_bind, publish_apply, Deal.storage]
  rfl

omit [DecidableEq Address] in
theorem getState_eval (hs : s.storage = d.storage) : getState s = .ok (d.state, s) := by
  obtain ⟨now, st, balance, transfers, events⟩ := s
  subst hs
  rfl

theorem invoke_getState (hs : s.storage = d.storage) :
    invoke env .getState s = .ok ((), s) := by
  obtain ⟨now, st, balance, transfers, events⟩ := s
  subst hs
  rfl

def remaining (stored released : I128) (h : 0 < (released : ℤ) ∧ (released : ℤ) ≤ stored) : I128 :=
  ⟨stored - released, by have := stored.2; constructor <;> omega⟩

theorem releasePartial_eval (hs : s.storage = d.storage) (a : Address) (n : I128) :
    releasePartial env a n s =
      if d.state.arbiter ∉ env.auths then .error .unauthorized
      else if a ≠ d.state.arbiter then .error (.contract .notArbiter)
      else if d.state.released = true then .error (.contract .alreadyReleased)
      else if h : 0 < (n : ℤ) ∧ (n : ℤ) ≤ d.state.amount then
        let rest := remaining d.state.amount n h
        if Covers s d.state.token env.contract n then
          .ok ((), settle s (d.leave rest) env.contract d.state.recipient n
            (partialEvent d.state.recipient n rest))
        else .error .transfer
      else .error (.contract .invalidAmount) := by
  obtain ⟨now, st, balance, transfers, events⟩ := s
  subst hs
  simp only [releasePartial, load_bind, requireAuth, panicWithErrorIf, panicIf_bind,
    assertNotReleased, bind_assoc_apply, get_bind, expect_bind, store_bind, transfer_bind,
    Deal.storage, Option.getD_some]
  refine ite_congr rfl (fun _ => rfl) fun _ => ite_congr rfl (fun _ => rfl) fun _ =>
    ite_congr rfl (fun _ => rfl) fun hr => ?_
  by_cases h : 0 < (n : ℤ) ∧ (n : ℤ) ≤ d.state.amount
  · have hs : d.state.amount.checkedSub n = some (remaining d.state.amount n h) :=
      checkedSub_eq_some.mpr rfl
    have hn : ¬((n : ℤ) ≤ 0 ∨ (d.state.amount : ℤ) < n) := by
      rintro (hl | hl)
      · exact hl.not_gt h.1
      · exact hl.not_ge h.2
    rw [if_neg hn, dif_pos h, hs]
    refine ite_congr rfl (fun _ => ?_) fun _ => rfl
    by_cases hz : (remaining d.state.amount n h : ℤ) = 0
    · simp only [hz, if_true, store_bind, publish_apply]
      simp [settle, Deal.leave, Deal.storage, Ledger.pay, partialEvent, hz]
    · simp only [hz, if_false, publish_apply]
      simp [settle, Deal.leave, Deal.storage, Ledger.pay, partialEvent, hz, hr]
  · have hn : (n : ℤ) ≤ 0 ∨ (d.state.amount : ℤ) < n := by
      simpa only [not_and_or, not_lt, not_le] using h
    rw [if_pos hn, dif_neg h]

omit [DecidableEq Address] in
theorem acceptArbiterRotation_eval (hs : s.storage = d.storage) :
    acceptArbiterRotation s =
      match d.pending with
      | none => .error (.contract .noPendingRotation)
      | some p =>
        match checkedAdd p.time minRotationDelay with
        | none => .error (.expect "escrow: rotation deadline overflow")
        | some lockExpires =>
          if s.timestamp < lockExpires then .error (.contract .rotationLocked)
          else .ok ((), note s (d.rotate p.candidate)
            ⟨["arbiter_rotation_accepted"], [.address p.candidate, .u64 s.timestamp]⟩) := by
  obtain ⟨now, st, balance, transfers, events⟩ := s
  subst hs
  obtain ⟨st, _ | p⟩ := d
  · rfl
  · simp only [acceptArbiterRotation, load_bind, panicWithErrorIf, panicIf_bind, get_bind,
      expect_bind, store_bind, timestamp_bind, publish_apply, Deal.storage, Option.map_some,
      Option.isSome_some, Bool.true_eq_false, if_false]
    cases checkedAdd p.time minRotationDelay with
    | none => rfl
    | some lockExpires => rfl

theorem invoke_not_corrupted (hs : s.storage = d.storage) (call : Call Address) :
    invoke env call s ≠ .error (.expect "escrow: state corrupted") := by
  cases call with
  | initialise a b c token n e =>
    simp [invoke, initialise_deal hs]
  | release a =>
    simp only [invoke, release_eval hs]
    split_ifs <;> simp
  | refund a =>
    simp only [invoke, refund_eval hs]
    split_ifs <;> simp
  | getState =>
    simp [invoke_getState hs]
  | releasePartial a n =>
    simp only [invoke, releasePartial_eval hs]
    split_ifs <;> simp
  | cancel a b =>
    simp only [invoke, cancel_eval hs]
    split_ifs <;> simp
  | proposeNewArbiter a c =>
    simp only [invoke, proposeNewArbiter_eval hs]
    split_ifs <;> simp
  | acceptArbiterRotation =>
    simp only [invoke, acceptArbiterRotation_eval hs]
    cases d.pending with
    | none => simp
    | some p =>
      cases hl : checkedAdd p.time minRotationDelay with
      | none => simp [hl]
      | some lockExpires =>
        simp only [hl]
        split_ifs <;> simp

end PayFi.Escrow.Specs
