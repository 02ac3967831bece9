import PayFi.Escrow.Specs

namespace PayFi.Escrow.Effects

open Library.Integers Library.Transaction Contract Specs

variable {Address : Type}

def Shaped (st : Storage Address) : Prop := st = {} ∨ ∃ d : Deal Address, st = d.storage

/-- The calls that pay out of a deal: whom, how much, the deal left behind and
the event published. -/
inductive Pays (auths : Finset Address) (now : UInt64) (d : Deal Address) :
    Call Address → Address → I128 → Deal Address → Event Address → Prop
  | release (ha : d.state.arbiter ∈ auths) :
      Pays auths now d (.release d.state.arbiter) d.state.recipient d.state.amount d.seal
        ⟨["escrow", "released"], [.address d.state.recipient, .i128 d.state.amount]⟩
  | refund (hd : d.state.depositor ∈ auths) (he : d.state.expiry ≤ now) :
      Pays auths now d (.refund d.state.depositor) d.state.depositor d.state.amount d.seal
        ⟨["refunded"], [.address d.state.depositor, .i128 d.state.amount]⟩
  | cancel (hd : d.state.depositor ∈ auths) (ha : d.state.arbiter ∈ auths) :
      Pays auths now d (.cancel d.state.depositor d.state.arbiter) d.state.depositor
        d.state.amount d.seal
        ⟨["escrow", "cancelled"], [.address d.state.depositor, .i128 d.state.amount]⟩
  | releasePartial (ha : d.state.arbiter ∈ auths) (n : I128)
      (hn : 0 < (n : ℤ) ∧ (n : ℤ) ≤ d.state.amount) :
      Pays auths now d (.releasePartial d.state.arbiter n) d.state.recipient n
        (d.leave (remaining d.state.amount n hn))
        (partialEvent d.state.recipient n (remaining d.state.amount n hn))

structure Keeps (d d' : Deal Address) : Prop where
  depositor : d'.state.depositor = d.state.depositor
  recipient : d'.state.recipient = d.state.recipient
  arbiter : d'.state.arbiter = d.state.arbiter
  token : d'.state.token = d.state.token
  expiry : d'.state.expiry = d.state.expiry
  initializedAt : d'.state.initializedAt = d.state.initializedAt
  pending : d'.pending = d.pending

theorem Pays.keeps {auths : Finset Address} {now : UInt64} {d d' : Deal Address}
    {call : Call Address} {destination : Address} {n : I128} {e : Event Address}
    (hp : Pays auths now d call destination n d' e) : Keeps d d' := by
  cases hp <;> exact ⟨rfl, rfl, rfl, rfl, rfl, rfl, rfl⟩

variable [DecidableEq Address]

inductive Effect (env : Env Address) (s : Ledger Address) : Call Address → Ledger Address → Prop
  | initialised {a b c token : Address} {n : I128} {e : UInt64} (hs : s.storage = {})
      (ha : a ∈ env.auths) (hac : a ≠ c) (hab : a ≠ b) (hcb : c ≠ b) (hn : 0 < (n : ℤ))
      (hmax : (n : ℤ) ≤ (I128.MAX : ℤ) / 2) (he : s.timestamp < e) (hc : Covers s token a n) :
      Effect env s (.initialise a b c token n e)
        (settle s (opening a b c token n e s.timestamp) a env.contract n
          ⟨["escrow", "initialized"], [.address a, .address b, .i128 n]⟩)
  | paid {d d' : Deal Address} {call : Call Address} {destination : Address} {n : I128}
      {e : Event Address} (hs : s.storage = d.storage) (hr : d.state.released = false)
      (hp : Pays env.auths s.timestamp d call destination n d' e)
      (hc : Covers s d.state.token env.contract n) :
      Effect env s call (settle s d' env.contract destination n e)
  | proposed {d : Deal Address} {c : Address} (hs : s.storage = d.storage)
      (ha : d.state.depositor ∈ env.auths) :
      Effect env s (.proposeNewArbiter d.state.depositor c)
        (note s (d.propose ⟨c, s.timestamp⟩) ⟨["arbiter_rotation_proposed"],
          [.address d.state.depositor, .address c, .u64 s.timestamp]⟩)
  | accepted {d : Deal Address} {p : Proposal Address} (hs : s.storage = d.storage)
      (hp : d.pending = some p) (ht : p.time.toNat + 86400 ≤ s.timestamp.toNat) :
      Effect env s .acceptArbiterRotation
        (note s (d.rotate p.candidate) ⟨["arbiter_rotation_accepted"],
          [.address p.candidate, .u64 s.timestamp]⟩)
  | observed {d : Deal Address} (hs : s.storage = d.storage) : Effect env s .getState s

variable {env : Env Address} {s t : Ledger Address} {d : Deal Address} {call : Call Address}

theorem effect_of_empty (hs : s.storage = {}) (h : invoke env call s = .ok ((), t)) :
    Effect env s call t := by
  obtain ⟨a, b, c, token, n, e, rfl⟩ := initialise_of_empty hs h
  simp only [invoke, initialise_eval hs] at h
  split_ifs at h with ha hac hab hcb hn hmax he hc
  cases h
  exact .initialised hs ha hac hab hcb (not_le.mp hn) (not_lt.mp hmax) (UInt64.not_le.mp he) hc

theorem effect_of_deal (hs : s.storage = d.storage) (h : invoke env call s = .ok ((), t)) :
    Effect env s call t := by
  cases call with
  | initialise a b c token n e =>
    simp only [invoke, initialise_deal hs] at h
    cases h
  | release a =>
    simp only [invoke, release_eval hs] at h
    split_ifs at h with ha hne hr hc
    cases h
    cases not_not.mp hne
    exact .paid hs (Bool.not_eq_true _ ▸ hr) (.release ha) hc
  | refund a =>
    simp only [invoke, refund_eval hs] at h
    split_ifs at h with ha hne hr he hc
    cases h
    cases not_not.mp hne
    exact .paid hs (Bool.not_eq_true _ ▸ hr) (.refund ha (UInt64.not_lt.mp he)) hc
  | getState =>
    cases (invoke_getState hs).symm.trans h
    exact .observed hs
  | releasePartial a n =>
    simp only [invoke, releasePartial_eval hs] at h
    split_ifs at h with ha hne hr hn hc
    cases h
    cases not_not.mp hne
    exact .paid hs (Bool.not_eq_true _ ▸ hr) (.releasePartial ha n hn) hc
  | cancel a b =>
    simp only [invoke, cancel_eval hs] at h
    split_ifs at h with hd ha hne hne' hr hc
    cases h
    cases not_not.mp hne
    cases not_not.mp hne'
    exact .paid hs (Bool.not_eq_true _ ▸ hr) (.cancel hd ha) hc
  | proposeNewArbiter a c =>
    simp only [invoke, proposeNewArbiter_eval hs] at h
    split_ifs at h with ha hne
    cases h
    cases not_not.mp hne
    exact .proposed hs ha
  | acceptArbiterRotation =>
    simp only [invoke, acceptArbiterRotation_eval hs] at h
    cases hp : d.pending with
    | none => simp [hp] at h
    | some p =>
      cases hl : checkedAdd p.time minRotationDelay with
      | none => simp [hp, hl] at h
      | some lockExpires =>
        simp only [hp, hl] at h
        split_ifs at h with ht
        cases h
        have hle := UInt64.le_iff_toNat_le.mp (UInt64.not_lt.mp ht)
        rw [checkedAdd_eq_some.mp hl] at hle
        exact .accepted hs hp hle

theorem effect_of_ok (hs : Shaped s.storage)
    (h : invoke env call s = .ok ((), t)) : Effect env s call t := by
  obtain hs | ⟨d, hs⟩ := hs
  · exact effect_of_empty hs h
  · exact effect_of_deal hs h

theorem Effect.invoke_ok (h : Effect env s call t) : invoke env call s = .ok ((), t) := by
  cases h with
  | initialised hs ha hac hab hcb hn hmax he hc =>
    simp only [invoke, initialise_eval hs]
    simp [ha, hac, hab, hcb, not_le.mpr hn, not_lt.mpr hmax, UInt64.not_le.mpr he, hc]
  | paid hs hr hp hc =>
    cases hp with
    | release ha =>
      simp only [invoke, release_eval hs]
      simp [ha, hr, hc]
    | refund hd he =>
      simp only [invoke, refund_eval hs]
      simp [hd, hr, UInt64.not_lt.mpr he, hc]
    | cancel hd ha =>
      simp only [invoke, cancel_eval hs]
      simp [hd, ha, hr, hc]
    | releasePartial ha n hn =>
      simp only [invoke, releasePartial_eval hs]
      simp [ha, hr, hn, hc]
  | proposed hs ha =>
    simp only [invoke, proposeNewArbiter_eval hs]
    simp [ha]
  | @accepted d p hs hp ht =>
    have hlt : minRotationDelay.toNat + p.time.toNat < 2 ^ 64 :=
      (Nat.add_comm _ _ ▸ ht).trans_lt s.timestamp.toNat_lt
    have hl : checkedAdd p.time minRotationDelay = some (p.time + minRotationDelay) := if_pos hlt
    have hle : p.time + minRotationDelay ≤ s.timestamp := by
      rw [UInt64.le_iff_toNat_le, checkedAdd_eq_some.mp hl]
      exact ht
    simp only [invoke, acceptArbiterRotation_eval hs, hp, hl]
    simp [UInt64.not_lt.mpr hle]
  | observed hs => exact invoke_getState hs

theorem Effect.deal (h : Effect env s call t) : ∃ d : Deal Address, t.storage = d.storage := by
  cases h with
  | initialised => exact ⟨_, rfl⟩
  | paid => exact ⟨_, rfl⟩
  | proposed => exact ⟨_, rfl⟩
  | accepted => exact ⟨_, rfl⟩
  | observed hs => exact ⟨_, hs⟩

end PayFi.Escrow.Effects
