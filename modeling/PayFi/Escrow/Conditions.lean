import PayFi.Escrow.Completeness
import PayFi.Escrow.Solvency

namespace PayFi.Escrow.Conditions

open Library.Balances Library.Integers Library.Machine Library.Transaction
open Contract Specs Effects Runs Completeness Solvency

variable {Address : Type} [DecidableEq Address]

/-- The clauses documented for a call: what it requires of the state, who signs
it, the balance it needs from outside and what it ensures of the next state. -/
structure Clauses (Address : Type) where
  requires : Prop
  signers : List Address
  funded : Prop := True
  ensures : Ledger Address → Prop

def Moved (escrow token payee : Address) (n : ℤ) (s t : Ledger Address) : Prop :=
  (t.balance token payee : ℤ) = s.balance token payee + n ∧
    (t.balance token escrow : ℤ) = s.balance token escrow - n

def clauses (escrow : Address) (s : Ledger Address) : Call Address → Option (Clauses Address)
  | .initialise a b c token n e => some {
      requires := s.storage.depositor.isSome = false ∧ (a ≠ c ∧ a ≠ b ∧ c ≠ b) ∧
        (0 < (n : ℤ) ∧ (n : ℤ) ≤ (I128.MAX : ℤ) / 2) ∧ s.timestamp < e
      signers := [a]
      funded := (n : ℤ) ≤ s.balance token a
      ensures := fun t =>
        (t.storage.depositor = some a ∧ t.storage.recipient = some b ∧
          t.storage.arbiter = some c ∧ t.storage.token = some token ∧
          t.storage.amount = some n ∧ t.storage.expiry = some e ∧
          t.storage.released = some false) ∧
        (t.balance token a : ℤ) = s.balance token a - n ∧
        (t.balance token escrow : ℤ) = s.balance token escrow + n }
  | .release a => some {
      requires := s.storage.depositor.isSome = true ∧ s.storage.arbiter = some a ∧
        s.storage.released = some false
      signers := [a]
      ensures := fun t => ∃ e, Stores s.storage e ∧ t.storage.released = some true ∧
        t.storage.amount = some e.amount ∧ Moved escrow e.token e.recipient e.amount s t }
  | .refund a => some {
      requires := s.storage.depositor = some a ∧ s.storage.released = some false ∧
        ∃ e, s.storage.expiry = some e ∧ e ≤ s.timestamp
      signers := [a]
      ensures := fun t => ∃ e, Stores s.storage e ∧ t.storage.released = some true ∧
        Moved escrow e.token e.depositor e.amount s t }
  | .releasePartial a n => some {
      requires := s.storage.depositor.isSome = true ∧ s.storage.arbiter = some a ∧
        s.storage.released = some false ∧
        ∃ m, s.storage.amount = some m ∧ 0 < (n : ℤ) ∧ (n : ℤ) ≤ m
      signers := [a]
      ensures := fun t => ∃ e m, Stores s.storage e ∧ t.storage.amount = some m ∧
        (m : ℤ) = e.amount - n ∧ t.storage.released = some (decide ((m : ℤ) = 0)) ∧
        Moved escrow e.token e.recipient n s t }
  | .cancel a b => some {
      requires := s.storage.depositor = some a ∧ s.storage.arbiter = some b ∧
        s.storage.released = some false
      signers := [a, b]
      ensures := fun t => ∃ e, Stores s.storage e ∧ t.storage.released = some true ∧
        Moved escrow e.token e.depositor e.amount s t }
  | _ => none

/-- The escrow is neither the depositor nor the recipient of its own deal. -/
def Apart (escrow : Address) (s : Ledger Address) : Prop :=
  ∀ e, Stores s.storage e → e.depositor ≠ escrow ∧ e.recipient ≠ escrow

variable {escrow : Address} {auths : Finset Address} {call : Call Address} {s t : Ledger Address}
  {d : Deal Address} {c : Clauses Address}

theorem requires_of_effect (he : Effect ⟨escrow, auths⟩ s call t)
    (hc : clauses escrow s call = some c) :
    c.requires ∧ (∀ a ∈ c.signers, a ∈ auths) ∧ c.funded := by
  cases he with
  | initialised hs ha hac hab hcb hn hmax hexp hcov =>
    cases hc
    refine ⟨⟨by rw [hs]; rfl, ⟨hac, hab, hcb⟩, ⟨hn, hmax⟩, hexp⟩, ?_, hcov.2⟩
    simpa using ha
  | paid hs hr hp =>
    have h := Deal.stores hs
    have hinit : s.storage.depositor.isSome = true := by
      rw [h.depositor]
      rfl
    cases hp with
    | release ha =>
      cases hc
      exact ⟨⟨hinit, h.arbiter, h.released.trans (congrArg some hr)⟩, by simpa using ha, trivial⟩
    | refund hd hexp =>
      cases hc
      exact ⟨⟨h.depositor, h.released.trans (congrArg some hr), _, h.expiry, hexp⟩,
        by simpa using hd, trivial⟩
    | cancel hd ha =>
      cases hc
      exact ⟨⟨h.depositor, h.arbiter, h.released.trans (congrArg some hr)⟩,
        by simpa using ⟨hd, ha⟩, trivial⟩
    | releasePartial ha n hn =>
      cases hc
      exact ⟨⟨hinit, h.arbiter, h.released.trans (congrArg some hr), _, h.amount, hn⟩,
        by simpa using ha, trivial⟩
  | proposed => cases hc
  | accepted => cases hc
  | observed => cases hc

theorem effect_of_requires (hs : Sound escrow s) (hc : clauses escrow s call = some c)
    (hr : c.requires) (ha : ∀ a ∈ c.signers, a ∈ auths) (hf : c.funded) :
    ∃ t, Effect ⟨escrow, auths⟩ s call t := by
  obtain hs | ⟨d, hs⟩ := hs
  · cases call with
    | initialise a b r token n e =>
      cases hc
      obtain ⟨-, ⟨har, hab, hrb⟩, ⟨hn, hmax⟩, hexp⟩ := hr
      exact ⟨_, .initialised hs (ha a (by simp)) har hab hrb hn hmax hexp ⟨hn.le, hf⟩⟩
    | release | refund | releasePartial | cancel =>
      cases hc
      simp [hs] at hr
    | _ => cases hc
  · have hd := hs.storage
    cases call with
    | initialise =>
      cases hc
      simp [hd, Deal.storage] at hr
    | release a =>
      cases hc
      simp only [hd, Deal.storage, Option.some_inj] at hr
      obtain ⟨-, rfl, hrel⟩ := hr
      exact ⟨_, .paid hd hrel (.release (ha _ (by simp)))
        (hs.covers hrel hs.nonneg le_rfl)⟩
    | refund a =>
      cases hc
      simp only [hd, Deal.storage, Option.some_inj] at hr
      obtain ⟨rfl, hrel, _, rfl, hexp⟩ := hr
      exact ⟨_, .paid hd hrel (.refund (ha _ (by simp)) hexp)
        (hs.covers hrel hs.nonneg le_rfl)⟩
    | releasePartial a n =>
      cases hc
      simp only [hd, Deal.storage, Option.some_inj] at hr
      obtain ⟨-, rfl, hrel, _, rfl, hn⟩ := hr
      exact ⟨_, .paid hd hrel (.releasePartial (ha _ (by simp)) n hn)
        (hs.covers hrel hn.1.le hn.2)⟩
    | cancel a b =>
      cases hc
      simp only [hd, Deal.storage, Option.some_inj] at hr
      obtain ⟨rfl, rfl, hrel⟩ := hr
      exact ⟨_, .paid hd hrel (.cancel (ha _ (by simp)) (ha _ (by simp)))
        (hs.covers hrel hs.nonneg le_rfl)⟩
    | _ => cases hc

theorem moved_of_covers {d' : Deal Address} {token payee : Address} {n : I128} {ev : Event Address}
    (hd : d'.state.token = token) (hne : payee ≠ escrow) (hc : Covers s token escrow n) :
    Moved escrow token payee n s (settle s d' escrow payee n ev) := by
  subst hd
  have h0 := hc.1
  have hn := hc.2
  unfold Moved
  rw [settle_balance, move_source _ hne.symm, move_destination _ hne.symm]
  constructor <;> omega

theorem paid_ensures {destination : Address} {n : I128} {d' : Deal Address} {ev : Event Address}
    (hs : s.storage = d.storage) (hp : Pays auths s.timestamp d call destination n d' ev)
    (hcov : Covers s d.state.token escrow n) (hc : clauses escrow s call = some c)
    (hne : destination ≠ escrow) : c.ensures (settle s d' escrow destination n ev) := by
  have hm : Moved escrow d.state.token destination n s (settle s d' escrow destination n ev) :=
    moved_of_covers hp.keeps.token hne hcov
  cases hp with
  | release =>
    cases hc
    exact ⟨_, Deal.stores hs, rfl, rfl, hm⟩
  | refund =>
    cases hc
    exact ⟨_, Deal.stores hs, rfl, hm⟩
  | cancel =>
    cases hc
    exact ⟨_, Deal.stores hs, rfl, hm⟩
  | releasePartial =>
    cases hc
    exact ⟨_, _, Deal.stores hs, rfl, rfl, rfl, hm⟩

theorem ensures_of_effect (he : Effect ⟨escrow, auths⟩ s call t)
    (hc : clauses escrow s call = some c) (hapart : Apart escrow t) : c.ensures t := by
  cases he with
  | @initialised a b r token n e hs ha hac hab hcb hn hmax hexp hcov =>
    cases hc
    have hne := (hapart _ (Deal.stores rfl)).1
    change a ≠ escrow at hne
    have h0 := hcov.1
    have hbal := hcov.2
    refine ⟨⟨rfl, rfl, rfl, rfl, rfl, rfl, rfl⟩, ?_⟩
    have hm := settle_balance (s := s) (opening a b r token n e s.timestamp) a escrow n
      ⟨["escrow", "initialized"], [.address a, .address b, .i128 n]⟩
    change _ = move (s.balance token) _ _ _ at hm
    change ((settle s _ a escrow n _).balance token a : ℤ) = _ ∧ _
    rw [show (settle s _ a escrow n _).balance token = _ from hm, move_source _ hne,
      move_destination _ hne]
    constructor <;> omega
  | @paid d d' call destination n e hs hr hp hcov =>
    apply paid_ensures hs hp hcov hc
    have h := hapart _ (Deal.stores rfl)
    cases hp with
    | release => exact h.2
    | refund => exact h.1
    | cancel => exact h.1
    | releasePartial => exact h.2
  | proposed => cases hc
  | accepted => cases hc
  | observed => cases hc

theorem succeeds_iff_requires (hs : Sound escrow s) (hc : clauses escrow s call = some c) :
    succeeds (invoke ⟨escrow, auths⟩ call) s = true ↔
      c.requires ∧ (∀ a ∈ c.signers, a ∈ auths) ∧ c.funded := by
  constructor
  · intro h
    exact requires_of_effect (effect_of_succeeds hs.shaped h) hc
  · rintro ⟨hr, ha, hf⟩
    obtain ⟨t, he⟩ := effect_of_requires hs hc hr ha hf
    exact succeeds_iff.mpr ⟨(), t, he.invoke_ok⟩

/-- In every reachable state the documented calls succeed exactly when their
clauses and signers allow it, and then ensure what they document; a call that
fails changes nothing. So the arbiter can release an active escrow, and after
the expiry the depositor can have it back. -/
theorem clauses_exact (escrow : Address) (now : UInt64) (balance : Address → Address → ℕ)
    (as : List (Action Address)) (auths : Finset Address) :
    let s := run (step escrow) (deployed now balance) as
    (∀ call, let t := step escrow s (.invoke auths call)
      (∀ c, clauses escrow s call = some c →
        (succeeds (invoke ⟨escrow, auths⟩ call) s = true ↔
          c.requires ∧ (∀ a ∈ c.signers, a ∈ auths) ∧ c.funded) ∧
        (succeeds (invoke ⟨escrow, auths⟩ call) s = true → Apart escrow t → c.ensures t)) ∧
      (succeeds (invoke ⟨escrow, auths⟩ call) s = false →
        t.storage = s.storage ∧ t.balance = s.balance)) ∧
    ∀ e, Stores s.storage e → e.released = false →
      (e.arbiter ∈ auths → succeeds (invoke ⟨escrow, auths⟩ (.release e.arbiter)) s = true) ∧
      (e.depositor ∈ auths → e.expiry ≤ s.timestamp →
        succeeds (invoke ⟨escrow, auths⟩ (.refund e.depositor)) s = true) := by
  intro s
  have hs : Sound escrow s := reachable_sound escrow now balance as
  refine ⟨fun call => ⟨fun c hc => ⟨succeeds_iff_requires hs hc, fun h hapart => ?_⟩,
    fun hf => ?_⟩, fun e he hr => ⟨fun ha => ?_, fun hd hexp => ?_⟩⟩
  · exact ensures_of_effect (effect_of_succeeds hs.shaped h) hc hapart
  · rw [step, commit_of_not_succeeds hf]
    exact ⟨rfl, rfl⟩
  · apply (succeeds_iff_requires hs rfl).mpr
    have hinit : s.storage.depositor.isSome = true := by
      rw [he.depositor]
      rfl
    exact ⟨⟨hinit, he.arbiter, he.released.trans (congrArg some hr)⟩, by simpa using ha, trivial⟩
  · apply (succeeds_iff_requires hs rfl).mpr
    exact ⟨⟨he.depositor, he.released.trans (congrArg some hr), e.expiry, he.expiry, hexp⟩,
      by simpa using hd, trivial⟩

end PayFi.Escrow.Conditions
