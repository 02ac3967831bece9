import Mathlib.Algebra.BigOperators.Group.List.Basic
import Mathlib.Algebra.Order.BigOperators.Group.List
import PayFi.Escrow.Solvency

namespace PayFi.Escrow.Composition

open Library.Balances Library.Integers Library.Machine Library.Transaction
open Contract Specs Effects Runs Solvency

variable {Address : Type}

/-- The authorisations a call carries, and the part it is to release. -/
abbrev Part (Address : Type) := Finset Address × I128

def releases (arbiter : Address) (parts : List (Part Address)) : List (Action Address) :=
  parts.map fun p => .invoke p.1 (.releasePartial arbiter p.2)

def total (parts : List (Part Address)) : ℤ := (parts.map fun p => (p.2 : ℤ)).sum

/-- Positive parts of what a deal has stored, each authorised by its arbiter. -/
structure Splits (d : Deal Address) (parts : List (Part Address)) : Prop where
  authorised : ∀ p ∈ parts, d.state.arbiter ∈ p.1
  positive : ∀ p ∈ parts, 0 < (p.2 : ℤ)
  total_le : total parts ≤ d.state.amount

variable {escrow : Address} {s t : Ledger Address} {d : Deal Address} {p : Part Address}
  {parts : List (Part Address)}

theorem total_cons (p : Part Address) (parts : List (Part Address)) :
    total (p :: parts) = p.2 + total parts := by
  simp only [total, List.map_cons, List.sum_cons]

theorem total_nonneg (h : ∀ p ∈ parts, 0 < (p.2 : ℤ)) : 0 ≤ total parts := by
  refine List.sum_nonneg fun x hx => ?_
  obtain ⟨p, hp, rfl⟩ := List.mem_map.mp hx
  exact (h p hp).le

theorem eq_nil_of_total (h : ∀ p ∈ parts, 0 < (p.2 : ℤ)) (hz : total parts ≤ 0) : parts = [] := by
  cases parts with
  | nil => rfl
  | cons p ps =>
    obtain ⟨hp, hps⟩ := List.forall_mem_cons.mp h
    have hrest := total_nonneg hps
    rw [total_cons] at hz
    omega

theorem Splits.head (h : Splits d (p :: parts)) :
    d.state.arbiter ∈ p.1 ∧ 0 < (p.2 : ℤ) ∧ (p.2 : ℤ) ≤ d.state.amount := by
  obtain ⟨hp, hps⟩ := List.forall_mem_cons.mp h.positive
  have hle := h.total_le
  have hrest := total_nonneg hps
  rw [total_cons] at hle
  exact ⟨h.authorised p List.mem_cons_self, hp, by omega⟩

theorem Splits.tail (h : Splits d (p :: parts)) {rest : I128}
    (hrest : (rest : ℤ) = d.state.amount - p.2) : Splits (d.leave rest) parts where
  authorised := fun q hq => h.authorised q (List.mem_cons_of_mem p hq)
  positive := fun q hq => h.positive q (List.mem_cons_of_mem p hq)
  total_le := by
    have hle := h.total_le
    rw [total_cons] at hle
    change total parts ≤ rest
    omega

theorem leave_amount (hr : d.state.released = false) (ha : 0 < (d.state.amount : ℤ)) :
    d.leave d.state.amount = d := by
  obtain ⟨⟨_, _, _, _, amount, _, released, _⟩, _⟩ := d
  cases hr
  simp only [Deal.leave, ha.ne', decide_false]

variable [DecidableEq Address]

/-- Every one of these calls has gone through, and together they have left the amount and
the balances that one payment of their total leaves. -/
structure Composed (escrow : Address) (s : Ledger Address) (d : Deal Address)
    (parts : List (Part Address)) (t : Ledger Address) : Prop where
  made : ∀ u ∈ trace (step escrow) s (releases d.state.arbiter parts),
    (successful escrow u).isSome = true
  storage : ∃ rest : I128, (rest : ℤ) = d.state.amount - total parts ∧
    t.storage = (d.leave rest).storage
  balance : t.balance = Function.update s.balance d.state.token
    (move (s.balance d.state.token) escrow d.state.recipient (total parts).toNat)

theorem release_part (hsol : Solvent escrow s d) (hr : d.state.released = false)
    (h : Splits d (p :: parts)) :
    ∃ rest : I128, (rest : ℤ) = d.state.amount - p.2 ∧
      Effect ⟨escrow, p.1⟩ s (.releasePartial d.state.arbiter p.2)
        (settle s (d.leave rest) escrow d.state.recipient p.2
          (partialEvent d.state.recipient p.2 rest)) ∧
      Solvent escrow (settle s (d.leave rest) escrow d.state.recipient p.2
        (partialEvent d.state.recipient p.2 rest)) (d.leave rest) := by
  obtain ⟨ha, hpos, hle⟩ := h.head
  have hc := hsol.covers hr hpos.le hle
  have hp : Pays p.1 s.timestamp d (.releasePartial d.state.arbiter p.2) _ _ _ _ :=
    .releasePartial ha p.2 ⟨hpos, hle⟩
  exact ⟨_, rfl, .paid hsol.storage hr hp hc, paid_solvent hsol hr hp hc⟩

theorem composed_nil (hs : s.storage = (d.leave d.state.amount).storage) :
    Composed escrow s d [] s where
  made := List.forall_mem_nil _
  storage := ⟨d.state.amount, (Int.sub_zero _).symm, hs⟩
  balance := by simp [total]

theorem composed_cons (hne : escrow ≠ d.state.recipient) (h : Splits d (p :: parts))
    {rest : I128} {e : Event Address} (hrest : (rest : ℤ) = d.state.amount - p.2)
    (heffect : Effect ⟨escrow, p.1⟩ s (.releasePartial d.state.arbiter p.2)
      (settle s (d.leave rest) escrow d.state.recipient p.2 e))
    (hrun : Composed escrow (settle s (d.leave rest) escrow d.state.recipient p.2 e)
      (d.leave rest) parts t) : Composed escrow s d (p :: parts) t where
  made := by
    rw [releases, List.map_cons, trace, step_of_effect heffect, ← releases]
    refine List.forall_mem_cons.mpr ⟨?_, hrun.made⟩
    rw [successful_of_effect heffect]
    rfl
  storage := by
    obtain ⟨last, hlast, hstorage⟩ := hrun.storage
    refine ⟨last, ?_, hstorage⟩
    have hleft : (last : ℤ) = rest - total parts := hlast
    rw [total_cons]
    omega
  balance := by
    have hsum : (total (p :: parts)).toNat = (p.2 : ℤ).toNat + (total parts).toNat := by
      rw [total_cons, Int.toNat_add h.head.2.1.le (total_nonneg (h.tail hrest).positive)]
    rw [hrun.balance, hsum]
    simp only [settle, Ledger.pay, Deal.leave, Function.update_self, Function.update_idem,
      move_move _ hne]

/-- By induction on the parts: the first leaves a deal that the others split, or seals it,
and then there are no others. -/
theorem releases_compose (hsol : Solvent escrow s d) (hr : d.state.released = false)
    (hne : escrow ≠ d.state.recipient) (h : Splits d parts) :
    Composed escrow s d parts (run (step escrow) s (releases d.state.arbiter parts)) := by
  induction parts generalizing s d with
  | nil =>
    refine composed_nil ?_
    rw [leave_amount hr (hsol.positive hr)]
    exact hsol.storage
  | cons p ps ih =>
    obtain ⟨rest, hrest, heffect, hsol'⟩ := release_part hsol hr h
    rw [releases, List.map_cons, run_cons, ← releases, step_of_effect heffect]
    refine composed_cons hne h hrest heffect ?_
    by_cases hz : (rest : ℤ) = 0
    · have hle : total ps ≤ rest := (h.tail hrest).total_le
      have hnil := eq_nil_of_total (h.tail hrest).positive (hle.trans hz.le)
      subst hnil
      exact composed_nil hsol'.storage
    · exact ih hsol' (decide_eq_false hz) hne (h.tail hrest)

theorem release_refused {rest : I128} (hs : s.storage = (d.leave rest).storage)
    (auths : Finset Address) (arbiter : Address) {n : I128} (hn : (rest : ℤ) < n) :
    succeeds (invoke ⟨escrow, auths⟩ (.releasePartial arbiter n)) s = false := by
  refine Bool.not_eq_true _ ▸ fun h => ?_
  obtain ⟨_, t, ht⟩ := succeeds_iff.mp h
  simp only [invoke, releasePartial_eval hs] at ht
  split_ifs at ht with ha hne hr hle
  exact hn.not_ge hle.2

/-- Partial releases of positive parts whose total is stored all go through, and what they
leave depends on the total alone. A total of the whole amount leaves what a single release
leaves, but for the stored amount; more than the rest is refused. -/
theorem partial_releases_compose (escrow : Address) (now : UInt64)
    (balance : Address → Address → ℕ) (as : List (Action Address)) (d : Deal Address)
    (hs : (run (step escrow) (deployed now balance) as).storage = d.storage)
    (hr : d.state.released = false) (hne : d.state.recipient ≠ escrow)
    (parts : List (Part Address)) (hparts : Splits d parts) :
    let s := run (step escrow) (deployed now balance) as
    let t := run (step escrow) s (releases d.state.arbiter parts)
    (∀ u ∈ trace (step escrow) s (releases d.state.arbiter parts),
        (successful escrow u).isSome = true) ∧
      (∀ parts', Splits d parts' → total parts' = total parts →
        (run (step escrow) s (releases d.state.arbiter parts')).storage = t.storage ∧
        (run (step escrow) s (releases d.state.arbiter parts')).balance = t.balance) ∧
      (total parts = d.state.amount → ∀ auths, d.state.arbiter ∈ auths →
        successful escrow ⟨s, .invoke auths (.release d.state.arbiter), s⟩ =
            some (.release d.state.arbiter) ∧
          t.storage.released = some true ∧
          t.storage = { (step escrow s (.invoke auths (.release d.state.arbiter))).storage with
            amount := some (.ofNat 0 (by decide)) } ∧
          t.balance = (step escrow s (.invoke auths (.release d.state.arbiter))).balance) ∧
      (∀ auths arbiter, ∀ n : I128, 0 < (n : ℤ) → d.state.amount - total parts < n →
        succeeds (invoke ⟨escrow, auths⟩ (.releasePartial arbiter n)) t = false ∧
          step escrow t (.invoke auths (.releasePartial arbiter n)) = t) := by
  intro s t
  have hsol : Solvent escrow s d := (reachable_sound escrow now balance as).solvent hs
  have hall := releases_compose hsol hr hne.symm hparts
  obtain ⟨rest, hrest, hstorage⟩ := hall.storage
  refine ⟨hall.made, fun parts' hparts' htotal => ?_, fun htotal auths ha => ?_,
    fun auths arbiter n _ hn => ?_⟩
  · have hall' := releases_compose hsol hr hne.symm hparts'
    obtain ⟨rest', hrest', hstorage'⟩ := hall'.storage
    have heq : rest' = rest := Subtype.ext (by rw [hrest', hrest, htotal])
    rw [hstorage', hstorage, heq, hall'.balance, hall.balance, htotal]
    exact ⟨rfl, rfl⟩
  · have heffect : Effect ⟨escrow, auths⟩ s (.release d.state.arbiter) _ :=
      .paid hsol.storage hr (.release ha) (hsol.covers hr hsol.nonneg le_rfl)
    have hzero : rest = .ofNat 0 (by decide) :=
      Subtype.ext (by rw [hrest, htotal, Int.sub_self]; rfl)
    refine ⟨successful_of_effect heffect _, ?_, ?_, ?_⟩
    · rw [hstorage, hzero]
      rfl
    · rw [hstorage, hzero, step_of_effect heffect]
      rfl
    · rw [hall.balance, htotal, step_of_effect heffect]
      rfl
  · have hf : succeeds (invoke ⟨escrow, auths⟩ (.releasePartial arbiter n)) t = false :=
      release_refused hstorage auths arbiter (by rwa [hrest])
    exact ⟨hf, commit_of_not_succeeds hf⟩

/-- An escrow of a hundred with its deposit made. -/
def funded : List (Action ℕ) :=
  [.invoke {1} (.initialise 1 2 3 9 (.ofNat 100 (by decide)) 50)]

theorem partial_releases_compose_of_two :
    let s := run (step 0) (deployed 0 fun _ holder => if holder = 1 then 500 else 0) funded
    let parts : List (Part ℕ) := [({3}, .ofNat 40 (by decide)), ({3}, .ofNat 60 (by decide))]
    (run (step 0) s (releases 3 parts)).storage.released = some true ∧
      (run (step 0) s (releases 3 parts)).balance =
        (step 0 s (.invoke {3} (.release 3))).balance := by
  have h := partial_releases_compose 0 0 (fun _ holder => if holder = 1 then 500 else 0) funded
    (opening 1 2 3 9 (.ofNat 100 (by decide)) 50 0) (by decide) rfl (by decide)
    [({3}, .ofNat 40 (by decide)), ({3}, .ofNat 60 (by decide))]
    ⟨by decide, by decide, by decide⟩
  obtain ⟨-, hreleased, -, hbalance⟩ := h.2.2.1 (by decide) {3} (by decide)
  exact ⟨hreleased, hbalance⟩

end PayFi.Escrow.Composition
