import PayFi.Escrow.Completeness
import PayFi.Escrow.Solvency

namespace PayFi.Escrow.Conservation

open Library.Integers Library.Machine Contract Specs Effects Runs Completeness Solvency

variable {Address : Type} [DecidableEq Address]

def payouts (escrow : Address) (s : Ledger Address) : List (Transfer Address) :=
  s.transfers.filter (·.source = escrow)

def total (ps : List (Transfer Address)) : ℤ := (ps.map fun p => (p.amount : ℤ)).sum

def paidTo (a : Address) (ps : List (Transfer Address)) : List (Transfer Address) :=
  ps.filter (·.destination = a)

def outstanding (e : EscrowState Address) : ℤ := if e.released = true then 0 else e.amount

def lockedBy : Call Address → Option I128
  | .initialise _ _ _ _ n _ => some n
  | _ => none

/-- The amounts of the successful `initialise` calls of a history. -/
def lockedAmounts (escrow : Address) (ts : History Address) : List I128 :=
  ts.filterMap fun t => (successful escrow t).bind lockedBy

/-- The escrow's own address authorises none of the calls. -/
def NeverSigns (escrow : Address) (as : List (Action Address)) : Prop :=
  ∀ auths call, Action.invoke auths call ∈ as → escrow ∉ auths

/-- The payouts `ps` of an escrow that started with `locked` and now stores `e`. -/
structure Balanced (locked : I128) (ps : List (Transfer Address)) (e : EscrowState Address) :
    Prop where
  conserved : total ps + outstanding e = locked
  parties : ∀ p ∈ ps, p.token = e.token ∧
    (p.destination = e.recipient ∨ p.destination = e.depositor)
  refunded : (paidTo e.depositor ps).length ≤ if e.released = true then 1 else 0

variable {escrow : Address} {s t : Ledger Address} {d d' : Deal Address}

theorem payouts_settle (d : Deal Address) (destination : Address) (n : I128) (e : Event Address) :
    payouts escrow (settle s d escrow destination n e) =
      payouts escrow s ++ [⟨d.state.token, escrow, destination, n⟩] := by
  simp [payouts, settle, Ledger.pay, List.filter_append]

theorem payouts_settle_other (d : Deal Address) {source : Address} (h : source ≠ escrow)
    (destination : Address) (n : I128) (e : Event Address) :
    payouts escrow (settle s d source destination n e) = payouts escrow s := by
  simp [payouts, settle, Ledger.pay, List.filter_append, h]

omit [DecidableEq Address] in
theorem total_append (ps qs : List (Transfer Address)) :
    total (ps ++ qs) = total ps + total qs := by
  simp [total]

theorem paidTo_append (a : Address) (ps qs : List (Transfer Address)) :
    paidTo a (ps ++ qs) = paidTo a ps ++ paidTo a qs := by
  simp [paidTo]

theorem opened_balanced {e : EscrowState Address} (hr : e.released = false) :
    Balanced e.amount [] e := by
  refine ⟨?_, by simp, by simp [paidTo]⟩
  simp [total, outstanding, hr]

theorem Balanced.pay {locked : I128} {ps : List (Transfer Address)} {e e' : EscrowState Address}
    {destination : Address} {n : I128} (hb : Balanced locked ps e) (hr : e.released = false)
    (hne : e.depositor ≠ e.recipient) (hd : e'.depositor = e.depositor)
    (hrec : e'.recipient = e.recipient) (ht : e'.token = e.token)
    (hout : outstanding e' + n = outstanding e)
    (hto : destination = e.recipient ∨ destination = e.depositor ∧ e'.released = true) :
    Balanced locked (ps ++ [⟨e.token, escrow, destination, n⟩]) e' := by
  have hf := hb.refunded
  simp only [hr, Bool.false_eq_true, if_false, Nat.le_zero] at hf
  refine ⟨?_, ?_, ?_⟩
  · have hb' := hb.conserved
    have h1 : total [(⟨e.token, escrow, destination, n⟩ : Transfer Address)] = n := by simp [total]
    rw [total_append, h1]
    omega
  · intro p hp
    rw [ht, hrec, hd]
    obtain hp | hp := List.mem_append.mp hp
    · exact hb.parties p hp
    · cases List.mem_singleton.mp hp
      exact ⟨rfl, hto.imp id And.left⟩
  · rw [hd, paidTo_append, List.length_append, hf, Nat.zero_add]
    obtain rfl | ⟨rfl, hr'⟩ := hto
    · simp [paidTo, hne.symm]
    · simp [paidTo, hr']

theorem paid_balanced {locked : I128} {ps : List (Transfer Address)} {auths : Finset Address}
    {now : UInt64} {call : Call Address} {destination : Address} {n : I128} {ev : Event Address}
    (hne : d.state.depositor ≠ d.state.recipient) (hb : Balanced locked ps d.state)
    (hr : d.state.released = false) (hp : Pays auths now d call destination n d' ev) :
    Balanced locked (ps ++ [⟨d.state.token, escrow, destination, n⟩]) d'.state := by
  have ho : outstanding d.state = d.state.amount := by simp [outstanding, hr]
  have hseal : outstanding d.seal.state + d.state.amount = outstanding d.state := by
    simp [outstanding, Deal.seal, hr]
  cases hp with
  | release => exact hb.pay hr hne rfl rfl rfl hseal (.inl rfl)
  | refund => exact hb.pay hr hne rfl rfl rfl hseal (.inr ⟨rfl, rfl⟩)
  | cancel => exact hb.pay hr hne rfl rfl rfl hseal (.inr ⟨rfl, rfl⟩)
  | releasePartial ha _ hn =>
    refine hb.pay hr hne rfl rfl rfl ?_ (.inl rfl)
    have hleft :
        outstanding (d.leave (remaining d.state.amount n hn)).state = d.state.amount - n := by
      by_cases hz : (remaining d.state.amount n hn : ℤ) = 0
      · simp only [outstanding, Deal.leave, hz, decide_true, if_true]
        exact hz.symm
      · simp only [outstanding, Deal.leave, hz, decide_false, Bool.false_eq_true, if_false]
        rfl
    omega

def Accounted (escrow : Address) (ts : History Address) (s : Ledger Address) : Prop :=
  (s.storage = {} ∧ lockedAmounts escrow ts = [] ∧ payouts escrow s = []) ∨
    ∃ (d : Deal Address) (locked : I128), s.storage = d.storage ∧
      lockedAmounts escrow ts = [locked] ∧ Balanced locked (payouts escrow s) d.state

theorem lockedAmounts_concat {ts : History Address} {a : Action Address} {o : Option (Call Address)}
    (h : successful escrow ⟨s, a, t⟩ = o) (ho : o.bind lockedBy = none) :
    lockedAmounts escrow (ts ++ [⟨s, a, t⟩]) = lockedAmounts escrow ts := by
  simp [lockedAmounts, List.filterMap_append, h, ho]

omit [DecidableEq Address] in
theorem Pays.lockedBy_eq {auths : Finset Address} {now : UInt64} {call : Call Address}
    {destination : Address} {n : I128} {ev : Event Address}
    (hp : Pays auths now d call destination n d' ev) : lockedBy call = none := by
  cases hp <;> rfl

theorem Accounted.balanced {ts : History Address} (h : Accounted escrow ts s)
    (hs : s.storage = d.storage) : ∃ locked, lockedAmounts escrow ts = [locked] ∧
      Balanced locked (payouts escrow s) d.state := by
  obtain ⟨h0, -⟩ | ⟨d', locked, hd, h⟩ := h
  · exact absurd h0 (Deal.initialised hs)
  · cases Deal.unique hs hd
    exact ⟨locked, h⟩

theorem Accounted.quiet {ts ts' : History Address} (h : Accounted escrow ts s)
    (hs : t.storage = s.storage) (ht : t.transfers = s.transfers)
    (hl : lockedAmounts escrow ts' = lockedAmounts escrow ts) : Accounted escrow ts' t := by
  have hp : payouts escrow t = payouts escrow s := by
    rw [payouts, ht, payouts]
  rw [Accounted, hs, hp, hl]
  exact h

theorem step_accounted {ts : History Address} (a : Action Address) (hs : Sound escrow s)
    (hself : ∀ auths call, a = .invoke auths call → escrow ∉ auths)
    (h : Accounted escrow ts s) :
    Accounted escrow (ts ++ [⟨s, a, step escrow s a⟩]) (step escrow s a) := by
  have ho := step_outcome escrow hs.shaped a
  generalize step escrow s a = t at ho
  cases ho with
  | made he =>
    have hc := successful_of_effect he t
    cases he with
    | @initialised a b c token n e hs0 ha hac hab hcb hn hmax he hcov =>
      have hne : a ≠ escrow := fun heq => hself _ _ rfl (heq ▸ ha)
      obtain ⟨-, hl, hp⟩ | ⟨d, -, hd, -⟩ := h
      · refine .inr ⟨_, n, rfl, ?_, ?_⟩
        · simp only [lockedAmounts] at hl
          simp [lockedAmounts, List.filterMap_append, hl, hc, lockedBy]
        · rw [payouts_settle_other _ hne, hp]
          exact opened_balanced (e := (opening a b c token n e s.timestamp).state) rfl
      · exact absurd hs0 (Deal.initialised hd)
    | paid hs' hr hp =>
      obtain ⟨locked, hl, hb⟩ := h.balanced hs'
      refine .inr ⟨_, locked, rfl, ?_, ?_⟩
      · rw [lockedAmounts_concat hc (Pays.lockedBy_eq hp), hl]
      · rw [payouts_settle, hp.keeps.token]
        exact paid_balanced (hs.solvent hs').distinct hb hr hp
    | proposed hs' =>
      obtain ⟨locked, hl, hb⟩ := h.balanced hs'
      exact .inr ⟨_, locked, rfl, (lockedAmounts_concat hc rfl).trans hl, hb⟩
    | accepted hs' =>
      obtain ⟨locked, hl, hb⟩ := h.balanced hs'
      exact .inr ⟨_, locked, rfl, (lockedAmounts_concat hc rfl).trans hl,
        ⟨hb.conserved, hb.parties, hb.refunded⟩⟩
    | observed => exact h.quiet rfl rfl (lockedAmounts_concat hc rfl)
  | refused hf => exact h.quiet rfl rfl (lockedAmounts_concat (successful_of_refused hf s) rfl)
  | advance now => exact h.quiet rfl rfl (lockedAmounts_concat (o := none) rfl rfl)
  | outside others deposits => exact h.quiet rfl rfl (lockedAmounts_concat (o := none) rfl rfl)

theorem reachable_accounted (now : UInt64) (balance : Address → Address → ℕ)
    {as : List (Action Address)} (hself : NeverSigns escrow as) :
    Accounted escrow (trace (step escrow) (deployed now balance) as)
      (run (step escrow) (deployed now balance) as) := by
  have h : Sound escrow (run (step escrow) (deployed now balance) as) ∧
      ((∀ u ∈ trace (step escrow) (deployed now balance) as, ∀ auths call,
        u.action = .invoke auths call → escrow ∉ auths) →
      Accounted escrow (trace (step escrow) (deployed now balance) as)
        (run (step escrow) (deployed now balance) as)) := by
    refine run_induction (s := deployed now balance) (R := fun ts s => Sound escrow s ∧
      ((∀ u ∈ ts, ∀ auths call, u.action = .invoke auths call → escrow ∉ auths) →
        Accounted escrow ts s)) ⟨.inl rfl, fun _ => .inl ⟨rfl, rfl, rfl⟩⟩ ?_ as
    rintro ts s a ⟨hs, ih⟩
    refine ⟨step_sound hs a, fun hts => ?_⟩
    exact step_accounted a hs (hts ⟨s, a, step escrow s a⟩ (by simp))
      (ih fun u hu => hts u (by simp [hu]))
  exact h.2 fun u hu auths call hc => hself auths call (hc ▸ action_mem hu)

/-- The books of a history that has reached the ledger `s`. -/
def Conserved (escrow : Address) (ts : History Address) (s : Ledger Address) : Prop :=
  ∃ e locked, Stores s.storage e ∧ lockedAmounts escrow ts = [locked] ∧
    total (payouts escrow s) + (if e.released = true then 0 else (e.amount : ℤ)) = locked ∧
    (∀ p ∈ payouts escrow s, p.token = e.token ∧
      (p.destination = e.recipient ∨ p.destination = e.depositor)) ∧
    (paidTo e.depositor (payouts escrow s)).length ≤ 1 ∧
    0 ≤ (e.amount : ℤ) ∧ (e.released = false → (e.amount : ℤ) ≤ s.balance e.token escrow)

/-- In every reachable initialised state the payouts and what is still owed add
up to what the one `initialise` locked, and the escrow can pay it. -/
theorem payouts_conserved (escrow : Address) (now : UInt64) (balance : Address → Address → ℕ)
    (as : List (Action Address)) (hself : NeverSigns escrow as)
    (hinit : (run (step escrow) (deployed now balance) as).storage.depositor.isSome = true) :
    Conserved escrow (trace (step escrow) (deployed now balance) as)
      (run (step escrow) (deployed now balance) as) := by
  have hs := reachable_sound escrow now balance as
  obtain ⟨h0, -⟩ | ⟨d, locked, hd, hl, hb⟩ := reachable_accounted now balance hself
  · rw [h0] at hinit
    cases hinit
  · have h := hs.solvent hd
    refine ⟨d.state, locked, Deal.stores hd, hl, hb.conserved, hb.parties, ?_, h.nonneg, h.covered⟩
    exact hb.refunded.trans (by split <;> simp)

theorem payouts_conserved_after_release :
    let as : List (Action ℕ) :=
      [.invoke {1} (.initialise 1 2 3 9 (.ofNat 100 (by decide)) 50), .invoke {3} (.release 3)]
    let start : Ledger ℕ := deployed 0 fun _ holder => if holder = 1 then 500 else 0
    Conserved 0 (trace (step 0) start as) (run (step 0) start as) :=
  payouts_conserved 0 0 _ _ (by
    intro auths call h
    simp only [List.mem_cons, Action.invoke.injEq, List.not_mem_nil, or_false] at h
    obtain ⟨rfl, -⟩ | ⟨rfl, -⟩ := h
    · simp
    · simp) (by decide)

end PayFi.Escrow.Conservation
