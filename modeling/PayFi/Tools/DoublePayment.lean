import PayFi.Network.Landing
import PayFi.Tools.Rebuilding

namespace PayFi.Tools.DoublePayment

open Library.Retry Network.Landing Payment
open Network.Submission (Fault Fate Issue Ledger Transaction SubmitResult includes)
open Rebuilding hiding Network

/-- What one call of `execute` meets: two loads of the account's sequence number, two
submissions, and what still reaches the ledger when it is over. -/
structure Network where
  load : Except Fault ℤ
  first : Script
  reload : Except Fault ℤ
  second : Script
  after : List Arrival

variable {Op : Type}

def Network.connection (retries : ℕ) (net : Network) : Connection (Wire Op) Op :=
  ⟨net.load, submitTransaction retries net.first, net.reload, submitTransaction retries net.second⟩

/-- The payments that the ledger has applied in the end. -/
def applied (net : Network) (out : Except Fault (String × ℕ) × Wire Op) : List (Transaction Op) :=
  (arrivals out.2 net.after).ledger.applied

/-- The wire after `n` attempts of the first submission. -/
def submitted (net : Network) (tx : Transaction Op) (l : Ledger Op) (n : ℕ) : Wire Op :=
  states (attempts net.first tx) (sent l) n

/-- The wire in the end, when the payment has been rebuilt and submitted `m` times more. -/
def resubmitted (net : Network) (tx tx' : Transaction Op) (l : Ledger Op) (n m : ℕ) : Wire Op :=
  arrivals (states (attempts net.second tx') (submitted net tx l n) m) net.after

/-- How a payment is made twice: the network answers the attempts of the first submission with an
error about the sequence number in the end, and the account, when it is reloaded, with another
number; and copies of both envelopes find their own number the next, sooner or later. -/
structure Twice (retries : ℕ) (net : Network) (operation : Op) (l : Ledger Op)
    (sequence sequence' : ℤ) (n m : ℕ) : Prop where
  load : net.load = .ok sequence
  made : Makes retries net.first ⟨sequence + 1, operation⟩ (sent l) n
  blames : Blames net.first ⟨sequence + 1, operation⟩ (sent l) n
  reload : net.reload = .ok sequence'
  numbers : sequence ≠ sequence'
  remade : Makes retries net.second ⟨sequence' + 1, operation⟩
    (submitted net ⟨sequence + 1, operation⟩ l n) m
  lands : Lands (resubmitted net ⟨sequence + 1, operation⟩ ⟨sequence' + 1, operation⟩ l n m)
    ⟨sequence + 1, operation⟩
  lands' : Lands (resubmitted net ⟨sequence + 1, operation⟩ ⟨sequence' + 1, operation⟩ l n m)
    ⟨sequence' + 1, operation⟩

variable {retries : ℕ} {net : Network} {operation : Op} {l : Ledger Op} {sequence : ℤ}

theorem submitResultSchema_error {result : SubmitResult} {issues : List Issue}
    (h : submitResultSchema result = .error issues) : mentionsBadSeq (.zod issues) = false := by
  obtain ⟨hash, ledger⟩ := result
  cases hash with
  | none =>
    cases ledger with
    | none =>
      cases h
      decide
    | some ledger =>
      obtain rfl : [⟨["hash"], "Required"⟩] = issues := Except.error.inj h
      decide
  | some hash =>
    cases ledger with
    | none =>
      obtain rfl : [⟨["ledger"], "Required"⟩] = issues := Except.error.inj h
      decide
    | some ledger => cases h

theorem parse_blames (out : Except Fault SubmitResult × Wire Op) :
    (∃ e, (parse out).1 = .error e ∧ mentionsBadSeq e = true) ↔
      ∃ e, out.1 = .error e ∧ includes e.message "tx_bad_seq" = true := by
  obtain ⟨out, w⟩ := out
  cases out with
  | error e =>
    refine ⟨fun ⟨e', he, h⟩ => ⟨e', ?_, h⟩, fun ⟨e', he, h⟩ => ⟨e', ?_, h⟩⟩
    · cases he
      rfl
    · cases he
      rfl
  | ok result =>
    refine iff_of_false ?_ fun ⟨e, he, _⟩ => by cases he
    rintro ⟨e, he, hmentions⟩
    simp only [parse, Except.bind] at he
    cases hschema : submitResultSchema result with
    | ok receipt =>
      rw [hschema] at he
      cases he
    | error issues =>
      rw [hschema] at he
      obtain rfl := Except.error.inj he
      rw [submitResultSchema_error hschema] at hmentions
      cases hmentions

theorem submitted_accounted (txs : List (Transaction Op)) {tx : Transaction Op} (htx : tx ∈ txs)
    (net : Network) (l : Ledger Op) (n : ℕ) : Accounted txs l (submitted net tx l n) :=
  states_accounted net.first (sent_accounted txs l) htx n

theorem nothing_applied (l : Ledger Op) (as : List Arrival) :
    (arrivals (sent l) as).ledger.applied = l.applied := by
  have haccounted := arrivals_accounted (sent_accounted [] l) as
  have hdelivered : (arrivals (sent l) as).delivered = [] :=
    List.eq_nil_iff_forall_not_mem.mpr fun d hd => List.not_mem_nil (haccounted.known d hd)
  rw [haccounted.applied, hdelivered]
  exact List.append_nil _

theorem applied_once {out : Except Fault (String × ℕ)} (tx : Transaction Op) (n : ℕ) :
    (applied net (out, submitted net tx l n)).length ≤ l.applied.length + 1 :=
  (arrivals_accounted (submitted_accounted [tx] List.mem_cons_self net l n) net.after).length_le

theorem applied_again {out : Except Fault (String × ℕ)} {sequence' : ℤ} {n m : ℕ} :
    (applied net (out, states (attempts net.second ⟨sequence' + 1, operation⟩)
      (submitted net ⟨sequence + 1, operation⟩ l n) m)).length ≤ l.applied.length + 1 ↔
      ¬(sequence ≠ sequence' ∧
        Lands (resubmitted net ⟨sequence + 1, operation⟩ ⟨sequence' + 1, operation⟩ l n m)
          ⟨sequence + 1, operation⟩ ∧
        Lands (resubmitted net ⟨sequence + 1, operation⟩ ⟨sequence' + 1, operation⟩ l n m)
          ⟨sequence' + 1, operation⟩) := by
  have hfirst := submitted_accounted
    [(⟨sequence + 1, operation⟩ : Transaction Op), ⟨sequence' + 1, operation⟩]
    List.mem_cons_self net l n
  have hsecond := states_accounted net.second hfirst (List.mem_cons_of_mem _ List.mem_cons_self) m
  have hiff := (arrivals_accounted hsecond net.after).length_le_iff
  rw [ne_eq, Int.add_left_inj] at hiff
  exact hiff

theorem parse_submitTransaction (retries : ℕ) (s : Script) (tx : Transaction Op) (w : Wire Op) :
    ∃ n out, Makes retries s tx w n ∧
      parse (submitTransaction retries s tx w) = (out, states (attempts s tx) w n) ∧
      ((∃ e, out = .error e ∧ mentionsBadSeq e = true) ↔ Blames s tx w n) := by
  obtain ⟨n, hmade, hstate, hblames⟩ := submitTransaction_spec retries s tx w
  exact ⟨n, _, hmade, Prod.ext rfl hstate, (parse_blames _).trans hblames⟩

/-- The first submission is the only one there is. -/
theorem Twice.first {sequence₁ sequence' : ℤ} {n n₁ m : ℕ}
    (h : Twice retries net operation l sequence₁ sequence' n₁ m) (hload : net.load = .ok sequence)
    (hmade : Makes retries net.first ⟨sequence + 1, operation⟩ (sent l) n) :
    sequence₁ = sequence ∧ n₁ = n := by
  have hsequence := h.load
  rw [hload] at hsequence
  cases hsequence
  exact ⟨rfl, h.made.unique hmade⟩

theorem resubmission_applied {sequence' : ℤ} {n : ℕ} (hload : net.load = .ok sequence)
    (hmade : Makes retries net.first ⟨sequence + 1, operation⟩ (sent l) n)
    (hblames : Blames net.first ⟨sequence + 1, operation⟩ (sent l) n)
    (hreload : net.reload = .ok sequence') :
    (applied net (parse (submitTransaction retries net.second ⟨sequence' + 1, operation⟩
        (submitted net ⟨sequence + 1, operation⟩ l n)))).length ≤ l.applied.length + 1 ↔
      ∀ sequence₁ sequence₂ n₁ m, ¬Twice retries net operation l sequence₁ sequence₂ n₁ m := by
  obtain ⟨m, out, hremade, hout, -⟩ := parse_submitTransaction retries net.second
    ⟨sequence' + 1, operation⟩ (submitted net ⟨sequence + 1, operation⟩ l n)
  rw [hout, applied_again]
  constructor
  · intro hnot sequence₁ sequence₂ n₁ m₁ h
    refine hnot ?_
    obtain ⟨rfl, rfl⟩ := h.first hload hmade
    have hsequence := h.reload
    rw [hreload] at hsequence
    cases hsequence
    obtain rfl := h.remade.unique hremade
    exact ⟨h.numbers, h.lands, h.lands'⟩
  · intro hnot hboth
    exact hnot sequence sequence' n m ⟨hload, hmade, hblames, hreload, hboth.1, hremade,
      hboth.2.1, hboth.2.2⟩

theorem submitRebuildingOn_applied (retries : ℕ) (net : Network) (operation : Op) (l : Ledger Op) :
    (applied net (submitRebuildingOn (net.connection retries) (.ok operation) (sent l))).length ≤
        l.applied.length + 1 ↔
      ∀ sequence sequence' n m, ¬Twice retries net operation l sequence sequence' n m := by
  cases hload : net.load with
  | error e =>
    refine iff_of_true ?_ fun sequence _ _ _ h => ?_
    · simp only [submitRebuildingOn, Network.connection, hload]
      exact applied_once ⟨0, operation⟩ 0
    · have hsequence := h.load
      rw [hload] at hsequence
      cases hsequence
  | ok sequence =>
    obtain ⟨n, out, hmade, hout, hblames⟩ :=
      parse_submitTransaction retries net.first ⟨sequence + 1, operation⟩ (sent l)
    have hquiet : ¬Blames net.first ⟨sequence + 1, operation⟩ (sent l) n →
        ∀ sequence₁ sequence' n₁ m, ¬Twice retries net operation l sequence₁ sequence' n₁ m := by
      intro hnot sequence₁ sequence' n₁ m h
      obtain ⟨rfl, rfl⟩ := h.first hload hmade
      exact hnot h.blames
    simp only [submitRebuildingOn, Network.connection, hload, hout]
    cases out with
    | ok receipt =>
      refine iff_of_true (applied_once ..) (hquiet fun hblamed => ?_)
      obtain ⟨e, he, -⟩ := hblames.mpr hblamed
      cases he
    | error e =>
      by_cases hmentions : mentionsBadSeq e = true
      · simp only [hmentions, if_true]
        cases hreload : net.reload with
        | error e' =>
          refine iff_of_true (applied_once ..) fun sequence₁ sequence' n₁ m h => ?_
          have hsequence := h.reload
          rw [hreload] at hsequence
          cases hsequence
        | ok sequence' =>
          exact resubmission_applied hload hmade (hblames.mp ⟨e, rfl, hmentions⟩) hreload
      · simp only [hmentions, Bool.false_eq_true, if_false]
        refine iff_of_true (applied_once ..) (hquiet fun hblamed => ?_)
        obtain ⟨e', he, hmentions'⟩ := hblames.mpr hblamed
        cases he
        exact hmentions hmentions'

theorem applied_iff (retries : ℕ) (net : Network) (content : Except Fault Op) (l : Ledger Op) :
    (applied net (submitRebuildingOn (net.connection retries) content (sent l))).length ≤
        l.applied.length + 1 ↔
      ∀ operation, content = .ok operation →
        ∀ sequence sequence' n m, ¬Twice retries net operation l sequence sequence' n m := by
  cases content with
  | ok operation =>
    rw [submitRebuildingOn_applied]
    refine ⟨fun h operation' hop => ?_, fun h => h operation rfl⟩
    cases hop
    exact h
  | error e =>
    refine iff_of_true ?_ fun _ h => by cases h
    have hnothing : (submitRebuildingOn (net.connection retries) (.error e : Except Fault Op)
        (sent l)).2 = sent l := by
      cases hload : net.load <;> simp [submitRebuildingOn, Network.connection, hload]
    rw [applied, hnothing, nothing_applied]
    exact Nat.le_succ _

/-- One call of either tool causes at most one payment, at any time until the last copy of its
envelopes has arrived, exactly when the network does not lead to two. -/
theorem payment_applied_once_iff (retries : ℕ) (sdk : Sdk) (publicKey : String) (net : Network) :
    (∀ raw l, (applied net (StellarPaymentTool.executeOn sdk publicKey raw
        (net.connection retries) (sent l))).length ≤ l.applied.length + 1 ↔
      ∀ input asset operation, prepare sdk publicKey raw = .ok (input, asset) →
        content sdk input asset = .ok operation →
        ∀ sequence sequence' n m, ¬Twice retries net operation l sequence sequence' n m) ∧
    (∀ strictSendPaths raw l, (applied net (PathPaymentTool.executeOn sdk publicKey strictSendPaths
        raw (net.connection retries) (sent l))).length ≤ l.applied.length + 1 ↔
      ∀ input sendAsset destAsset path operation,
        PathPaymentTool.prepare sdk publicKey strictSendPaths raw =
          .ok (input, sendAsset, destAsset, path) →
        PathPaymentTool.content sdk input sendAsset destAsset path = .ok operation →
        ∀ sequence sequence' n m, ¬Twice retries net operation l sequence sequence' n m) := by
  refine ⟨fun raw l => ?_, fun strictSendPaths raw l => ?_⟩
  · cases hprepare : prepare sdk publicKey raw with
    | error e =>
      refine iff_of_true ?_ fun _ _ _ h => by cases h
      simp only [StellarPaymentTool.executeOn, hprepare, applied, nothing_applied]
      exact Nat.le_succ _
    | ok out =>
      obtain ⟨input, asset⟩ := out
      simp only [StellarPaymentTool.executeOn, hprepare, applied_iff]
      refine ⟨fun h input' asset' operation heq => ?_,
        fun h operation => h input asset operation rfl⟩
      cases heq
      exact h operation
  · cases hprepare : PathPaymentTool.prepare sdk publicKey strictSendPaths raw with
    | error e =>
      refine iff_of_true ?_ fun _ _ _ _ _ h => by cases h
      simp only [PathPaymentTool.executeOn, hprepare, applied, nothing_applied]
      exact Nat.le_succ _
    | ok out =>
      obtain ⟨input, sendAsset, destAsset, path⟩ := out
      simp only [PathPaymentTool.executeOn, hprepare, applied_iff]
      refine ⟨fun h input' sendAsset' destAsset' path' operation heq => ?_,
        fun h operation => h input sendAsset destAsset path operation rfl⟩
      cases heq
      exact h operation

/-- The first attempt is applied but times out; the other two find the number used up, and the
payment is rebuilt and applied again. Or the number is one too high at first: the copy that has
timed out is still on its way when the rebuilt payment is applied, and finds its number the next. -/
theorem payment_applied_twice :
    let sdk : Sdk := ⟨fun _ => true, fun _ _ => .ok (), fun _ _ _ => .ok (),
      fun _ _ _ _ _ _ => .ok (),
    fun _ => ""⟩
    let raw : RawPayment := ⟨some "GBBD47IF6LWK7P7MDEVSCWR7DPUWV3NY3DTQEVFL4NAT4AQH3ZLLFLA5",
      some "10", none, none, none, none⟩
    let fate : Fate := .applied ⟨some "hash", some 42⟩
    let timeout : Fault :=
      .error "Transaction Timeout: request did not complete within 30000ms"
    let attempts way : ℕ → Attempt := fun k => ⟨false, [], if k = 1 then way else .answered fate⟩
    let unnoticed : Network := ⟨.ok 100, ⟨none, attempts (.lost fate timeout)⟩, .ok 101,
      ⟨none, attempts (.answered fate)⟩, []⟩
    let late : Network := ⟨.ok 101, ⟨none, attempts (.late timeout)⟩, .ok 100,
      ⟨none, attempts (.answered fate)⟩, [.copy 0 fate]⟩
    (applied unnoticed (StellarPaymentTool.executeOn sdk "GAGENT" raw (unnoticed.connection 3)
        (sent ⟨100, []⟩))).length = 2 ∧
      (applied late (StellarPaymentTool.executeOn sdk "GAGENT" raw (late.connection 3)
        (sent ⟨100, []⟩))).length = 2 := by
  decide +kernel

end PayFi.Tools.DoublePayment
