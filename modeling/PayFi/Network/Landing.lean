import PayFi.Library.Parties
import PayFi.Library.Words
import PayFi.Network.Submission

namespace PayFi.Network.Landing

open Library.Parties Library.Retry Submission

/-- A copy of an envelope at the ledger: the account's sequence number that it has found there,
and what becomes of it if its own number is the next. -/
structure Delivery (Op : Type) where
  found : ℤ
  tx : Transaction Op
  fate : Fate

/-- The ledger, with the copies that are still on their way to it, and those that have come. -/
structure Wire (Op : Type) where
  ledger : Ledger Op
  onTheWay : List (Transaction Op)
  delivered : List (Delivery Op)

/-- What reaches the ledger: another transaction of the account, or a copy on its way. -/
inductive Arrival where
  | other
  | copy (i : ℕ) (fate : Fate)

/-- How a copy fares once it is sent: its answer comes back, or gets lost, or the client has
given up on it while it is still on its way. -/
inductive Way where
  | answered (fate : Fate)
  | lost (fate : Fate) (e : Fault)
  | late (e : Fault)

/-- What an attempt meets, from the end of the last one on. -/
structure Attempt where
  throttled : Bool
  before : List Arrival
  way : Way

structure Script where
  refused : Option Fault
  attempts : ℕ → Attempt

variable {Op : Type}

def sent (l : Ledger Op) : Wire Op := ⟨l, [], []⟩

def deliver (tx : Transaction Op) (fate : Fate) (w : Wire Op) :
    Except Fault SubmitResult × Wire Op :=
  let (answer, l) := reach tx w.ledger fate
  (answer, ⟨l, w.onTheWay, w.delivered ++ [⟨w.ledger.sequence, tx, fate⟩]⟩)

def arrive (w : Wire Op) : Arrival → Wire Op
  | .other => { w with ledger := { w.ledger with sequence := w.ledger.sequence + 1 } }
  | .copy i fate =>
    match w.onTheWay[i]? with
    | none => w
    | some tx => (deliver tx fate { w with onTheWay := w.onTheWay.eraseIdx i }).2

def arrivals (w : Wire Op) (as : List Arrival) : Wire Op := as.foldl arrive w

def send (tx : Transaction Op) (a : Attempt) (w : Wire Op) :
    Except Fault SubmitResult × Wire Op :=
  let w := arrivals w a.before
  match a.way with
  | .answered fate => deliver tx fate w
  | .lost fate e => (.error e, (deliver tx fate w).2)
  | .late e => (.error e, { w with onTheWay := w.onTheWay ++ [tx] })

def attempts (s : Script) (tx : Transaction Op) (k : ℕ) (w : Wire Op) :
    Except Fault SubmitResult × Wire Op :=
  attempt (fun k => (s.attempts k).throttled) (fun k => send tx (s.attempts k)) k w

def submitTransaction (retries : ℕ) (s : Script) (tx : Transaction Op) (w : Wire Op) :
    Except Fault SubmitResult × Wire Op :=
  match s.refused with
  | some e => (.error e, w)
  | none =>
    withRetry retries (fun k => (s.attempts k).throttled) (fun k => send tx (s.attempts k)) w

def Makes (retries : ℕ) (s : Script) (tx : Transaction Op) (w : Wire Op) (n : ℕ) : Prop :=
  match s.refused with
  | some _ => n = 0
  | none => Made fatal (attempts s tx) w retries n

/-- What the client is left with is an error about the sequence number: it comes before the
first attempt, or it answers the last one and is not taken for a rate limit. -/
def Blames (s : Script) (tx : Transaction Op) (w : Wire Op) (n : ℕ) : Prop :=
  match s.refused, lastAnswer (attempts s tx) w n with
  | some e, _ => includes e.message "tx_bad_seq" = true
  | none, some (.error e) => includes e.message "tx_bad_seq" = true ∧
    (fatal e = true ∨ includes e.message "429" = false)
  | none, _ => False

def Lands (w : Wire Op) (tx : Transaction Op) : Prop :=
  ∃ d ∈ w.delivered, d.tx = tx ∧ tx.sequence = d.found + 1 ∧ ∃ result, d.fate = .applied result

def Delivery.applied (d : Delivery Op) : Option (Transaction Op) :=
  match d.fate with
  | .applied _ => if d.tx.sequence = d.found + 1 then some d.tx else none
  | _ => none

def landed (ds : List (Delivery Op)) : List (Transaction Op) := ds.filterMap Delivery.applied

/-- The ledger has applied what has landed, each under a number of its own; and nothing but
`txs` is on its way or has come. -/
structure Accounted (txs : List (Transaction Op)) (l₀ : Ledger Op) (w : Wire Op) : Prop where
  applied : w.ledger.applied = l₀.applied ++ landed w.delivered
  increasing : ((landed w.delivered).map Transaction.sequence).Pairwise (· < ·)
  used : ∀ tx ∈ landed w.delivered, tx.sequence ≤ w.ledger.sequence
  underway : ∀ tx ∈ w.onTheWay, tx ∈ txs
  known : ∀ d ∈ w.delivered, d.tx ∈ txs

variable {txs : List (Transaction Op)} {l₀ l : Ledger Op} {w : Wire Op} {tx : Transaction Op}

theorem landed_concat (ds : List (Delivery Op)) (d : Delivery Op) :
    landed (ds ++ [d]) = landed ds ++ d.applied.toList := by
  rw [landed, List.filterMap_append]
  cases hd : d.applied with
  | none => rw [List.filterMap_cons_none hd]; rfl
  | some tx => rw [List.filterMap_cons_some hd]; rfl

theorem sent_accounted (txs : List (Transaction Op)) (l : Ledger Op) : Accounted txs l (sent l) :=
  ⟨(List.append_nil _).symm, .nil, List.forall_mem_nil _, List.forall_mem_nil _,
    List.forall_mem_nil _⟩

theorem Accounted.mono {txs' : List (Transaction Op)} (h : Accounted txs l₀ w)
    (hsub : txs ⊆ txs') : Accounted txs' l₀ w :=
  ⟨h.applied, h.increasing, h.used, fun tx htx => hsub (h.underway tx htx),
    fun d hd => hsub (h.known d hd)⟩

theorem applied_eq_some {d : Delivery Op} :
    d.applied = some tx ↔
      d.tx = tx ∧ tx.sequence = d.found + 1 ∧ ∃ result, d.fate = .applied result := by
  obtain ⟨found, tx', fate⟩ := d
  cases fate with
  | applied result =>
    by_cases hnext : tx'.sequence = found + 1
    · simp only [Delivery.applied, if_pos hnext, Option.some.injEq]
      exact ⟨fun h => ⟨h, h ▸ hnext, result, rfl⟩, fun h => h.1⟩
    · simp only [Delivery.applied, if_neg hnext]
      refine ⟨nofun, ?_⟩
      rintro ⟨rfl, hsequence, -⟩
      exact absurd hsequence hnext
  | failed e => exact ⟨nofun, fun ⟨_, _, _, h⟩ => by cases h⟩
  | dropped e => exact ⟨nofun, fun ⟨_, _, _, h⟩ => by cases h⟩

theorem lands_iff : Lands w tx ↔ tx ∈ landed w.delivered := by
  simp only [Lands, landed, List.mem_filterMap, applied_eq_some]

theorem reach_cases (tx : Transaction Op) (l : Ledger Op) (fate : Fate) :
    ((⟨l.sequence, tx, fate⟩ : Delivery Op).applied = some tx ∧ tx.sequence = l.sequence + 1 ∧
        (reach tx l fate).2 = ⟨tx.sequence, l.applied ++ [tx]⟩) ∨
      ((⟨l.sequence, tx, fate⟩ : Delivery Op).applied = none ∧
        (reach tx l fate).2.applied = l.applied ∧ l.sequence ≤ (reach tx l fate).2.sequence) := by
  by_cases hnext : tx.sequence = l.sequence + 1
  · simp only [reach, if_pos hnext]
    cases fate with
    | applied result => exact .inl ⟨if_pos hnext, hnext, rfl⟩
    | failed e => exact .inr ⟨rfl, rfl, by simp only [apply]; omega⟩
    | dropped e => exact .inr ⟨rfl, rfl, Int.le_refl _⟩
  · simp only [reach, if_neg hnext]
    cases fate with
    | applied result => exact .inr ⟨if_neg hnext, trivial, Int.le_refl _⟩
    | failed e => exact .inr ⟨rfl, trivial, Int.le_refl _⟩
    | dropped e => exact .inr ⟨rfl, trivial, Int.le_refl _⟩

theorem deliver_accounted (h : Accounted txs l₀ w) (htx : tx ∈ txs) (fate : Fate) :
    Accounted txs l₀ (deliver tx fate w).2 := by
  have hknown : ∀ d ∈ (deliver tx fate w).2.delivered, d.tx ∈ txs := forall_mem_concat h.known htx
  have hlanded : landed (deliver tx fate w).2.delivered = landed w.delivered ++
      (⟨w.ledger.sequence, tx, fate⟩ : Delivery Op).applied.toList := landed_concat ..
  have hledger : (deliver tx fate w).2.ledger = (reach tx w.ledger fate).2 := rfl
  obtain ⟨happlied, hnext, hreach⟩ | ⟨happlied, hsame, hle⟩ := reach_cases tx w.ledger fate
  · rw [happlied, Option.toList_some] at hlanded
    refine ⟨?_, ?_, ?_, h.underway, hknown⟩
    · rw [hlanded, hledger, hreach, h.applied, List.append_assoc]
    · rw [hlanded, List.map_append]
      refine pairwise_concat h.increasing fun n hn => ?_
      obtain ⟨tx', htx', rfl⟩ := List.mem_map.mp hn
      have hused := h.used tx' htx'
      omega
    · rw [hlanded, hledger, hreach]
      refine forall_mem_concat (fun tx' htx' => ?_) (Int.le_refl _)
      have hused := h.used tx' htx'
      simp only
      omega
  · rw [happlied, Option.toList_none, List.append_nil] at hlanded
    refine ⟨?_, ?_, ?_, h.underway, hknown⟩
    · rw [hlanded, hledger, hsame, h.applied]
    · rw [hlanded]
      exact h.increasing
    · rw [hlanded, hledger]
      exact fun tx' htx' => Int.le_trans (h.used tx' htx') hle

theorem arrive_accounted (h : Accounted txs l₀ w) (a : Arrival) :
    Accounted txs l₀ (arrive w a) := by
  cases a with
  | other =>
    refine ⟨h.applied, h.increasing, fun tx htx => ?_, h.underway, h.known⟩
    have hused := h.used tx htx
    simp only [arrive]
    omega
  | copy i fate =>
    rw [arrive]
    split
    · exact h
    · rename_i tx htx
      refine deliver_accounted ?_ (h.underway tx (List.mem_of_getElem? htx)) fate
      exact ⟨h.applied, h.increasing, h.used,
        fun tx' htx' => h.underway tx' (List.mem_of_mem_eraseIdx htx'), h.known⟩

theorem arrivals_accounted (h : Accounted txs l₀ w) (as : List Arrival) :
    Accounted txs l₀ (arrivals w as) := by
  induction as generalizing w with
  | nil => exact h
  | cons a as ih => exact ih (arrive_accounted h a)

theorem attempts_accounted (s : Script) (h : Accounted txs l₀ w) (htx : tx ∈ txs) (k : ℕ) :
    Accounted txs l₀ (attempts s tx k w).2 := by
  have harrived := arrivals_accounted h (s.attempts k).before
  rw [attempts, attempt]
  split
  · exact h
  · rw [send]
    split
    · exact deliver_accounted harrived htx _
    · exact deliver_accounted harrived htx _
    · exact ⟨harrived.applied, harrived.increasing, harrived.used,
        forall_mem_concat harrived.underway htx, harrived.known⟩

theorem states_accounted (s : Script) (h : Accounted txs l₀ w) (htx : tx ∈ txs) (n : ℕ) :
    Accounted txs l₀ (states (attempts s tx) w n) := by
  induction n with
  | zero => exact h
  | succ n ih => exact attempts_accounted s ih htx (n + 1)

theorem includes_exhausted (retries : ℕ) (message : String) :
    includes ("RPC call failed after " ++ toString retries ++ " attempt(s): " ++ message)
      "tx_bad_seq" = includes message "tx_bad_seq" := by
  have htext : ("RPC call failed after " ++ toString retries ++ " attempt(s): " ++ message).toList =
      ("RPC call failed after ".toList ++ Nat.toDigits 10 retries ++ " attempt(s):".toList) ++
        ' ' :: message.toList := by
    have hdigits : (toString retries).toList = Nat.toDigits 10 retries := String.toList_ofList
    simp only [String.toList_append, List.append_assoc, hdigits]
    rfl
  rw [includes, includes, htext, decide_eq_decide]
  refine ⟨fun h => ?_, fun h => h.trans ?_⟩
  · refine (Library.Words.infix_split h (by decide)).resolve_left fun hprefix => ?_
    have hmem := hprefix.subset (show '_' ∈ "tx_bad_seq".toList by decide)
    simp only [List.mem_append] at hmem
    obtain (hmem | hmem) | hmem := hmem
    · exact absurd hmem (by decide)
    · exact Nat.underscore_not_in_toDigits hmem
    · exact absurd hmem (by decide)
  · exact (List.suffix_append_of_suffix (List.suffix_cons ..)).isInfix

theorem includes_noteError (e : Fault) : includes (noteError e).message "tx_bad_seq" = true ↔
    includes e.message "tx_bad_seq" = true ∧ includes e.message "429" = false := by
  cases hlimit : includes e.message "429" with
  | true =>
    rw [noteError, if_pos hlimit]
    exact iff_of_false (by decide) fun h => absurd h.2 (by decide)
  | false =>
    rw [noteError, if_neg (by simp [hlimit])]
    exact (and_iff_left rfl).symm

theorem error_iff {α : Type} {e : Fault} {P : Fault → Prop} :
    (∃ e', (.error e : Except Fault α) = .error e' ∧ P e') ↔ P e := by
  refine ⟨?_, fun h => ⟨e, rfl, h⟩⟩
  rintro ⟨e', he, h⟩
  obtain rfl := Except.error.inj he
  exact h

theorem includes_stellarRPC (retries : ℕ) (message : String) :
    includes (Fault.stellarRPC ("RPC call failed after " ++ toString retries ++ " attempt(s): " ++
      message)).message "tx_bad_seq" = includes message "tx_bad_seq" :=
  includes_exhausted retries message

theorem report_error_iff (retries : ℕ) (e : Fault) :
    (∃ e', report retries (some (.error e : Except Fault SubmitResult)) = .error e' ∧
        includes e'.message "tx_bad_seq" = true) ↔
      includes e.message "tx_bad_seq" = true ∧
        (fatal e = true ∨ includes e.message "429" = false) := by
  cases hfatal : fatal e with
  | true =>
    rw [report, if_pos hfatal, error_iff]
    exact (and_iff_left (.inl rfl)).symm
  | false =>
    rw [report, if_neg (by rw [hfatal]; exact Bool.false_ne_true), error_iff, includes_stellarRPC,
      includes_noteError, or_iff_right Bool.false_ne_true]

/-- A submission leaves the wire as its attempts do, and the client with an error about the
sequence number exactly when their answers say so. -/
theorem submitTransaction_spec (retries : ℕ) (s : Script) (tx : Transaction Op) (w : Wire Op) :
    ∃ n, Makes retries s tx w n ∧
      (submitTransaction retries s tx w).2 = states (attempts s tx) w n ∧
      ((∃ e, (submitTransaction retries s tx w).1 = .error e ∧
        includes e.message "tx_bad_seq" = true) ↔ Blames s tx w n) := by
  cases hrefused : s.refused with
  | some e =>
    refine ⟨0, ?_, ?_, ?_⟩
    · simp only [Makes, hrefused]
    · simp only [submitTransaction, hrefused]
      rfl
    · simp [submitTransaction, Blames, hrefused]
  | none =>
    obtain ⟨n, hmade, hretry⟩ := withRetry_report retries (fun k => (s.attempts k).throttled)
      (fun k => send tx (s.attempts k)) w
    have hsubmit : submitTransaction retries s tx w =
        (report retries (lastAnswer (attempts s tx) w n), states (attempts s tx) w n) := by
      simp only [submitTransaction, hrefused]
      exact hretry
    refine ⟨n, ?_, by rw [hsubmit], ?_⟩
    · simp only [Makes, hrefused]
      exact hmade
    · rw [hsubmit]
      simp only [Blames, hrefused]
      cases lastAnswer (attempts s tx) w n with
      | none =>
        rw [report, error_iff, includes_stellarRPC]
        exact iff_of_false (by decide) id
      | some out =>
        cases out with
        | ok result =>
          refine iff_of_false ?_ id
          rintro ⟨e, he, -⟩
          cases he
        | error e => exact report_error_iff retries e

theorem Accounted.length_le_iff {tx' : Transaction Op} (h : Accounted [tx, tx'] l₀ w) :
    w.ledger.applied.length ≤ l₀.applied.length + 1 ↔
      ¬(tx.sequence ≠ tx'.sequence ∧ Lands w tx ∧ Lands w tx') := by
  rw [h.applied, List.length_append, Nat.add_le_add_iff_left, lands_iff, lands_iff]
  have hmem : ∀ t ∈ landed w.delivered, t = tx ∨ t = tx' := by
    intro t ht
    obtain ⟨d, hd, hdt⟩ := List.mem_filterMap.mp ht
    have hknown := h.known d hd
    rw [(applied_eq_some.mp hdt).1] at hknown
    simpa using hknown
  have hincreasing := h.increasing
  cases hlanded : landed w.delivered with
  | nil => simp
  | cons t ts =>
    cases ts with
    | nil =>
      simp only [List.length_singleton, Nat.le_refl, List.mem_singleton, true_iff]
      rintro ⟨hne, rfl, rfl⟩
      exact hne rfl
    | cons t' ts =>
      -- two numbers have been used, so these are the two envelopes
      rw [hlanded] at hmem hincreasing
      have hlt : t.sequence < t'.sequence := by
        simp only [List.map_cons, List.pairwise_cons, List.forall_mem_cons] at hincreasing
        exact hincreasing.1.1
      have hfirst := hmem t List.mem_cons_self
      have hsecond := hmem t' (List.mem_cons_of_mem _ List.mem_cons_self)
      refine iff_of_false (by simp) fun hnot => hnot ?_
      obtain rfl | rfl := hfirst
      · obtain rfl | rfl := hsecond
        · exact absurd hlt (Int.lt_irrefl _)
        · exact ⟨Int.ne_of_lt hlt, by simp, by simp⟩
      · obtain rfl | rfl := hsecond
        · exact ⟨(Int.ne_of_lt hlt).symm, by simp, by simp⟩
        · exact absurd hlt (Int.lt_irrefl _)

theorem Accounted.length_le (h : Accounted [tx] l₀ w) :
    w.ledger.applied.length ≤ l₀.applied.length + 1 :=
  (h.mono (List.subset_append_left [tx] [tx])).length_le_iff.mpr fun hnot => hnot.1 rfl

theorem Makes.unique {retries n m : ℕ} {s : Script} (h : Makes retries s tx w n)
    (h' : Makes retries s tx w m) : n = m := by
  cases hrefused : s.refused with
  | some e =>
    simp only [Makes, hrefused] at h h'
    exact h.trans h'.symm
  | none =>
    simp only [Makes, hrefused] at h h'
    exact h.unique h'

end PayFi.Network.Landing
