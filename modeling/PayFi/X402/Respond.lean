import PayFi.Library.Clock
import PayFi.Library.Parties
import PayFi.Tools.Rebuilding
import PayFi.X402.Challenge

namespace PayFi.X402.Respond

open Library.Machine Library.Clock Library.ExpiringSet Library.Parties Library.Results
  Network.Submission
open Tools.Payment Tools.Rebuilding Challenge

/-- A payment that the ledger has applied, with the time at which its nonce was recorded. -/
structure Payment where
  nonce : String
  recorded : Option ℤ
  deriving DecidableEq

/-- The tool and the ledger; the payments and the time of the last pruning that followed
one are kept for the record. -/
structure Wallet where
  limiter : Limiter
  store : NonceStore
  ledger : Ledger PaymentContent
  payments : List Payment
  swept : Option ℤ

/-- What a call of `respond` meets: its challenge, the readings of the clock in their
order, the network, and the faults of the nonce store. -/
structure Exchange where
  raw : RawChallenge
  now : ℤ
  now' : ℤ
  pruned : ℤ
  lookupFault : Option Fault
  net : Network
  places : List (Option String)
  pruned' : ℤ
  recordFault : Option Fault
  inserted : ℤ
  swept : ℤ
  sweepFails : Bool
  closedAt : Option String
  iso : String

def pay (su : Setup) (retries : ℕ) (c : X402Challenge) (net : Network)
    (l : Ledger PaymentContent) : Except Fault (String × ℕ) × Ledger PaymentContent :=
  match attachment (memoOf su.pf c.nonce) with
  | .error e => (.error e, l)
  | .ok memo => StellarPaymentTool.execute retries su.sdk su.publicKey (payload c memo) net l

def Wallet.settle (w : Wallet) (l : Ledger PaymentContent) (nonce : String)
    (recorded : Option ℤ) : Wallet :=
  { w with
    ledger := l
    payments := if l.applied = w.ledger.applied then w.payments
      else w.payments ++ [⟨nonce, recorded⟩] }

/-- The store after `add`, which prunes it first. -/
def added (su : Setup) (c : X402Challenge) (x : Exchange) (s : NonceStore) : NonceStore :=
  insert (pruneNonces (configuredTtlMs su.cfg) x.pruned' s) c.nonce x.inserted

/-- `respond` from its nonce lookup on. -/
def honour (su : Setup) (retries : ℕ) (w : Wallet) (c : X402Challenge) (x : Exchange) :
    Except X402Error X402PaymentProof × Wallet :=
  let store := pruneNonces (configuredTtlMs su.cfg) x.pruned w.store
  match x.lookupFault with
  | some e => (.error (.error e.message), { w with store := store })
  | none =>
    if contains store c.nonce then (.error nonceUsed, { w with store := store })
    else
      match pay su retries c x.net w.ledger with
      | (.error e, l) =>
        (.error (paymentFailed e x.places), { w.settle l c.nonce none with store := store })
      | (.ok (txHash, _), l) =>
        match x.recordFault with
        | some e =>
          (.error (.error e.message), { w.settle l c.nonce none with
            store := pruneNonces (configuredTtlMs su.cfg) x.pruned' store })
        | none =>
          let w' := { w.settle l c.nonce (some x.inserted) with store := added su c x store }
          (.ok (proof su.cfg su.publicKey c txHash x.closedAt x.iso),
            if x.sweepFails then w' else { w' with
              store := pruneNonces maxNonceTtlMs x.swept w'.store
              swept := some x.swept })

def respond (su : Setup) (retries : ℕ) (w : Wallet) (x : Exchange) :
    Except X402Error X402PaymentProof × Wallet :=
  match admission su.cfg su.pf su.publicKey w.limiter x.raw x.now x.now' with
  | (.error e, limiter) => (.error e, { w with limiter := limiter })
  | (.ok c, limiter) => honour su retries { w with limiter := limiter } c x

def step (su : Setup) (retries : ℕ) (w : Wallet) (x : Exchange) : Wallet :=
  (respond su retries w x).2

/-- No payment yet; the nonce store may have been filled by an earlier process. -/
def idle (limiter : Limiter) (store : NonceStore) (ledger : Ledger PaymentContent) : Wallet :=
  ⟨limiter, store, ledger, [], none⟩

def readings (x : Exchange) : List ℤ := [x.now, x.now', x.pruned, x.pruned', x.inserted, x.swept]

/-- The clock never goes back. -/
def Chronological (xs : List Exchange) : Prop := (xs.flatMap readings).Pairwise (· ≤ ·)

instance (xs : List Exchange) : Decidable (Chronological xs) :=
  inferInstanceAs (Decidable ((xs.flatMap readings).Pairwise (· ≤ ·)))

/-- A challenge that has not expired and whose nonce has been paid is rejected, and
nothing is paid for it. -/
def Rejected (su : Setup) (retries : ℕ) (w : Wallet) (x : Exchange) : Prop :=
  ∀ c, x402ChallengeSchema su.cfg su.pf x.raw = .ok c → expired su.pf c x.now' = false →
    c.nonce ∈ w.payments.map Payment.nonce →
      (respond su retries w x).1.toBool = false ∧
        (respond su retries w x).2.ledger.applied = w.ledger.applied

/-- Every payment for the nonce has been recorded, no longer ago than the configured
lifetime, and was no older than 24 hours when the store was last pruned after a
payment. -/
def Remembered (su : Setup) (w : Wallet) (x : Exchange) (c : X402Challenge) : Prop :=
  ∀ p ∈ w.payments, p.nonce = c.nonce → ∃ r ∈ p.recorded,
    x.pruned - configuredTtlMs su.cfg ≤ r ∧ ∀ m ∈ w.swept, m - maxNonceTtlMs ≤ r

/-- The call does not get as far as its lookup, or the nonce is remembered. -/
def Mindful (su : Setup) (u : Transition Wallet Exchange) : Prop :=
  match (admission su.cfg su.pf su.publicKey u.before.limiter u.action.raw u.action.now
    u.action.now').1 with
  | .ok c => Remembered su u.before u.action c
  | .error _ => True

instance (su : Setup) (w : Wallet) (x : Exchange) (c : X402Challenge) :
    Decidable (Remembered su w x c) :=
  inferInstanceAs (Decidable (∀ p ∈ w.payments, p.nonce = c.nonce → ∃ r ∈ p.recorded, _))

instance (su : Setup) (u : Transition Wallet Exchange) : Decidable (Mindful su u) :=
  match h : (admission su.cfg su.pf su.publicKey u.before.limiter u.action.raw u.action.now
    u.action.now').1 with
  | .ok c => decidable_of_iff (Remembered su u.before u.action c) (by rw [Mindful, h])
  | .error _ => .isTrue (by rw [Mindful, h]; trivial)

/-- Every recorded payment is in the store since then, unless it is too old for the
store's lifetime or for the last pruning after a payment. -/
structure Recorded (cfg : Config) (clock : ℤ) (w : Wallet) : Prop where
  past : ∀ m ∈ w.swept, m ≤ clock
  kept : ∀ p ∈ w.payments, ∀ r ∈ p.recorded, r ≤ clock ∧
    ((∃ e ∈ w.store, e.key = p.nonce ∧ r ≤ e.time) ∨ r < clock - cfg.nonceTtlMs ∨
      ∃ m ∈ w.swept, r < m - maxNonceTtlMs)

variable {su : Setup} {cfg : Config} {retries : ℕ} {w : Wallet} {x : Exchange} {clock now : ℤ}
  {c : X402Challenge}

theorem idle_recorded (cfg : Config) (clock : ℤ) (limiter : Limiter) (store : NonceStore)
    (ledger : Ledger PaymentContent) : Recorded cfg clock (idle limiter store ledger) := by
  constructor <;> simp [idle]

theorem Recorded.later (h : Recorded cfg clock w) (hc : clock ≤ now) : Recorded cfg now w := by
  constructor
  · intro m hm
    exact (h.past m hm).trans hc
  · intro p hp r hr
    obtain ⟨hle, hrow | hold | hswept⟩ := h.kept p hp r hr
    · exact ⟨hle.trans hc, .inl hrow⟩
    · exact ⟨hle.trans hc, .inr (.inl (by omega))⟩
    · exact ⟨hle.trans hc, .inr (.inr hswept)⟩

theorem Recorded.limit (h : Recorded cfg clock w) (limiter : Limiter) :
    Recorded cfg clock { w with limiter := limiter } := ⟨h.past, h.kept⟩

theorem Recorded.expire (h : Recorded cfg clock w) : Recorded cfg clock
    { w with store := pruneNonces (configuredTtlMs cfg) clock w.store } := by
  refine ⟨h.past, ?_⟩
  intro p hp r hr
  obtain ⟨hle, ⟨e, he, hk, hre⟩ | hold | hswept⟩ := h.kept p hp r hr
  · refine ⟨hle, ?_⟩
    by_cases hcut : clock - configuredTtlMs cfg ≤ e.time
    · exact .inl ⟨e, mem_prune.mpr ⟨he, hcut⟩, hk, hre⟩
    · rw [configuredTtlMs_eq] at hcut
      exact .inr (.inl (by omega))
  · exact ⟨hle, .inr (.inl hold)⟩
  · exact ⟨hle, .inr (.inr hswept)⟩

theorem Recorded.sweep (h : Recorded cfg clock w) : Recorded cfg clock
    { w with store := pruneNonces maxNonceTtlMs clock w.store, swept := some clock } := by
  constructor
  · intro m hm
    cases hm
    exact le_rfl
  · intro p hp r hr
    obtain ⟨hle, ⟨e, he, hk, hre⟩ | hold | ⟨m, hm, hlt⟩⟩ := h.kept p hp r hr
    · refine ⟨hle, ?_⟩
      by_cases hcut : clock - maxNonceTtlMs ≤ e.time
      · exact .inl ⟨e, mem_prune.mpr ⟨he, hcut⟩, hk, hre⟩
      · exact .inr (.inr ⟨clock, rfl, by omega⟩)
    · exact ⟨hle, .inr (.inl hold)⟩
    · have hm := h.past m hm
      exact ⟨hle, .inr (.inr ⟨clock, rfl, by omega⟩)⟩

theorem Recorded.insert (h : Recorded cfg clock w) (nonce : String) : Recorded cfg clock
    { w with store := insert w.store nonce clock } := by
  refine ⟨h.past, ?_⟩
  intro p hp r hr
  obtain ⟨hle, ⟨e, he, hk, hre⟩ | hrest⟩ := h.kept p hp r hr
  · exact ⟨hle, .inl ⟨e, mem_insert_of_mem he, hk, hre⟩⟩
  · exact ⟨hle, .inr hrest⟩

theorem Recorded.settle (h : Recorded cfg clock w) (l : Ledger PaymentContent) {nonce : String}
    {recorded : Option ℤ} (hrow : ∀ r ∈ recorded, r ≤ clock ∧ ∃ e ∈ w.store, e.key = nonce ∧
      r ≤ e.time) : Recorded cfg clock (w.settle l nonce recorded) := by
  refine ⟨h.past, ?_⟩
  unfold Wallet.settle
  by_cases happlied : l.applied = w.ledger.applied
  · simp only [happlied, if_true]
    exact h.kept
  · simp only [happlied, if_false]
    apply forall_mem_concat h.kept
    intro r hr
    obtain ⟨hle, hrow⟩ := hrow r hr
    exact ⟨hle, .inl hrow⟩

theorem added_recorded (h : Recorded su.cfg x.pruned w) (hc : x.pruned ≤ x.pruned')
    (hc' : x.pruned' ≤ x.inserted) (habsent : contains w.store c.nonce = false)
    (l : Ledger PaymentContent) : Recorded su.cfg x.inserted
      { w.settle l c.nonce (some x.inserted) with store := added su c x w.store } := by
  have hin : (⟨c.nonce, x.inserted⟩ : Entry String ℤ) ∈ added su c x w.store := by
    rw [added, pruneNonces, insert_of_absent (contains_prune habsent _)]
    exact List.mem_append_right _ (List.mem_singleton_self _)
  apply (((h.later hc).expire.later hc').insert c.nonce).settle l
  intro r hr
  cases hr
  exact ⟨le_rfl, _, hin, rfl, le_rfl⟩

theorem honour_recorded (h : Recorded su.cfg clock w) (hclock : clock ≤ x.pruned)
    (hc : x.pruned ≤ x.pruned') (hc' : x.pruned' ≤ x.inserted) (hc'' : x.inserted ≤ x.swept) :
    Recorded su.cfg x.swept (honour su retries w c x).2 := by
  have hlate : x.pruned ≤ x.swept := by omega
  have hpruned := (h.later hclock).expire
  unfold honour
  dsimp only
  split
  · exact hpruned.later hlate
  · split
    · exact hpruned.later hlate
    · rename_i habsent
      rw [Bool.not_eq_true] at habsent
      split
      · rename_i l _
        exact (hpruned.settle l (by simp)).later hlate
      · rename_i l _
        split
        · exact ((hpruned.later hc).expire.settle l (by simp)).later (by omega)
        · have hadded := added_recorded (c := c) hpruned hc hc' habsent l
          dsimp only
          split
          · exact hadded.later hc''
          · exact (hadded.later hc'').sweep

theorem step_recorded (h : Recorded su.cfg clock w) (x : Exchange)
    (hclock : (clock :: readings x).Pairwise (· ≤ ·)) :
    Recorded su.cfg x.swept (step su retries w x) := by
  simp only [readings, List.pairwise_cons, List.mem_cons] at hclock
  obtain ⟨hfirst, -, -, hpruned, hpruned', hinserted, -⟩ := hclock
  unfold step respond
  split
  · rename_i limiter _
    exact (h.limit limiter).later (hfirst x.swept (by simp))
  · rename_i limiter _
    apply honour_recorded (h.limit limiter)
    · exact hfirst x.pruned (by simp)
    · exact hpruned x.pruned' (by simp)
    · exact hpruned' x.inserted (by simp)
    · exact hinserted x.swept (by simp)

theorem honour_rejected (h : Recorded su.cfg clock w) (hclock : clock ≤ x.pruned)
    (hrem : Remembered su w x c) (hpaid : c.nonce ∈ w.payments.map Payment.nonce) :
    (honour su retries w c x).1.toBool = false ∧
      (honour su retries w c x).2.ledger = w.ledger := by
  obtain ⟨p, hp, hn⟩ := List.mem_map.mp hpaid
  obtain ⟨r, hr, hyoung, hswept⟩ := hrem p hp hn
  have hfound : contains (pruneNonces (configuredTtlMs su.cfg) x.pruned w.store) c.nonce =
      true := by
    obtain ⟨-, ⟨e, he, hk, hre⟩ | hold | ⟨m, hm, hlt⟩⟩ := h.kept p hp r hr
    · exact contains_iff.mpr ⟨e, mem_prune.mpr ⟨he, hyoung.trans hre⟩, hk.trans hn⟩
    · rw [configuredTtlMs_eq] at hyoung
      omega
    · have hle := hswept m hm
      omega
  unfold honour
  dsimp only
  cases x.lookupFault with
  | some e => exact ⟨rfl, rfl⟩
  | none =>
    rw [if_pos hfound]
    exact ⟨rfl, rfl⟩

theorem validate_eq_ok {pf : Platform} {publicKey : String} {raw : RawChallenge}
    (h : validate cfg pf publicKey raw now = .ok c) : x402ChallengeSchema cfg pf raw = .ok c ∧
      c.payTo ≠ publicKey ∧ originAllowed cfg pf c.resource = true ∧ expired pf c now = false := by
  simp only [validate, bind_eq_ok, mapError_eq_ok, throwIf_eq_ok] at h
  obtain ⟨c', hschema, hpayTo, horigin, hexpired, h⟩ := h
  cases h
  refine ⟨hschema, hpayTo, ?_, ?_⟩
  · simpa using horigin
  · simpa using hexpired

theorem admission_eq_ok {pf : Platform} {publicKey : String} {l : Limiter} {raw : RawChallenge}
    {now' : ℤ} (h : (admission cfg pf publicKey l raw now now').1 = .ok c) :
    validate cfg pf publicKey raw now' = .ok c := by
  simp only [admission] at h
  split at h
  · cases h
  · exact h

theorem step_rejected (h : Recorded su.cfg clock w) (x : Exchange) (hclock : clock ≤ x.pruned)
    (hgood : Mindful su ⟨w, x, step su retries w x⟩) : Rejected su retries w x := by
  intro c hc _ hpaid
  unfold Mindful at hgood
  unfold respond
  obtain ⟨out, limiter, hout⟩ : ∃ out limiter, admission su.cfg su.pf su.publicKey w.limiter x.raw
      x.now x.now' = (out, limiter) := ⟨_, _, rfl⟩
  rw [hout] at hgood ⊢
  cases out with
  | error e => exact ⟨rfl, rfl⟩
  | ok c' =>
    have heq : c' = c := by
      have hc' := (validate_eq_ok (admission_eq_ok (congrArg Prod.fst hout))).1
      rw [hc, Except.ok.injEq] at hc'
      exact hc'.symm
    subst heq
    have hrej : _ ∧ (honour su retries _ c' x).2.ledger = _ :=
      honour_rejected (h.limit limiter) hclock hgood hpaid
    exact ⟨hrej.1, congrArg Ledger.applied hrej.2⟩

theorem pay_ok {net : Network} {l l' : Ledger PaymentContent} {receipt : String × ℕ}
    (h : pay su retries c net l = (.ok receipt, l')) :
    ∃ tx, su.built c = .ok tx.operation ∧ l'.applied.getLast? = some tx := by
  unfold pay at h
  cases hmemo : attachment (memoOf su.pf c.nonce) with
  | error e => simp [hmemo] at h
  | ok memo =>
    simp only [hmemo] at h
    obtain ⟨input, asset, tx, hprepare, hcontent, hlast⟩ := execute_ok h
    refine ⟨tx, ?_, hlast⟩
    simp only [Setup.built, Setup.prepared, hmemo, bind, Except.bind, hprepare]
    exact hcontent

theorem honour_ok {out : X402PaymentProof} {w' : Wallet}
    (h : honour su retries w c x = (.ok out, w')) : ∃ tx txHash, su.built c = .ok tx.operation ∧
      w'.ledger.applied.getLast? = some tx ∧
      out = proof su.cfg su.publicKey c txHash x.closedAt x.iso := by
  unfold honour at h
  dsimp only at h
  split at h
  · cases h
  · split at h
    · cases h
    · split at h
      · cases h
      · rename_i txHash _ l hpay
        obtain ⟨tx, hbuilt, hlast⟩ := pay_ok hpay
        split at h
        · cases h
        · simp only [Prod.mk.injEq, Except.ok.injEq] at h
          refine ⟨tx, txHash, hbuilt, ?_, h.1.symm⟩
          rw [← h.2]
          split <;> exact hlast

theorem respond_ok {out : X402PaymentProof} {w' : Wallet}
    (h : respond su retries w x = (.ok out, w')) :
    ∃ c tx txHash, x402ChallengeSchema su.cfg su.pf x.raw = .ok c ∧ su.built c = .ok tx.operation ∧
      w'.ledger.applied.getLast? = some tx ∧
      out = proof su.cfg su.publicKey c txHash x.closedAt x.iso := by
  unfold respond at h
  split at h
  · cases h
  · rename_i c limiter hadmission
    obtain ⟨tx, txHash, hrest⟩ := honour_ok h
    have hschema := (validate_eq_ok (admission_eq_ok (congrArg Prod.fst hadmission))).1
    exact ⟨c, tx, txHash, hschema, hrest⟩

theorem run_rejected (xs : List Exchange) (h : Recorded su.cfg clock w)
    (hclock : (clock :: xs.flatMap readings).Pairwise (· ≤ ·))
    (hgood : ∀ u ∈ trace (step su retries) w xs, Mindful su u) :
    ∀ u ∈ trace (step su retries) w xs, Rejected su retries u.before u.action := by
  have hstep : ∀ {clock w} x, Recorded su.cfg clock w → (clock :: readings x).Pairwise (· ≤ ·) →
      Mindful su ⟨w, x, step su retries w x⟩ →
      Recorded su.cfg ((readings x).getLastD clock) (step su retries w x) := by
    intro clock w x hw hx _
    exact step_recorded hw x hx
  intro u hu
  obtain ⟨t, ht, hx⟩ := (timed_invariant hstep xs h hclock hgood).1 u hu
  have hle : t ≤ u.action.pruned :=
    (List.pairwise_cons.mp hx).1 u.action.pruned (by simp [readings])
  exact step_rejected ht u.action hle (hgood u hu)

/-- A paid nonce is never paid again while its challenge is valid, in every run in which
each call that looks a paid nonce up does so while the store remembers it. -/
theorem replay_rejected (su : Setup) (retries : ℕ) (limiter : Limiter) (store : NonceStore)
    (ledger : Ledger PaymentContent) (xs : List Exchange) (hclock : Chronological xs)
    (hgood : ∀ u ∈ trace (step su retries) (idle limiter store ledger) xs, Mindful su u) :
    ∀ u ∈ trace (step su retries) (idle limiter store ledger) xs,
      Rejected su retries u.before u.action :=
  run_rejected xs (idle_recorded su.cfg _ limiter store ledger) (pairwise_headD_cons hclock 0) hgood

def sample : Setup := ⟨Sample.config, Sample.platform, Sample.sdk, "GAGENT"⟩

/-- A call that starts at a time, takes a second, and is paid when it gets to its payment. -/
def exchange (now : ℤ) : Exchange where
  raw := Sample.challenge
  now := now
  now' := now
  pruned := now
  lookupFault := none
  net := ⟨.ok 100, ⟨none, fun _ => ⟨false, 0, .applied ⟨some "hash", some 42⟩, none⟩⟩, .ok 101,
    ⟨none, fun _ => ⟨false, 0, .dropped badSequence, none⟩⟩⟩
  places := []
  pruned' := now + 1000
  recordFault := none
  inserted := now + 1000
  swept := now + 1000
  sweepFails := false
  closedAt := none
  iso := ""

theorem replay_rejected_within_a_day :
    let xs : List Exchange := [exchange 1785000000000, exchange 1785086400000]
    ∀ u ∈ trace (step sample 3) (idle ⟨0, 0⟩ [] ⟨100, []⟩) xs,
      Rejected sample 3 u.before u.action :=
  replay_rejected sample 3 ⟨0, 0⟩ [] ⟨100, []⟩ _ (by decide) (by decide +kernel)

/-- A challenge that is valid for more than 24 hours is paid again after 25. -/
theorem replay_paid :
    let xs : List Exchange := [exchange 1785000000000, { exchange 1785090000000 with
      net := ⟨.ok 101, ⟨none, fun _ => ⟨false, 0, .applied ⟨some "hash2", some 43⟩, none⟩⟩, .ok 102,
        ⟨none, fun _ => ⟨false, 0, .dropped badSequence, none⟩⟩⟩ }]
    Chronological xs ∧ ¬ ∀ u ∈ trace (step sample 3) (idle ⟨0, 0⟩ [] ⟨100, []⟩) xs,
      Rejected sample 3 u.before u.action := by
  intro xs
  refine ⟨by decide, fun h => ?_⟩
  have hrejected := h _ (List.mem_cons_of_mem _ List.mem_cons_self)
    ⟨"https://api.example.com/data", "1.5000000", "USDC",
      "GA5ZSEJYB37JRC5AVCIA5MOP4RHTM335X2KGX3IHOJAPP5RE34K4KZVN",
      "GBBD47IF6LWK7P7MDEVSCWR7DPUWV3NY3DTQEVFL4NAT4AQH3ZLLFLA5",
      "550e8400-e29b-41d4-a716-446655440000", "2026-08-01T00:00:00.000Z"⟩
    (by decide +kernel) (by decide) (by decide +kernel)
  exact absurd hrejected.1 (by decide +kernel)

end PayFi.X402.Respond
