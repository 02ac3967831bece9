import PayFi.X402.NonceStore
import PayFi.X402.Respond

namespace PayFi.X402.Retention

open Library.Machine Library.Clock Library.ExpiringSet Network.Submission
open Tools.Payment Tools.Rebuilding Challenge Respond

/-- What the nonce store answers at a time. -/
def has (cfg : Config) (store : NonceStore) (nonce : String) (t : ℤ) : Option Bool :=
  (NonceStore.perform cfg store ⟨.has nonce, t⟩).1

variable {su : Setup} {cfg : Config} {retries : ℕ} {w : Wallet} {clock s t : ℤ} {p : Payment}

theorem has_eq (cfg : Config) (store : NonceStore) (nonce : String) (t : ℤ) :
    has cfg store nonce t = some (contains (pruneNonces (configuredTtlMs cfg) t store) nonce) := by
  rw [has, NonceStore.perform, NonceStore.cutoff_none, NonceStore.evict_cutoff]

/-- A recorded nonce is there unless the last pruning after a payment came more than 24 hours
after its record. -/
theorem Recorded.has (h : Recorded cfg clock w) (hp : p ∈ w.payments)
    (hs : s ∈ p.recorded) (ht : clock ≤ t) (hyoung : t - s ≤ cfg.nonceTtlMs)
    (hswept : ∀ m ∈ w.swept, m - s ≤ maxNonceTtlMs) :
    Retention.has cfg w.store p.nonce t = some true := by
  rw [has_eq, configuredTtlMs_eq]
  obtain ⟨-, ⟨e, he, hk, hle⟩ | hold | ⟨m, hm, hlt⟩⟩ := h.kept p hp s hs
  · have hcut : t - cfg.nonceTtlMs ≤ e.time := by omega
    exact congrArg some (contains_iff.mpr ⟨e, mem_prune.mpr ⟨he, hcut⟩, hk⟩)
  · omega
  · have hle := hswept m hm
    omega

theorem trace_recorded (retries : ℕ) (xs : List Exchange) (h : Recorded su.cfg clock w)
    (hclock : (clock :: xs.flatMap readings).Pairwise (· ≤ ·)) :
    ∀ u ∈ trace (step su retries) w xs, Recorded su.cfg u.action.swept u.after := by
  induction xs generalizing clock w with
  | nil => exact List.forall_mem_nil _
  | cons x xs ih =>
    rw [List.flatMap_cons] at hclock
    obtain ⟨hx, hnext⟩ := pairwise_split hclock
    have hstep : Recorded su.cfg x.swept (step su retries w x) := step_recorded h x hx
    exact List.forall_mem_cons.mpr ⟨hstep, ih hstep hnext⟩

/-- After every call the nonce of each recorded payment is reported for the configured
lifetime, if no pruning after a payment came more than 24 hours after its record. No lifetime
of at most 24 hours needs the condition. -/
theorem nonce_retained (su : Setup) (retries : ℕ) (limiter : Limiter) (store : NonceStore)
    (ledger : Ledger PaymentContent) (xs : List Exchange) (hclock : Chronological xs) :
    ∀ u ∈ trace (step su retries) (idle limiter store ledger) xs, ∀ p ∈ u.after.payments,
      ∀ s ∈ p.recorded, ∀ t, u.action.swept ≤ t → t - s ≤ su.cfg.nonceTtlMs →
        (su.cfg.nonceTtlMs ≤ maxNonceTtlMs ∨ ∀ m ∈ u.after.swept, m - s ≤ maxNonceTtlMs) →
          has su.cfg u.after.store p.nonce t = some true := by
  intro u hu p hp s hs t ht hyoung hspared
  have h := trace_recorded retries xs (idle_recorded su.cfg _ limiter store ledger)
    (pairwise_headD_cons hclock 0) u hu
  refine Recorded.has h hp hs ht hyoung fun m hm => ?_
  obtain hshort | hlate := hspared
  · have hpast := h.past m hm
    omega
  · exact hlate m hm

def lasting : Setup :=
  { sample with
    cfg := { Sample.config with nonceTtlMs := 172800000, ttl_pos := by decide }
    pf := { Sample.platform with
      sha256 := fun s => if s = "7c9e6679-7425-40de-944b-e07fc1f90ae7" then
        "6316e01c9e1d33dec091e5469b8fe3f63ae270f7471846f380d926c3454b4027"
        else Sample.platform.sha256 s
      sha256_hex := fun s => by
        split
        · decide +kernel
        · exact Sample.platform.sha256_hex s
      sha256_length := fun s => by
        split
        · decide +kernel
        · exact Sample.platform.sha256_length s } }

/-- A second challenge, paid with the next sequence number. -/
def second (now : ℤ) : Exchange :=
  { exchange now with
    raw := { Sample.challenge with nonce := some "7c9e6679-7425-40de-944b-e07fc1f90ae7" }
    net := ⟨.ok 101, ⟨none, fun _ => ⟨false, 0, .applied ⟨some "hash2", some 43⟩, none⟩⟩, .ok 102,
      ⟨none, fun _ => ⟨false, 0, .dropped badSequence, none⟩⟩⟩ }

theorem nonce_retained_beyond_a_day :
    has lasting.cfg (step lasting 3 (idle ⟨0, 0⟩ [] ⟨100, []⟩) (exchange 1785000000000)).store
      "550e8400-e29b-41d4-a716-446655440000" 1785090000000 = some true :=
  nonce_retained lasting 3 ⟨0, 0⟩ [] ⟨100, []⟩ [exchange 1785000000000] (by decide) _
    (List.mem_singleton_self _) ⟨"550e8400-e29b-41d4-a716-446655440000", some 1785000001000⟩
    (by decide +kernel) 1785000001000 rfl 1785090000000 (by decide) (by decide +kernel)
    (.inr (by decide +kernel))

/-- The payment of a second challenge after 25 hours drops the nonce of the first. -/
theorem nonce_forgotten :
    let xs := [exchange 1785000000000, second 1785090000000]
    Chronological xs ∧ ∃ u ∈ trace (step lasting 3) (idle ⟨0, 0⟩ [] ⟨100, []⟩) xs,
      ∃ p ∈ u.after.payments, ∃ s ∈ p.recorded, u.action.swept - s ≤ lasting.cfg.nonceTtlMs ∧
        has lasting.cfg u.after.store p.nonce u.action.swept = some false := by
  refine ⟨by decide, ?_⟩
  decide +kernel

end PayFi.X402.Retention
