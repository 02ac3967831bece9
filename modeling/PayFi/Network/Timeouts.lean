import Mathlib.Algebra.BigOperators.Intervals
import Mathlib.Tactic.IntervalCases
import PayFi.Network.Retries

namespace PayFi.Network.Timeouts

open Agent.Errors Library.Jitter Retries

/-- The variables of the environment that retries depend on, as the schema admits them. -/
structure RawEnv where
  maxRetries : ℕ
  retryDelayMs : ℕ
  rpcTimeoutMs : Option ℕ
  maxRetries_pos : 1 ≤ maxRetries
  maxRetries_le : maxRetries ≤ 10
  retryDelayMs_ge : 100 ≤ retryDelayMs
  rpcTimeoutMs_ge : ∀ ms ∈ rpcTimeoutMs, 100 ≤ ms

def rpcTimeoutMs (raw : RawEnv) : ℕ :=
  raw.rpcTimeoutMs.getD (raw.retryDelayMs * raw.maxRetries * 2)

/-- How `loadAccount` calls `withRetry`. -/
def options (raw : RawEnv) : Options :=
  ⟨raw.maxRetries, raw.retryDelayMs, 30000, defaultIsRetryable⟩

def sleepMs : Event → ℚ
  | .sleep ms => ms
  | _ => 0

/-- The time that a run sleeps, all of it before its last attempt. -/
def slept (events : List Event) : ℚ := (events.map sleepMs).sum

variable {α : Type}

/-- Every attempt fails at once, with an error that is retryable. -/
def Failing (s : Script α) : Prop :=
  ∀ k, ∃ err, s.fn k = .error err ∧ defaultIsRetryable err = true

/-- The last attempt comes before the timeout, and before the timer that waits for it fires. -/
def InTime (raw : RawEnv) (s : Script α) : Prop :=
  slept (withRetry (options raw) s).2 < rpcTimeoutMs raw ∧
    slept (withRetry (options raw) s).2 < Backoff.timerDelay (rpcTimeoutMs raw)

/-- The least base delay with which the cap on the delays makes up for their growth. -/
def leastDelay : ℕ → ℕ
  | 4 => 8182
  | 5 => 11250
  | 6 => 12858
  | 7 => 13847
  | 8 => 14517
  | 9 => 15000
  | 10 => 15320
  | _ => 0

variable {o : Options} {s : Script α} {attempt n : ℕ} {lastErr : Option Failure} {raw : RawEnv}

def total (o : Options) (random : ℕ → Set.Ico (0 : ℚ) 1) (attempt : ℕ) : ℚ :=
  ∑ k ∈ Finset.Ico attempt o.retries, delay o (random k) k

theorem slept_append (xs ys : List Event) : slept (xs ++ ys) = slept xs + slept ys := by
  rw [slept, List.map_append, List.sum_append]
  rfl

theorem delay_nonneg (o : Options) (random : Set.Ico (0 : ℚ) 1) (attempt : ℕ) :
    0 ≤ delay o random attempt :=
  (NNRat.coe_nonneg _).trans (delay_bounds o random attempt).1

theorem total_nonneg (o : Options) (random : ℕ → Set.Ico (0 : ℚ) 1) (attempt : ℕ) :
    0 ≤ total o random attempt :=
  Finset.sum_nonneg fun k _ => delay_nonneg o (random k) k

def due (o : Options) (random : ℕ → Set.Ico (0 : ℚ) 1) (attempt : ℕ) : ℚ :=
  if attempt < o.retries then delay o (random attempt) attempt else 0

theorem due_nonneg (o : Options) (random : ℕ → Set.Ico (0 : ℚ) 1) (attempt : ℕ) :
    0 ≤ due o random attempt := by
  rw [due]
  split
  · exact delay_nonneg ..
  · exact le_rfl

theorem due_add_total (o : Options) (random : ℕ → Set.Ico (0 : ℚ) 1) (attempt : ℕ) :
    due o random attempt + total o random (attempt + 1) = total o random attempt := by
  by_cases hmore : attempt < o.retries
  · rw [due, if_pos hmore]
    exact (Finset.sum_eq_sum_Ico_succ_bot hmore fun k => delay o (random k) k).symm
  · rw [due, if_neg hmore, total, total, Finset.Ico_eq_empty (by omega),
      Finset.Ico_eq_empty (by omega), zero_add]

theorem slept_calls (pause : ℕ → ℚ) (attempt n : ℕ) :
    slept (calls pause attempt n) = ∑ k ∈ Finset.Ico attempt (attempt + n), pause k := by
  induction n generalizing attempt with
  | zero => simp [calls, slept, sleepMs]
  | succ n ih =>
    rw [Finset.sum_eq_sum_Ico_succ_bot (by omega), ← Nat.add_assoc, Nat.add_right_comm, ← ih]
    simp [calls, slept, sleepMs]

theorem slept_tryCall : slept (tryCall s attempt).2 = 0 := by
  rw [tryCall]
  split <;> simp [slept, sleepMs]

theorem slept_detectLimit (attempt : ℕ) (err : Failure) :
    slept (detectLimit attempt err).2 = 0 := by
  unfold detectLimit
  split
  · split
    · split <;> simp [slept, sleepMs]
    · rfl
  · rfl

theorem slept_handleError_le (o : Options) (s : Script α) (attempt : ℕ) (err : Failure) :
    slept (handleError o s attempt err).2 ≤ due o s.random attempt := by
  have hdetect := slept_detectLimit attempt err
  have hnone := hdetect.le.trans (due_nonneg o s.random attempt)
  rw [handleError]
  split
  · rename_i hlimit
    rwa [hlimit] at hnone
  · rename_i hlimit
    rw [hlimit] at hdetect hnone
    by_cases hfatal : (!o.isRetryable err && !isRateLimitError err) = true
    · rwa [if_pos hfatal]
    · by_cases hmessage : (!err.hasMessage) = true
      · rwa [if_neg hfatal, if_pos hmessage]
      · rw [if_neg hfatal, if_neg hmessage]
        by_cases hmore : attempt < o.retries
        · rw [if_pos hmore, slept_append, hdetect, due, if_pos hmore]
          simp [slept, sleepMs]
        · rwa [if_neg hmore]

theorem slept_loop_le (o : Options) (s : Script α) (n attempt : ℕ) (lastErr : Option Failure) :
    slept (loop o s n attempt lastErr).2 ≤ total o s.random attempt := by
  induction n generalizing attempt lastErr with
  | zero => exact total_nonneg ..
  | succ n ih =>
    obtain ⟨rest, hevents, hrest⟩ := loop_events o s n attempt lastErr
    have hlater : slept rest ≤ total o s.random (attempt + 1) := by
      obtain rfl | ⟨lastErr, rfl⟩ := hrest
      · exact total_nonneg ..
      · exact ih ..
    have hhere : slept (caught o s attempt) ≤ due o s.random attempt := by
      rw [caught]
      split
      · exact due_nonneg ..
      · exact slept_handleError_le ..
    rw [hevents, slept_append, slept_append, slept_tryCall, zero_add, ← due_add_total]
    exact add_le_add hhere hlater

theorem slept_withRetry (hretries : 1 ≤ o.retries) (hidle : ∀ k, s.isThrottled k = false)
    (hfails : ∀ k, ∃ err, s.fn k = .error err ∧ Plain err ∧ o.isRetryable err = true) :
    slept (withRetry o s).2 = total o s.random 1 := by
  have hplain : ∀ k err, s.fn k = .error err → Plain err := by
    intro k err herr
    obtain ⟨err', herr', hplain, -⟩ := hfails k
    rw [herr] at herr'
    cases herr'
    exact hplain
  obtain ⟨n, hn, -, hevents, hends⟩ := withRetry_run hretries hidle hplain
  obtain ⟨err, herr, -, hretryable⟩ := hfails (n + 1)
  have hlast : n + 1 = o.retries := by
    generalize (withRetry o s).1 = result at hends
    cases hends with
    | success h =>
      rw [herr] at h
      cases h
    | fatal h hfatal =>
      rw [herr] at h
      cases h
      rw [isRetried, hretryable] at hfatal
      cases hfatal
    | exhausted hlast => exact hlast
  rw [hevents, slept_calls, total, ← hlast, Nat.add_comm]

theorem failing_iff (bound : ℚ) (hretries : 1 ≤ o.retries)
    (hdefault : o.isRetryable = defaultIsRetryable) :
    (∀ s : Script α, Failing s → slept (withRetry o s).2 < bound) ↔
      ∀ random : ℕ → Set.Ico (0 : ℚ) 1, total o random 1 < bound := by
  constructor
  · intro h random
    let s : Script α := ⟨fun _ => .error (.error ⟨.other, "503 Service Unavailable", []⟩),
      fun _ => false, random⟩
    have hplain : Plain (.error ⟨.other, "503 Service Unavailable", []⟩) :=
      ⟨_, rfl, rfl, by decide⟩
    have hslept : slept (withRetry o s).2 = total o random 1 :=
      slept_withRetry hretries (fun _ => rfl) fun k => ⟨_, rfl, hplain, hdefault ▸ by decide⟩
    rw [← hslept]
    exact h s fun k => ⟨_, rfl, by decide⟩
  · intro h s _
    exact (slept_loop_le o s o.retries 1 none).trans_lt (h s.random)

theorem capped_options (raw : RawEnv) (k : ℕ) :
    (capped (options raw) k : ℚ) = (min (raw.retryDelayMs * 2 ^ (k - 1)) 30000 : ℕ) := by
  simp only [capped, options]
  push_cast
  rfl

theorem fits_iff {n d : ℕ} (h1 : 1 ≤ n) (h10 : n ≤ 10) (hd : 0 < d) :
    3 * ∑ k ∈ Finset.Ico 1 n, min (d * 2 ^ (k - 1)) 30000 ≤ 5 * (d * n) ↔ leastDelay n ≤ d := by
  interval_cases n <;>
    simp only [Finset.sum_Ico_succ_top, Nat.reduceLeDiff, Finset.Ico_self, Finset.sum_empty,
      leastDelay, Nat.reduceSub, Nat.reducePow] <;> omega

theorem total_of_single (random : ℕ → Set.Ico (0 : ℚ) 1) (h : o.retries = 1) :
    total o random 1 = 0 := by
  rw [total, h, Finset.Ico_self, Finset.sum_empty]

theorem hundred_le_capped (raw : RawEnv) (k : ℕ) : (100 : ℚ) ≤ capped (options raw) k := by
  have hgrow : raw.retryDelayMs * 1 ≤ raw.retryDelayMs * 2 ^ (k - 1) :=
    Nat.mul_le_mul_left _ Nat.one_le_two_pow
  have hmin : 100 ≤ min (raw.retryDelayMs * 2 ^ (k - 1)) 30000 := by
    have hge := raw.retryDelayMs_ge
    omega
  rw [capped_options]
  exact_mod_cast hmin

theorem hundred_le_total (raw : RawEnv) (random : ℕ → Set.Ico (0 : ℚ) 1)
    (h : 2 ≤ raw.maxRetries) :
    100 ≤ total (options raw) random 1 := by
  have hmore : 1 < (options raw).retries := h
  have htotal := due_add_total (options raw) random 1
  rw [due, if_pos hmore] at htotal
  have hfirst := (hundred_le_capped raw 1).trans (delay_bounds (options raw) (random 1) 1).1
  have hlater := total_nonneg (options raw) random (1 + 1)
  linarith

theorem total_lt_default_iff (h : 2 ≤ raw.maxRetries) :
    (∀ random : ℕ → Set.Ico (0 : ℚ) 1,
        total (options raw) random 1 < (raw.retryDelayMs * raw.maxRetries * 2 : ℕ)) ↔
      leastDelay raw.maxRetries ≤ raw.retryDelayMs := by
  have hsum : ∑ k ∈ Finset.Ico 1 raw.maxRetries, (capped (options raw) k : ℚ) =
      (∑ k ∈ Finset.Ico 1 raw.maxRetries, min (raw.retryDelayMs * 2 ^ (k - 1)) 30000 : ℕ) := by
    rw [Nat.cast_sum]
    exact Finset.sum_congr rfl fun k _ => capped_options raw k
  have hpos : 0 < ∑ k ∈ Finset.Ico 1 raw.maxRetries, (capped (options raw) k : ℚ) := by
    apply Finset.sum_pos
    · exact fun k _ => lt_of_lt_of_le (by norm_num) (hundred_le_capped raw k)
    · exact ⟨1, Finset.mem_Ico.mpr ⟨le_rfl, h⟩⟩
  have hd : 0 < raw.retryDelayMs := Nat.lt_of_lt_of_le (by decide) raw.retryDelayMs_ge
  rw [← fits_iff raw.maxRetries_pos raw.maxRetries_le hd]
  refine (sum_jittered_lt_iff (by norm_num) (fun k _ => NNRat.coe_nonneg _) hpos).trans ?_
  rw [hsum, ← Nat.cast_le (α := ℚ)]
  push_cast
  constructor
  · intro hle
    linarith
  · intro hle
    linarith

theorem timerDelay_default (h : rpcTimeoutMs raw ≤ 2147483647) (hpos : 1 ≤ rpcTimeoutMs raw) :
    Backoff.timerDelay (rpcTimeoutMs raw) = rpcTimeoutMs raw := by
  rw [Backoff.timerDelay, if_pos]
  omega

/-- Without `RPC_TIMEOUT_MS` the retries fit into the timeout when the base delay is large
enough for their number, and a timer can wait for the timeout. -/
theorem retries_in_time_iff (raw : RawEnv) (hunset : raw.rpcTimeoutMs = none) :
    (∀ s : Script α, Failing s → InTime raw s) ↔
      leastDelay raw.maxRetries ≤ raw.retryDelayMs ∧
        (raw.maxRetries = 1 ∨ raw.retryDelayMs * raw.maxRetries * 2 ≤ 2147483647) := by
  have htimeout : rpcTimeoutMs raw = raw.retryDelayMs * raw.maxRetries * 2 := by
    rw [rpcTimeoutMs, hunset, Option.getD_none]
  have hretries := raw.maxRetries_pos
  have hpos : 1 ≤ rpcTimeoutMs raw := by
    have hd : 0 < raw.retryDelayMs := Nat.lt_of_lt_of_le (by decide) raw.retryDelayMs_ge
    rw [htimeout]
    exact Nat.mul_pos (Nat.mul_pos hd hretries) Nat.two_pos
  rw [← htimeout]
  obtain hone | hmore := Nat.eq_or_lt_of_le hretries
  · -- a single attempt is made at once
    rw [← hone]
    refine iff_of_true (fun s _ => ?_) ⟨Nat.zero_le _, .inl rfl⟩
    have hslept := slept_loop_le (options raw) s (options raw).retries 1 none
    rw [total_of_single s.random hone.symm] at hslept
    have htimer : 0 < Backoff.timerDelay (rpcTimeoutMs raw) := by
      rw [Backoff.timerDelay]
      split <;> omega
    exact ⟨hslept.trans_lt (by exact_mod_cast hpos), hslept.trans_lt (by exact_mod_cast htimer)⟩
  · have hmany : raw.maxRetries ≠ 1 := by omega
    by_cases htimer : rpcTimeoutMs raw ≤ 2147483647
    · rw [and_iff_left (.inr htimer), ← total_lt_default_iff hmore, ← htimeout,
        ← failing_iff (α := α) _ hretries rfl]
      simp only [InTime, timerDelay_default htimer hpos, Int.cast_natCast, and_self]
    · -- the timer fires at once
      refine iff_of_false (fun h => ?_) fun h => h.2.elim hmany htimer
      have hone : Backoff.timerDelay (rpcTimeoutMs raw) = 1 := by
        rw [Backoff.timerDelay, if_neg]
        omega
      have hshort : ∀ s : Script α, Failing s → slept (withRetry (options raw) s).2 < 1 := by
        intro s hs
        have htime := (h s hs).2
        rwa [hone, Int.cast_one] at htime
      have htotal := (failing_iff 1 hretries rfl).mp hshort fun _ => noJitter
      have hhundred := hundred_le_total raw (fun _ => noJitter) hmore
      linarith

theorem retries_in_time_by_default :
    let raw : RawEnv := ⟨3, 1500, none, by decide, by decide, by decide, by simp⟩
    (∀ s : Script Unit, Failing s → InTime raw s) ↔
      leastDelay raw.maxRetries ≤ raw.retryDelayMs ∧
        (raw.maxRetries = 1 ∨ raw.retryDelayMs * raw.maxRetries * 2 ≤ 2147483647) :=
  retries_in_time_iff _ rfl

/-- Five attempts that fail at once: a second and a half asleep, even without jitter, and a
timeout of one second. -/
theorem retries_cut_off :
    let raw : RawEnv := ⟨5, 100, none, by decide, by decide, by decide, by simp⟩
    let s : Script Unit := ⟨fun _ => .error (.error ⟨.other, "503 Service Unavailable", []⟩),
      fun _ => false, fun _ => noJitter⟩
    Failing s ∧ rpcTimeoutMs raw = 1000 ∧ slept (withRetry (options raw) s).2 = 1500 ∧
      ¬ InTime raw s :=
  ⟨fun _ => ⟨_, rfl, by decide⟩, rfl, by decide +kernel, fun h => absurd h.1 (by decide +kernel)⟩

end PayFi.Network.Timeouts
