import PayFi.Library.FixedWindows
import PayFi.Library.Machine
import PayFi.Library.Results
import PayFi.X402.Challenge

namespace PayFi.X402.RateLimit

open Library.FixedWindows Library.Machine Library.Results Challenge

def rateLimitExceeded : X402Error := .error "x402: rate limit exceeded"

/-- A call of `respond`, with its challenge and its first two clock readings. -/
structure Call where
  raw : RawChallenge
  now : ℤ
  now' : ℤ

/-- The limiter, and the times of the calls that have passed it. -/
structure Log where
  limiter : Limiter
  passed : List ℤ

/-- A call passes whatever comes of its challenge then. -/
def step (su : Setup) (g : Log) (c : Call) : Log :=
  let (result, limiter) := admission su.cfg su.pf su.publicKey g.limiter c.raw c.now c.now'
  ⟨limiter, if result = .error rateLimitExceeded then g.passed else g.passed ++ [c.now]⟩

/-- A new tool. -/
def opened (start : ℤ) : Log := ⟨⟨0, start⟩, []⟩

variable {su : Setup} {cfg : Config} {pf : Platform} {publicKey : String} {l : Limiter} {g : Log}
  {c : Call} {now start : ℤ} {current : List ℤ}

theorem expired_ne_rateLimitExceeded (expiresAt : String) :
    X402Error.error ("x402 challenge expired at " ++ expiresAt) ≠ rateLimitExceeded := by
  intro h
  have hstart := congrArg (fun s => s.toList.take 5) (X402Error.error.inj h)
  rw [String.toList_append, List.take_append_of_le_length (by decide)] at hstart
  exact absurd hstart (by decide)

theorem validate_ne_rateLimitExceeded (raw : RawChallenge) :
    validate cfg pf publicKey raw now ≠ .error rateLimitExceeded := by
  intro h
  simp only [validate, bind_eq_error, mapError_eq_error, throwIf_eq_error] at h
  obtain ⟨_, -, h⟩ | ⟨challenge, -, ⟨-, h⟩ | ⟨-, ⟨-, h⟩ | ⟨-, ⟨-, h⟩ | ⟨-, h⟩⟩⟩⟩ := h
  · cases h
  · exact absurd h (by decide)
  · exact absurd h (by decide)
  · exact expired_ne_rateLimitExceeded _ h
  · cases h

theorem step_eq (su : Setup) (g : Log) (c : Call) : step su g c =
    if su.cfg.maxPaymentsPerMinute ≤ (g.limiter.roll c.now).paymentCount then
      ⟨g.limiter.roll c.now, g.passed⟩
    else ⟨⟨(g.limiter.roll c.now).paymentCount + 1, (g.limiter.roll c.now).windowStart⟩,
      g.passed ++ [c.now]⟩ := by
  by_cases h : su.cfg.maxPaymentsPerMinute ≤ (g.limiter.roll c.now).paymentCount
  · rw [if_pos h, step, admission, if_pos h]
    exact congrArg _ (if_pos rfl)
  · rw [if_neg h, step, admission, if_neg h]
    exact congrArg _ (if_neg (validate_ne_rateLimitExceeded c.raw))

def counted (cfg : Config) (start : ℤ) (current : List ℤ) : Limiter :=
  ⟨(current.take cfg.maxPaymentsPerMinute).length, start⟩

theorem step_counted {earlier : List ℤ} (h : g.limiter.roll c.now = counted su.cfg start current)
    (hg : g.passed = earlier ++ current.take su.cfg.maxPaymentsPerMinute) :
    (step su g c).limiter = counted su.cfg start (current ++ [c.now]) ∧ (step su g c).passed =
      earlier ++ (current ++ [c.now]).take su.cfg.maxPaymentsPerMinute := by
  rw [step_eq, h, hg]
  by_cases hfull : su.cfg.maxPaymentsPerMinute ≤ current.length
  · rw [if_pos (by rw [counted, List.length_take_of_le hfull]), counted, counted,
      List.take_append_of_le_length hfull]
    exact ⟨rfl, rfl⟩
  · have hroom := Nat.lt_of_not_le hfull
    have hnext : (current ++ [c.now]).length ≤ su.cfg.maxPaymentsPerMinute := by
      rw [List.length_append]
      exact hroom
    rw [counted, counted, List.take_of_length_le hroom.le, List.take_of_length_le hnext,
      if_neg hfull, List.append_assoc, List.length_append]
    exact ⟨rfl, rfl⟩

theorem run_passed (cs : List Call) (earlier : List ℤ)
    (h : g.limiter = counted su.cfg start current)
    (hg : g.passed = earlier ++ current.take su.cfg.maxPaymentsPerMinute) :
    (run (step su) g cs).passed = earlier ++ (admitted rateLimitWindowMs
      su.cfg.maxPaymentsPerMinute start current (cs.map Call.now)).flatten := by
  induction cs generalizing g start current earlier with
  | nil => simpa [admitted, windows] using hg
  | cons c cs ih =>
    rw [run_cons, admitted, List.map_cons, windows]
    by_cases hr : rateLimitWindowMs ≤ c.now - start
    · have hroll : g.limiter.roll c.now = counted su.cfg c.now [] := by
        rw [h, Limiter.roll, counted, if_pos hr, counted, List.take_nil, List.length_nil]
      have hnew : g.passed = g.passed ++ List.take su.cfg.maxPaymentsPerMinute [] := by
        rw [List.take_nil, List.append_nil]
      obtain ⟨hlimiter, hpassed⟩ := step_counted hroll hnew
      rw [if_pos hr, List.map_cons, List.flatten_cons, ← List.append_assoc, ← hg]
      exact ih _ hlimiter hpassed
    · have hroll : g.limiter.roll c.now = counted su.cfg start current := by
        rw [h, Limiter.roll, counted, if_neg hr]
      obtain ⟨hlimiter, hpassed⟩ := step_counted hroll hg
      rw [if_neg hr]
      exact ih _ hlimiter hpassed

/-- In no 60 seconds more calls pass than the limit allows, exactly when each of the first calls
of a fixed window finds room beside those of the window before that are not yet 60 seconds old. -/
theorem sliding_window_iff (su : Setup) (start : ℤ) (cs : List Call)
    (hclock : (start :: cs.map Call.now).Pairwise (· ≤ ·)) :
    Sliding rateLimitWindowMs su.cfg.maxPaymentsPerMinute (run (step su) (opened start) cs).passed ↔
      Spaced rateLimitWindowMs su.cfg.maxPaymentsPerMinute
        (admitted rateLimitWindowMs su.cfg.maxPaymentsPerMinute start [] (cs.map Call.now)) := by
  have hlimiter : (opened start).limiter = counted su.cfg start [] := by simp [opened, counted]
  rw [run_passed cs [] hlimiter (by simp [opened]), List.nil_append]
  refine (admitted_apart _ (List.forall_mem_nil _) hclock.of_cons hclock (by decide)).sliding_iff ?_
  refine List.forall_mem_map.mpr fun w _ => ?_
  exact List.length_take_le ..

def sample : Setup := ⟨Sample.config, Sample.platform, Sample.sdk, "GAGENT"⟩

/-- Ten calls of the sample challenge at one time. -/
def burst (now : ℤ) : List Call := List.replicate 10 ⟨Sample.challenge, now, now⟩

theorem sliding_window_of_spaced_bursts :
    Sliding rateLimitWindowMs 10
        (run (step sample) (opened 0) (burst 1000 ++ burst 61000)).passed ↔
      Spaced rateLimitWindowMs 10
        (admitted rateLimitWindowMs 10 0 [] ((burst 1000 ++ burst 61000).map Call.now)) :=
  sliding_window_iff sample 0 _ (by decide +kernel)

/-- Ten calls at the end of a window and ten at the start of the next are twenty within a
millisecond. -/
theorem sliding_window_exceeded :
    ((0 :: (burst 59999 ++ burst 60000).map Call.now).Pairwise (· ≤ ·)) ∧
      ¬ Sliding rateLimitWindowMs sample.cfg.maxPaymentsPerMinute
        (run (step sample) (opened 0) (burst 59999 ++ burst 60000)).passed := by
  refine ⟨by decide +kernel, fun h => absurd (h 59999) ?_⟩
  decide +kernel

end PayFi.X402.RateLimit
