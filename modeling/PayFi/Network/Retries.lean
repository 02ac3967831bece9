import Mathlib.Algebra.Order.Field.Rat
import PayFi.Agent.Errors
import PayFi.Library.Jitter
import PayFi.Network.Backoff
import PayFi.Network.Submission

namespace PayFi.Network.Retries

open Agent.Errors Library.Jitter Submission

inductive ErrorClass where
  | zodError
  | typeError
  | rateLimitError
  | other
  deriving DecidableEq

structure ErrorObject where
  kind : ErrorClass
  message : String
  properties : List (String × Value)

/-- A thrown value: an error, or anything else with its `String` text. -/
inductive Failure where
  | error (err : ErrorObject)
  | other (value : Value) (text : String)

/-- How `withRetry` rejects: with what an attempt has thrown, with a new error, or because a
property of the failure cannot be read. -/
inductive Rejection where
  | caught (err : Failure)
  | stellarRPCError (message : String) (cause : Value)
  | unreadable

def rateLimitError (retryAfterSeconds : ℕ) : Failure :=
  .error ⟨.rateLimitError, "Rate limited. Retry after " ++ toString retryAfterSeconds ++ " seconds",
    [("retryAfterSeconds", .number (some (toString retryAfterSeconds))),
      ("name", .string "RateLimitError")]⟩

def isRateLimitError : Failure → Bool
  | .error err => err.kind = .rateLimitError
  | .other .. => false

def defaultIsRetryable : Failure → Bool
  | .error err =>
    match err.kind with
    | .zodError => false
    | .typeError => false
    | .rateLimitError => true
    | .other =>
      !(includes err.message "budget_exceeded" || includes err.message "simulation failed")
  | .other .. => true

/-- The header as it stands there, be it a text or not, and `null` for none. -/
def extractRetryAfterHeader (err : ErrorObject) : Except Unit Value := do
  let response ← (Value.object err.properties).property "response"
  let headers ← response.optional "headers"
  let header ← headers.optional "retry-after"
  return match header with
    | .undefined => .null
    | v => v

/-- `(err as Error).message` of anything, which throws for `null` and `undefined`. -/
def Failure.hasMessage : Failure → Bool
  | .error _ => true
  | .other value _ => (value.property "message").toBool

def Failure.value : Failure → Value
  | .error err => .object err.properties
  | .other value _ => value

def lastErrorMessage : Option Failure → String
  | none => "unknown error"
  | some (.error err) => err.message
  | some (.other .undefined _) => "unknown error"
  | some (.other .null _) => "unknown error"
  | some (.other _ text) => text

/-- The `StellarRPCError` at the end, whose constructor cleans the cause. -/
def exhausted (retries : ℕ) (lastErr : Option Failure) : Rejection :=
  match sanitizeCause (lastErr.elim .undefined Failure.value) with
  | .ok cause => .stellarRPCError ("RPC call failed after " ++ toString retries ++
      " attempt(s): " ++ lastErrorMessage lastErr) cause
  | .error () => .unreadable

structure Options where
  retries : ℕ
  delayMs : ℚ≥0
  maxDelayMs : ℚ≥0
  isRetryable : Failure → Bool

/-- What the attempts meet: their outcomes, the backoff, and `Math.random`. -/
structure Script (α : Type) where
  fn : ℕ → Except Failure α
  isThrottled : ℕ → Bool
  random : ℕ → Set.Ico (0 : ℚ) 1

def noJitter : Set.Ico (0 : ℚ) 1 := ⟨0, le_rfl, zero_lt_one⟩

/-- What a call of `withRetry` does. A sleep is the delay that it asks of its timer. -/
inductive Event where
  | call (attempt : ℕ)
  | handleRateLimitResponse (attempt : ℕ) (retryAfterHeader : Value)
  | sleep (ms : ℚ)

def capped (o : Options) (attempt : ℕ) : ℚ≥0 := min (o.delayMs * 2 ^ (attempt - 1)) o.maxDelayMs

/-- The jitter is `Math.random() * 0.2 * capped`. -/
def delay (o : Options) (random : Set.Ico (0 : ℚ) 1) (attempt : ℕ) : ℚ :=
  jittered (1 / 5) (capped o attempt : ℚ) random

/-- A message with a 429 starts a backoff, and a rate limit is kept in place of the error. -/
def detectLimit (attempt : ℕ) : Failure → Except Rejection Failure × List Event
  | .error err =>
    if includes err.message "429" then
      match extractRetryAfterHeader err with
      | .ok retryAfterHeader =>
        (.ok (rateLimitError 30), [.handleRateLimitResponse attempt retryAfterHeader])
      | .error () => (.error .unreadable, [])
    else (.ok (.error err), [])
  | err => (.ok err, [])

variable {α : Type}

def handleError (o : Options) (s : Script α) (attempt : ℕ) (err : Failure) :
    Except Rejection Failure × List Event :=
  match detectLimit attempt err with
  | (.error rejection, events) => (.error rejection, events)
  | (.ok lastErr, events) =>
    if !o.isRetryable err && !isRateLimitError err then (.error (.caught err), events)
    else if !err.hasMessage then (.error .unreadable, events)
    else if attempt < o.retries then
      (.ok lastErr, events ++ [.sleep (delay o (s.random attempt) attempt)])
    else (.ok lastErr, events)

def tryCall (s : Script α) (attempt : ℕ) : Except Failure α × List Event :=
  if s.isThrottled attempt then (.error (rateLimitError 30), [])
  else (s.fn attempt, [.call attempt])

def loop (o : Options) (s : Script α) :
    ℕ → ℕ → Option Failure → Except Rejection α × List Event
  | 0, _, lastErr => (.error (exhausted o.retries lastErr), [])
  | n + 1, attempt, _ =>
    match tryCall s attempt with
    | (.ok a, calls) => (.ok a, calls)
    | (.error err, calls) =>
      match handleError o s attempt err with
      | (.error rejection, events) => (.error rejection, calls ++ events)
      | (.ok lastErr, events) =>
        let (result, rest) := loop o s n (attempt + 1) (some lastErr)
        (result, calls ++ events ++ rest)

def withRetry (o : Options) (s : Script α) : Except Rejection α × List Event :=
  loop o s o.retries 1 none

/-- An error with finite properties and no 429 in its message. -/
def Plain (err : Failure) : Prop :=
  ∃ obj, err = .error obj ∧ finiteEntries obj.properties = true ∧
    includes obj.message "429" = false

/-- Errors that are not thrown on at once. -/
def isRetried (o : Options) (err : Failure) : Bool := o.isRetryable err || isRateLimitError err

def Retried (o : Options) (s : Script α) (attempt : ℕ) : Prop :=
  ∃ err, s.fn attempt = .error err ∧ isRetried o err = true

/-- Calls with a pause between any two. -/
def calls (pause : ℕ → ℚ) : ℕ → ℕ → List Event
  | attempt, 0 => [.call attempt]
  | attempt, n + 1 => .call attempt :: .sleep (pause attempt) :: calls pause (attempt + 1) n

/-- How a run ends with its last attempt. -/
inductive Ends (o : Options) (s : Script α) (attempt : ℕ) : Except Rejection α → Prop
  | success {a : α} (h : s.fn attempt = .ok a) : Ends o s attempt (.ok a)
  | fatal {err : Failure} (h : s.fn attempt = .error err) (hfatal : isRetried o err = false) :
    Ends o s attempt (.error (.caught err))
  | exhausted {err : ErrorObject} {message : String} {cause : Value} (hlast : attempt = o.retries)
    (h : s.fn attempt = .error (.error err)) (hretried : isRetried o (.error err) = true)
    (hmessage : err.message.toList <:+ message.toList) :
    Ends o s attempt (.error (.stellarRPCError message cause))

variable {o : Options} {s : Script α} {err : Failure} {attempt n : ℕ} {lastErr : Option Failure}

theorem delay_bounds (o : Options) (random : Set.Ico (0 : ℚ) 1) (attempt : ℕ) :
    (capped o attempt : ℚ) ≤ delay o random attempt ∧
      delay o random attempt ≤ 6 / 5 * capped o attempt := by
  have hc : (0 : ℚ) ≤ capped o attempt := NNRat.coe_nonneg _
  have hshare : (0 : ℚ) ≤ 1 / 5 := by norm_num
  have hhigh := jittered_le hshare hc random
  refine ⟨le_jittered hshare hc random, hhigh.trans ?_⟩
  linarith

theorem detectLimit_of_plain (h : Plain err) : detectLimit attempt err = (.ok err, []) := by
  obtain ⟨obj, rfl, -, hmessage⟩ := h
  simp only [detectLimit, hmessage, Bool.false_eq_true, if_false]

theorem handleError_of_fatal (h : Plain err) (hfatal : isRetried o err = false) :
    handleError o s attempt err = (.error (.caught err), []) := by
  rw [isRetried, Bool.or_eq_false_iff] at hfatal
  simp only [handleError, detectLimit_of_plain h, hfatal.1, hfatal.2]
  rfl

theorem handleError_of_retried (h : Plain err) (hretried : isRetried o err = true) :
    handleError o s attempt err = (.ok err,
      if attempt < o.retries then [.sleep (delay o (s.random attempt) attempt)] else []) := by
  have hnot : (!o.isRetryable err && !isRateLimitError err) = false := by
    rw [isRetried] at hretried
    rw [← Bool.not_or, hretried]
    rfl
  have hmessage : err.hasMessage = true := by
    obtain ⟨obj, rfl, -⟩ := h
    rfl
  simp only [handleError, detectLimit_of_plain h, hnot, hmessage, Bool.not_true,
    Bool.false_eq_true, if_false, List.nil_append]
  by_cases hlast : attempt < o.retries
  · rw [if_pos hlast, if_pos hlast]
  · rw [if_neg hlast, if_neg hlast]

theorem tryCall_of_idle (hidle : ∀ k, s.isThrottled k = false) :
    tryCall s attempt = (s.fn attempt, [.call attempt]) := by
  simp only [tryCall, hidle, Bool.false_eq_true, if_false]

theorem exhausted_of_plain (retries : ℕ) (h : Plain err) :
    ∃ obj message cause, err = .error obj ∧
      exhausted retries (some err) = .stellarRPCError message cause ∧
      obj.message.toList <:+ message.toList := by
  obtain ⟨obj, rfl, hfinite, -⟩ := h
  obtain ⟨cause, hcause⟩ := sanitizeCause_of_finite (v := .object obj.properties)
    (by rwa [Value.finite])
  refine ⟨obj, "RPC call failed after " ++ toString retries ++ " attempt(s): " ++ obj.message,
    cause, rfl, ?_, ?_⟩
  · simp only [exhausted, Option.elim_some, Failure.value, hcause, lastErrorMessage]
  · rw [String.toList_append]
    exact List.suffix_append ..

theorem loop_of_not_retried (hidle : ∀ k, s.isThrottled k = false)
    (hplain : ∀ err, s.fn attempt = .error err → Plain err) (h : ¬ Retried o s attempt) :
    (loop o s (n + 1) attempt lastErr).2 = [.call attempt] ∧
      Ends o s attempt (loop o s (n + 1) attempt lastErr).1 := by
  cases hout : s.fn attempt with
  | ok a =>
    simp only [loop, tryCall_of_idle hidle, hout]
    exact ⟨trivial, .success hout⟩
  | error err =>
    have hfatal : isRetried o err = false :=
      Bool.eq_false_iff.mpr fun hretried => h ⟨err, hout, hretried⟩
    simp only [loop, tryCall_of_idle hidle, hout, handleError_of_fatal (hplain err hout) hfatal,
      List.append_nil]
    exact ⟨trivial, .fatal hout hfatal⟩

theorem loop_of_retried (hidle : ∀ k, s.isThrottled k = false) (h : s.fn attempt = .error err)
    (hplain : Plain err) (hretried : isRetried o err = true) :
    loop o s (n + 1) attempt lastErr = ((loop o s n (attempt + 1) (some err)).1,
      .call attempt :: (if attempt < o.retries then [.sleep (delay o (s.random attempt) attempt)]
        else []) ++ (loop o s n (attempt + 1) (some err)).2) := by
  simp only [loop, tryCall_of_idle hidle, h, handleError_of_retried hplain hretried]
  rfl

theorem loop_spec (hidle : ∀ k, s.isThrottled k = false)
    (hplain : ∀ k err, s.fn k = .error err → Plain err) (hn : attempt + n = o.retries) :
    ∃ m, m ≤ n ∧ (∀ k, attempt ≤ k → k < attempt + m → Retried o s k) ∧
      (loop o s (n + 1) attempt lastErr).2 =
        calls (fun k => delay o (s.random k) k) attempt m ∧
      Ends o s (attempt + m) (loop o s (n + 1) attempt lastErr).1 := by
  induction n generalizing attempt lastErr with
  | zero =>
    refine ⟨0, Nat.le_refl 0, fun k hle hlt => absurd hlt (Nat.not_lt.mpr hle), ?_⟩
    by_cases hretried : Retried o s attempt
    · obtain ⟨err, hout, herr⟩ := hretried
      obtain ⟨obj, message, cause, rfl, hexhausted, hmessage⟩ :=
        exhausted_of_plain o.retries (hplain attempt err hout)
      have hlast : ¬ attempt < o.retries := by omega
      rw [loop_of_retried hidle hout (hplain attempt _ hout) herr, if_neg hlast, loop, hexhausted]
      exact ⟨rfl, .exhausted hn hout herr hmessage⟩
    · exact loop_of_not_retried hidle (hplain attempt) hretried
  | succ n ih =>
    by_cases hretried : Retried o s attempt
    · obtain ⟨err, hout, herr⟩ := hretried
      have hmore : attempt < o.retries := by omega
      obtain ⟨m, hm, hbefore, hevents, hends⟩ :=
        @ih (attempt + 1) (some err) (by omega)
      rw [loop_of_retried hidle hout (hplain attempt err hout) herr, if_pos hmore, hevents]
      refine ⟨m + 1, Nat.succ_le_succ hm, fun k hle hlt => ?_, rfl, ?_⟩
      · obtain rfl | hlater := Nat.eq_or_lt_of_le hle
        · exact ⟨err, hout, herr⟩
        · exact hbefore k hlater (by omega)
      · rw [Nat.add_right_comm, Nat.add_assoc] at hends
        exact hends
    · refine ⟨0, Nat.zero_le _, fun k hle hlt => absurd hlt (Nat.not_lt.mpr hle), ?_⟩
      exact loop_of_not_retried hidle (hplain attempt) hretried

theorem withRetry_run (hretries : 1 ≤ o.retries) (hidle : ∀ k, s.isThrottled k = false)
    (hplain : ∀ k err, s.fn k = .error err → Plain err) :
    ∃ n, n < o.retries ∧ (∀ k, 1 ≤ k → k ≤ n → Retried o s k) ∧
      (withRetry o s).2 = calls (fun k => delay o (s.random k) k) 1 n ∧
      Ends o s (n + 1) (withRetry o s).1 := by
  obtain ⟨r, hr⟩ := Nat.exists_eq_add_of_le' hretries
  obtain ⟨n, hn, hbefore, hevents, hends⟩ :=
    @loop_spec α o s 1 r none hidle hplain (by omega)
  rw [← hr] at hevents hends
  rw [Nat.add_comm] at hends
  exact ⟨n, by omega, fun k hk hkn => hbefore k hk (by omega), hevents, hends⟩

/-- While no backoff is active, the calls go on until the first success or the first error that
is neither retryable nor a rate limit, or until none are left; the pauses lie between them. -/
theorem withRetry_spec (o : Options) (s : Script α) (hretries : 1 ≤ o.retries)
    (hidle : ∀ k, s.isThrottled k = false)
    (hplain : ∀ k err, s.fn k = .error err → Plain err) :
    ∃ (pause : ℕ → ℚ) (n : ℕ), n < o.retries ∧
      (∀ k, ((min (o.delayMs * 2 ^ (k - 1)) o.maxDelayMs : ℚ≥0) : ℚ) ≤ pause k ∧
        pause k ≤ 6 / 5 * (min (o.delayMs * 2 ^ (k - 1)) o.maxDelayMs : ℚ≥0)) ∧
      (∀ k, 1 ≤ k → k ≤ n → Retried o s k) ∧ (withRetry o s).2 = calls pause 1 n ∧
      Ends o s (n + 1) (withRetry o s).1 := by
  obtain ⟨n, hn, hbefore, hevents, hends⟩ := withRetry_run hretries hidle hplain
  exact ⟨_, n, hn, fun k => delay_bounds o (s.random k) k, hbefore, hevents, hends⟩

theorem withRetry_spec_recovered :
    let o : Options := ⟨3, 100, 30000, defaultIsRetryable⟩
    let s : Script ℕ := ⟨fun k => if k = 1 then .error (.error ⟨.other, "503 Service Unavailable",
      [("name", .string "NetworkError")]⟩) else .ok 7, fun _ => false, fun _ => noJitter⟩
    ∃ (pause : ℕ → ℚ) (n : ℕ), n < o.retries ∧
      (∀ k, ((min (o.delayMs * 2 ^ (k - 1)) o.maxDelayMs : ℚ≥0) : ℚ) ≤ pause k ∧
        pause k ≤ 6 / 5 * (min (o.delayMs * 2 ^ (k - 1)) o.maxDelayMs : ℚ≥0)) ∧
      (∀ k, 1 ≤ k → k ≤ n → Retried o s k) ∧ (withRetry o s).2 = calls pause 1 n ∧
      Ends o s (n + 1) (withRetry o s).1 := by
  intro o s
  refine withRetry_spec o s (by decide) (fun _ => rfl) fun k err h => ?_
  by_cases hk : k = 1
  · simp only [s, if_pos hk] at h
    cases h
    exact ⟨_, rfl, rfl, by decide⟩
  · simp only [s, if_neg hk] at h
    cases h

/-- A rate limit is tried again although the predicate says that it is not retryable. -/
theorem rateLimit_retried :
    let o : Options := ⟨2, 100, 30000, fun _ => false⟩
    let s : Script ℕ := ⟨fun k => if k = 1 then .error (rateLimitError 30) else .ok 7,
      fun _ => false, fun _ => noJitter⟩
    Plain (rateLimitError 30) ∧ s.fn 1 = .error (rateLimitError 30) ∧
      o.isRetryable (rateLimitError 30) = false ∧ (withRetry o s).1 = .ok 7 ∧
      (withRetry o s).2 = [.call 1, .sleep (delay o (s.random 1) 1), .call 2] :=
  ⟨⟨_, rfl, rfl, by decide⟩, rfl, rfl, rfl, rfl⟩

/-- The error starts a backoff: a message with a 429, and a header that can be read. -/
def Activates (err : Failure) (retryAfterHeader : Value) : Prop :=
  ∃ obj, err = .error obj ∧ includes obj.message "429" = true ∧
    extractRetryAfterHeader obj = .ok retryAfterHeader

variable {k : ℕ} {retryAfterHeader : Value}

theorem mem_detectLimit :
    .handleRateLimitResponse k retryAfterHeader ∈ (detectLimit attempt err).2 ↔
      k = attempt ∧ Activates err retryAfterHeader := by
  cases err with
  | other value text => simp [detectLimit, Activates]
  | error obj =>
    by_cases hlimit : includes obj.message "429" = true
    · cases hheader : extractRetryAfterHeader obj with
      | ok header =>
        simp only [detectLimit, hlimit, if_true, hheader, List.mem_singleton,
          Event.handleRateLimitResponse.injEq]
        constructor
        · rintro ⟨rfl, rfl⟩
          exact ⟨rfl, obj, rfl, hlimit, hheader⟩
        · rintro ⟨rfl, obj', hobj, -, hheader'⟩
          cases hobj
          exact ⟨rfl, Except.ok.inj (hheader'.symm.trans hheader)⟩
      | error => simp [detectLimit, Activates, hlimit, hheader]
    · simp [detectLimit, Activates, hlimit]

theorem mem_handleError :
    .handleRateLimitResponse k retryAfterHeader ∈ (handleError o s attempt err).2 ↔
      k = attempt ∧ Activates err retryAfterHeader := by
  rw [← mem_detectLimit, handleError]
  split
  · rename_i hdetect
    rw [hdetect]
  · rename_i hdetect
    rw [hdetect]
    split
    · rfl
    · split
      · rfl
      · split
        · simp
        · rfl

theorem not_activates_rateLimitError : ¬ Activates (rateLimitError 30) retryAfterHeader := by
  rintro ⟨obj, hobj, hlimit, -⟩
  cases hobj
  exact absurd hlimit (by decide)

def caught (o : Options) (s : Script α) (attempt : ℕ) : List Event :=
  match (tryCall s attempt).1 with
  | .ok _ => []
  | .error err => (handleError o s attempt err).2

theorem loop_events (o : Options) (s : Script α) (n attempt : ℕ) (lastErr : Option Failure) :
    ∃ rest, (loop o s (n + 1) attempt lastErr).2 =
        (tryCall s attempt).2 ++ (caught o s attempt ++ rest) ∧
      (rest = [] ∨ ∃ lastErr, rest = (loop o s n (attempt + 1) lastErr).2) := by
  rw [loop, caught]
  obtain ⟨out, calls, hout⟩ : ∃ out calls, tryCall s attempt = (out, calls) := ⟨_, _, rfl⟩
  cases out with
  | ok a => exact ⟨[], by simp only [hout, List.append_nil], .inl rfl⟩
  | error err =>
    obtain ⟨kept, events, hhandle⟩ :
        ∃ kept events, handleError o s attempt err = (kept, events) := ⟨_, _, rfl⟩
    cases kept with
    | error rejection => exact ⟨[], by simp only [hout, hhandle, List.append_nil], .inl rfl⟩
    | ok lastErr =>
      exact ⟨_, by simp only [hout, hhandle, List.append_assoc], .inr ⟨some lastErr, rfl⟩⟩

theorem not_mem_tryCall : .handleRateLimitResponse k retryAfterHeader ∉ (tryCall s attempt).2 := by
  rw [tryCall]
  split <;> simp

theorem activates_of_mem_loop
    (h : .handleRateLimitResponse k retryAfterHeader ∈ (loop o s n attempt lastErr).2) :
    ∃ err, s.fn k = .error err ∧ Activates err retryAfterHeader := by
  induction n generalizing attempt lastErr with
  | zero => cases h
  | succ n ih =>
    obtain ⟨rest, hevents, hrest⟩ := loop_events o s n attempt lastErr
    rw [hevents, List.mem_append, List.mem_append] at h
    obtain hcall | hcatch | hlater := h
    · exact absurd hcall not_mem_tryCall
    · rw [caught] at hcatch
      by_cases hthrottled : s.isThrottled attempt = true
      · simp only [tryCall, hthrottled, if_true] at hcatch
        exact absurd (mem_handleError.mp hcatch).2 not_activates_rateLimitError
      · simp only [tryCall, hthrottled] at hcatch
        cases hout : s.fn attempt with
        | ok a => simp [hout] at hcatch
        | error err =>
          simp only [hout, Bool.false_eq_true, if_false] at hcatch
          obtain ⟨rfl, hactivates⟩ := mem_handleError.mp hcatch
          exact ⟨err, hout, hactivates⟩
    · obtain rfl | ⟨lastErr, rfl⟩ := hrest
      · cases hlater
      · exact ih hlater

theorem mem_withRetry_of_activates (herr : s.fn 1 = .error err) (hidle : s.isThrottled 1 = false)
    (hretries : 0 < o.retries) (h : Activates err retryAfterHeader) :
    .handleRateLimitResponse 1 retryAfterHeader ∈ (withRetry o s).2 := by
  obtain ⟨n, hn⟩ := Nat.exists_eq_succ_of_ne_zero hretries.ne'
  obtain ⟨rest, hevents, -⟩ := loop_events o s n 1 none
  have hcatch : .handleRateLimitResponse 1 retryAfterHeader ∈ (handleError o s 1 err).2 :=
    mem_handleError.mpr ⟨rfl, h⟩
  rw [withRetry, hn, hevents]
  simp only [caught, tryCall, hidle, Bool.false_eq_true, if_false, herr]
  exact List.mem_append_right _ (List.mem_append_left _ hcatch)

/-- An error starts a backoff for a response 429 alone exactly when its message has no 429
otherwise, or its header cannot be read. -/
theorem backoff_only_on_429_iff (err : Failure) (status : Option ℕ) :
    (∀ (o : Options) (s : Script α) (attempt : ℕ) (retryAfterHeader : Value),
        s.fn attempt = .error err →
        .handleRateLimitResponse attempt retryAfterHeader ∈ (withRetry o s).2 →
        status = some 429) ↔
      ∀ retryAfterHeader, Activates err retryAfterHeader → status = some 429 := by
  constructor
  · intro h retryAfterHeader hactivates
    let o : Options := ⟨1, 0, 0, fun _ => true⟩
    let s : Script α := ⟨fun _ => .error err, fun _ => false, fun _ => noJitter⟩
    apply h o s 1 retryAfterHeader rfl
    exact mem_withRetry_of_activates rfl rfl Nat.one_pos hactivates
  · intro h o s attempt retryAfterHeader herr hmem
    obtain ⟨err', herr', hactivates⟩ := activates_of_mem_loop hmem
    rw [herr] at herr'
    cases herr'
    exact h retryAfterHeader hactivates

/-- A server that reports, with status 200, the ledgers it has: half a minute without traffic. -/
theorem backoff_without_429 :
    let err : Failure := .error ⟨.other,
      "startLedger must be within the ledger range: 4290000 - 4300000", []⟩
    let o : Options := ⟨3, 1500, 30000, defaultIsRetryable⟩
    let s : Script Unit := ⟨fun _ => .error err, fun _ => false, fun _ => noJitter⟩
    s.fn 1 = .error err ∧ .handleRateLimitResponse 1 .null ∈ (withRetry o s).2 ∧
      (some 200 : Option ℕ) ≠ some 429 ∧
      (Backoff.isThrottled (Backoff.handleRateLimitResponse Backoff.idle none 0 0) 29999).1 =
        true := by
  intro err o s
  refine ⟨rfl, mem_withRetry_of_activates rfl rfl (by decide) ?_, by decide, by decide⟩
  exact ⟨_, rfl, by decide +kernel, rfl⟩

end PayFi.Network.Retries
