import PayFi.Network.Retries

namespace PayFi.Network.Agreement

open Agent.Errors Library.Retry Retries
open Submission (Fault isRetryable isRateLimit noteError includes)

def errorObject : Fault → Failure
  | .zod issues => .error ⟨.zodError, (Fault.zod issues).message, []⟩
  | .type message => .error ⟨.typeError, message, []⟩
  | .rateLimit retryAfterSeconds => rateLimitError retryAfterSeconds
  | .stellarRPC message => .error ⟨.other, message, []⟩
  | .error message => .error ⟨.other, message, []⟩

variable {σ α : Type} {isThrottled : ℕ → Bool} {fn : ℕ → σ → Except Fault α × σ} {s : σ}
  {o : Options} {e : Fault} {attempt : ℕ}

def scriptOf (isThrottled : ℕ → Bool) (fn : ℕ → σ → Except Fault α × σ) (s : σ)
    (random : ℕ → Set.Ico (0 : ℚ) 1) : Script α :=
  ⟨fun k => (fn k (states (Submission.attempt isThrottled fn) s (k - 1))).1.mapError errorObject,
    isThrottled, random⟩

inductive Agrees (retries : ℕ) : Outcome α Fault → Except Rejection α → Prop
  | done (a : α) : Agrees retries (.done a) (.ok a)
  | fatal (e : Fault) : Agrees retries (.fatal e) (.error (.caught (errorObject e)))
  | exhausted (last : Option Fault) (cause : Value) :
    Agrees retries (.exhausted last) (.error (.stellarRPCError ("RPC call failed after " ++
      toString retries ++ " attempt(s): " ++ (last.map Fault.message).getD "unknown error") cause))

theorem defaultIsRetryable_errorObject (e : Fault) :
    defaultIsRetryable (errorObject e) = isRetryable e := by
  cases e <;> rfl

theorem isRateLimitError_errorObject (e : Fault) :
    isRateLimitError (errorObject e) = isRateLimit e := by
  cases e <;> rfl

theorem hasMessage_errorObject (e : Fault) : (errorObject e).hasMessage = true := by
  cases e <;> rfl

theorem detectLimit_errorObject (attempt : ℕ) (e : Fault) : ∃ events,
    detectLimit attempt (errorObject e) = (.ok (errorObject (noteError e)), events) := by
  by_cases hlimit : includes e.message "429" = true
  · refine ⟨[.handleRateLimitResponse attempt .null], ?_⟩
    rw [noteError, if_pos hlimit]
    cases e <;> exact if_pos hlimit
  · refine ⟨[], ?_⟩
    rw [noteError, if_neg hlimit]
    cases e <;> exact if_neg hlimit

/-- The catch block rejects with the faults that are fatal, and keeps what is noted of the
others. -/
theorem handleError_errorObject (hdefault : o.isRetryable = defaultIsRetryable)
    (t : Script α) (attempt : ℕ) (e : Fault) : ∃ events,
    handleError o t attempt (errorObject e) = (if Submission.fatal e then
      .error (.caught (errorObject e)) else .ok (errorObject (noteError e)), events) := by
  obtain ⟨events, hdetect⟩ := detectLimit_errorObject attempt e
  simp only [handleError, hdetect, hdefault, defaultIsRetryable_errorObject,
    isRateLimitError_errorObject, hasMessage_errorObject]
  rw [show (!isRetryable e && !isRateLimit e) = Submission.fatal e from rfl]
  by_cases hfatal : Submission.fatal e = true
  · exact ⟨events, by rw [if_pos hfatal, if_pos hfatal]⟩
  · rw [if_neg hfatal, if_neg hfatal]
    by_cases hmore : attempt < o.retries
    · exact ⟨_, by rw [if_pos hmore]; rfl⟩
    · exact ⟨_, by rw [if_neg hmore]; rfl⟩

theorem exhausted_errorObject (retries : ℕ) (last : Option Fault) : ∃ cause,
    exhausted retries (last.map errorObject) = .stellarRPCError ("RPC call failed after " ++
      toString retries ++ " attempt(s): " ++ (last.map Fault.message).getD "unknown error")
      cause := by
  cases last with
  | none => exact ⟨_, rfl⟩
  | some e => cases e <;> exact ⟨_, rfl⟩

theorem tryCall_scriptOf (random : ℕ → Set.Ico (0 : ℚ) 1) (k : ℕ) :
    (tryCall (scriptOf isThrottled fn s random) (k + 1)).1 =
      (answer (Submission.attempt isThrottled fn) s k).mapError errorObject := by
  simp only [tryCall, scriptOf, answer, Submission.attempt, Nat.add_sub_cancel]
  split <;> rfl

theorem loop_agrees (hdefault : o.isRetryable = defaultIsRetryable)
    (random : ℕ → Set.Ico (0 : ℚ) 1) (n k : ℕ) (last : Option Fault) :
    Agrees o.retries
      (retry Submission.fatal noteError (Submission.attempt isThrottled fn)
        n (k + 1) last (states (Submission.attempt isThrottled fn) s k)).1
      (loop o (scriptOf isThrottled fn s random) n (k + 1) (last.map errorObject)).1 := by
  induction n generalizing k last with
  | zero =>
    obtain ⟨cause, hexhausted⟩ := exhausted_errorObject o.retries last
    rw [loop, hexhausted]
    exact .exhausted last cause
  | succ n ih =>
    obtain ⟨out, t, hattempt⟩ :
        ∃ out t, Submission.attempt isThrottled fn (k + 1)
          (states (Submission.attempt isThrottled fn) s k) = (out, t) := ⟨_, _, rfl⟩
    have hstate : states (Submission.attempt isThrottled fn) s (k + 1) = t := by
      rw [states, hattempt]
    obtain ⟨calls, htry⟩ : ∃ calls, tryCall (scriptOf isThrottled fn s random) (k + 1) =
        (out.mapError errorObject, calls) := by
      refine ⟨_, Prod.ext ((tryCall_scriptOf random k).trans ?_) rfl⟩
      rw [answer, hattempt]
    rw [retry, hattempt, loop, htry]
    cases out with
    | ok a => exact .done a
    | error e =>
      obtain ⟨events, hhandle⟩ :=
        handleError_errorObject hdefault (scriptOf isThrottled fn s random) (k + 1) e
      by_cases hfatal : Submission.fatal e = true
      · simp only [Except.mapError, hhandle, hfatal, if_true]
        exact .fatal e
      · simp only [Except.mapError, hhandle, hfatal, Bool.false_eq_true, if_false]
        rw [← hstate]
        exact ih (k + 1) (some (noteError e))

theorem withRetry_agrees (o : Options) (hdefault : o.isRetryable = defaultIsRetryable)
    (random : ℕ → Set.Ico (0 : ℚ) 1) :
    (∃ a, (Submission.withRetry o.retries isThrottled fn s).1 = .ok a ∧
        (withRetry o (scriptOf isThrottled fn s random)).1 = .ok a) ∨
      (∃ e, (Submission.withRetry o.retries isThrottled fn s).1 = .error e ∧
        (withRetry o (scriptOf isThrottled fn s random)).1 = .error (.caught (errorObject e))) ∨
      ∃ message cause,
        (Submission.withRetry o.retries isThrottled fn s).1 = .error (.stellarRPC message) ∧
          (withRetry o (scriptOf isThrottled fn s random)).1 =
            .error (.stellarRPCError message cause) := by
  obtain ⟨outcome, t, hretry⟩ : ∃ outcome t, retry Submission.fatal noteError
      (Submission.attempt isThrottled fn) o.retries 1 none s = (outcome, t) := ⟨_, _, rfl⟩
  have hagrees : Agrees o.retries (retry Submission.fatal noteError
      (Submission.attempt isThrottled fn) o.retries 1 none s).1
      (withRetry o (scriptOf isThrottled fn s random)).1 :=
    loop_agrees hdefault random o.retries 0 none
  rw [hretry] at hagrees
  simp only [Submission.withRetry, hretry]
  generalize (withRetry o (scriptOf isThrottled fn s random)).1 = result at hagrees
  cases hagrees with
  | done a => exact .inl ⟨a, rfl, rfl⟩
  | fatal e => exact .inr (.inl ⟨e, rfl, rfl⟩)
  | exhausted last cause => exact .inr (.inr ⟨_, cause, rfl, rfl⟩)

end PayFi.Network.Agreement
