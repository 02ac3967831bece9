import Mathlib.Algebra.Group.Nat.Defs
import PayFi.Agent.Execution
import PayFi.Library.Programs
import PayFi.Network.Submission

namespace PayFi.Agent.Calls

open Library.Programs Network.Submission Execution

/-- What tasks work with: the state that they share, and what they ask Horizon and the
Soroban server; and the functions that they leave running. -/
structure Interface where
  Payload : Type
  Data : Type
  Memory : Type
  Request : Type
  Response : Type
  Detached : Type

structure HttpResponse where
  status : Option ℕ
  retryAfter : Option String
  deriving DecidableEq

/-- How a `post` ends: with a response, or with an error, which may carry one. -/
inductive Reply where
  | response (r : HttpResponse)
  | error (status : Option ℕ) (response : Option HttpResponse)
  deriving DecidableEq

def Reply.failed : Reply → Bool
  | .response r => r.status.any fun status => status < 200 || 300 ≤ status
  | .error _ _ => true

def Reply.status : Reply → Option ℕ
  | .response r => r.status
  | .error status r => (r.bind HttpResponse.status).or status

def Reply.retryAfter : Reply → Option String
  | .response r => r.retryAfter
  | .error _ r => r.bind HttpResponse.retryAfter

inductive Query (I : Interface) where
  | isThrottled
  | withBackoffGuard
  | guarded (id : ℕ)
  | handleRateLimitResponse (retryAfterHeader : Option String)
  | now
  | sleep (ms : ℕ)
  | request (r : I.Request)
  | update (f : I.Memory → I.Memory)
  | fork (d : I.Detached)
  | post (url body : String) (signature : Option String)
  | dispatchWebhook (result : AgentResult I.Data)

/-- An update is answered with the state before it. A guard call that has to wait is
answered whether its function may start. -/
def Query.Answer {I : Interface} : Query I → Type
  | .isThrottled => Bool
  | .withBackoffGuard => Bool
  | .guarded _ => Bool
  | .now => ℤ
  | .request _ => I.Response
  | .update _ => I.Memory
  | .post .. => Reply
  | _ => Unit

abbrev Routine (I : Interface) (R : Type) : Type := Program (Query I) Query.Answer R

variable {I : Interface} {α : Type}

def withBackoffGuard (fn : Routine I (Except Fault α)) : Routine I (Except Fault α) :=
  .ask .withBackoffGuard fun (admitted : Bool) =>
    if admitted then fn
    else .done (.error (.error "Backoff superseded before queued callback could run"))

def reportLimit (limited : Bool) (retryAfterHeader : Option String) : Routine I Unit :=
  if limited then .ask (.handleRateLimitResponse retryAfterHeader) fun _ => .done ()
  else .done ()

def pauseIf (again : Bool) (ms : ℕ) : Routine I Unit :=
  if again then .ask (.sleep ms) fun _ => .done () else .done ()

/-- The attempts that are left. The error of an attempt comes with the Retry-After header of
its response; the pause may be longer by a fifth. -/
def attempts (fn : Routine I (Except (Fault × Option String) α))
    (retries delayMs maxDelayMs : ℕ) : ℕ → Option Fault → Routine I (Except Fault α)
  | 0, lastErr => .done (.error (.stellarRPC ("RPC call failed after " ++ toString retries ++
      " attempt(s): " ++ (lastErr.map Fault.message).getD "unknown error")))
  | n + 1, _ =>
    .ask .isThrottled fun (throttled : Bool) =>
      (if throttled then .done (.error (.rateLimit 30, none)) else fn).bind fun
        | .ok a => .done (.ok a)
        | .error (e, retryAfterHeader) =>
          (reportLimit (includes e.message "429") retryAfterHeader).bind fun _ =>
            if !isRetryable e && !isRateLimit e then .done (.error e)
            else
              (pauseIf (0 < n) (min (delayMs * 2 ^ (retries - (n + 1))) maxDelayMs)).bind fun _ =>
                attempts fn retries delayMs maxDelayMs n (some (noteError e))

def withRetry (fn : Routine I (Except (Fault × Option String) α))
    (retries delayMs maxDelayMs : ℕ) : Routine I (Except Fault α) :=
  attempts fn retries delayMs maxDelayMs retries none

end PayFi.Agent.Calls
