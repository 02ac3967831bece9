import PayFi.Agent.Calls

namespace PayFi.Agent.Webhook

open Library.Programs Execution Calls

/-- Connection errors and the like have no status, and are worth another attempt. -/
def isRetryableWebhookError : Option ℕ → Bool
  | none => true
  | some status =>
    if 200 ≤ status ∧ status < 300 then false
    else if status = 429 then true
    else !decide (400 ≤ status ∧ status < 500)

structure Config (I : Interface) where
  webhookUrl : Option String
  webhookSecret : Option String
  stringify : AgentResult I.Data → String
  hmac : String → String → String

structure WebhookDispatchOptions where
  maxAttempts : Option ℕ
  initialDelayMs : Option ℕ

variable {I : Interface}

def deliver (url body : String) (signature : Option String) (maxAttempts initialDelayMs : ℕ) :
    ℕ → Routine I Unit
  | 0 => .done ()
  | n + 1 => .ask (.post url body signature) fun (reply : Reply) =>
    if !reply.failed then .done ()
    else (reportLimit (reply.status == some 429) reply.retryAfter).bind fun _ =>
      if !isRetryableWebhookError reply.status then .done ()
      else (pauseIf (0 < n) (initialDelayMs * 2 ^ (maxAttempts - (n + 1)))).bind fun _ =>
        deliver url body signature maxAttempts initialDelayMs n

def dispatchWebhook (cfg : Config I) (result : AgentResult I.Data)
    (options : WebhookDispatchOptions) : Routine I Unit :=
  match cfg.webhookUrl with
  | none => .done ()
  | some url =>
    let maxAttempts := options.maxAttempts.getD 3
    let body := cfg.stringify result
    deliver url body (cfg.webhookSecret.map (cfg.hmac body)) maxAttempts
      (options.initialDelayMs.getD 1000) maxAttempts

/-- Unless it is answered with a 429, the routine does nothing but post and sleep. -/
inductive Quiet : Routine I Unit → Prop
  | done : Quiet (.done ())
  | post {url body : String} {signature : Option String} {rest : Reply → Routine I Unit}
      (h : ∀ reply, reply.status ≠ some 429 → Quiet (rest reply)) :
      Quiet (.ask (.post url body signature) rest)
  | sleep {ms : ℕ} {rest : Unit → Routine I Unit} (h : Quiet (rest ())) :
      Quiet (.ask (.sleep ms) rest)

theorem Quiet.bind {p : Routine I Unit} {f : Unit → Routine I Unit} (hp : Quiet p)
    (hf : Quiet (f ())) : Quiet (p.bind f) := by
  induction hp with
  | done => exact hf
  | post _ ih => exact .post ih
  | sleep _ ih => exact .sleep ih

theorem pauseIf_quiet (again : Bool) (ms : ℕ) : Quiet (I := I) (pauseIf again ms) := by
  cases again with
  | false => exact .done
  | true => exact .sleep .done

theorem deliver_quiet (url body : String) (signature : Option String)
    (maxAttempts initialDelayMs n : ℕ) :
    Quiet (I := I) (deliver url body signature maxAttempts initialDelayMs n) := by
  induction n with
  | zero => exact .done
  | succ n ih =>
    apply Quiet.post
    intro reply hstatus
    have hlimit : Quiet (I := I) (reportLimit (reply.status == some 429) reply.retryAfter) := by
      rw [beq_false_of_ne hstatus]
      exact .done
    split
    · exact .done
    · apply hlimit.bind
      split
      · exact .done
      · exact (pauseIf_quiet ..).bind ih

theorem dispatchWebhook_quiet (cfg : Config I) (result : AgentResult I.Data)
    (options : WebhookDispatchOptions) : Quiet (dispatchWebhook cfg result options) := by
  rw [dispatchWebhook]
  split
  · exact .done
  · exact deliver_quiet ..

end PayFi.Agent.Webhook
