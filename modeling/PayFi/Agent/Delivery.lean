import PayFi.Agent.Webhook
import PayFi.Library.JsonTokens
import PayFi.Tools.Payment

namespace PayFi.Agent.Delivery

open Library.Programs Execution Calls Webhook
open Library.JsonTokens (hexValue)
open Tools.Payment (isHex jsLength)

variable {I : Interface} {cfg : Config I}

/-- The pattern `[0-9a-fA-F]{64}`. -/
def isSignature (sig : String) : Bool := jsLength sig = 64 && isHex sig

def bytesOfHex : List Char → List ℕ
  | hi :: lo :: cs =>
    match hexValue hi, hexValue lo with
    | some h, some l => (16 * h + l) :: bytesOfHex cs
    | _, _ => []
  | _ => []

def signPayload (cfg : Config I) (payload secret : String) : String := cfg.hmac payload secret

def verifyWebhookSignature (cfg : Config I) (payload sig secret : String) : Bool :=
  isSignature sig &&
    let expected := bytesOfHex (signPayload cfg payload secret).toList
    let received := bytesOfHex sig.toList
    expected.length = received.length && expected = received

theorem verify_signPayload {payload secret : String}
    (h : isSignature (signPayload cfg payload secret) = true) :
    verifyWebhookSignature cfg payload (signPayload cfg payload secret) secret = true := by
  simp [verifyWebhookSignature, h]

/-- What the endpoint makes of a post: an answer with a status, or an error, with a status of
its own or with that of a response, or without one. -/
inductive Outcome where
  | answer (status : ℕ) (retryAfter : Option String)
  | error (status : Option ℕ) (response : Option HttpResponse)

def Outcome.reply : Outcome → Reply
  | .answer status retryAfter => .response ⟨some status, retryAfter⟩
  | .error status response => .error status response

def Outcome.status (o : Outcome) : Option ℕ := o.reply.status

def Final (o : Outcome) : Prop :=
  ∃ status ∈ o.status, (200 ≤ status ∧ status < 300) ∨
    (400 ≤ status ∧ status < 500 ∧ status ≠ 429)

theorem isRetryable_iff (status : Option ℕ) :
    isRetryableWebhookError status = false ↔
      ∃ n ∈ status, (200 ≤ n ∧ n < 300) ∨ (400 ≤ n ∧ n < 500 ∧ n ≠ 429) := by
  cases status with
  | none => simp [isRetryableWebhookError]
  | some n =>
    simp only [isRetryableWebhookError, Option.mem_some_iff, exists_eq_left']
    by_cases hsuccess : 200 ≤ n ∧ n < 300
    · simp [hsuccess]
    · by_cases hlimit : n = 429
      · simp [hlimit]
      · simp [hsuccess, hlimit]

theorem final_iff (o : Outcome) :
    Final o ↔ o.reply.failed = false ∨ isRetryableWebhookError o.status = false := by
  rw [isRetryable_iff]
  refine ⟨.inr, fun h => h.elim (fun hok => ?_) id⟩
  cases o with
  | answer status retryAfter =>
    refine ⟨status, rfl, .inl ?_⟩
    simp only [Outcome.reply, Reply.failed, Option.any_some, Bool.or_eq_false_iff,
      decide_eq_false_iff_not] at hok
    omega
  | error status response => cases hok

/-- The posts are answered by a script; `sent` counts them. -/
structure Scripted {S : Type} (handler : (q : Query I) → S → q.Answer × S)
    (script : ℕ → Outcome) (sent : S → ℕ) : Prop where
  reply : ∀ url body signature s,
    (handler (.post url body signature) s).1 = (script (sent s + 1)).reply
  sent_post : ∀ url body signature s, sent (handler (.post url body signature) s).2 = sent s + 1
  sent_report : ∀ retryAfter s, sent (handler (.handleRateLimitResponse retryAfter) s).2 = sent s
  sent_sleep : ∀ ms s, sent (handler (.sleep ms) s).2 = sent s

structure Post where
  url : String
  body : String
  signature : Option String
  deriving DecidableEq

def postOf : Query I → Option Post
  | .post url body signature => some ⟨url, body, signature⟩
  | _ => none

variable {S : Type} {handler : (q : Query I) → S → q.Answer × S} {script : ℕ → Outcome}
  {sent : S → ℕ} {s : S}

/-- What a routine posts. -/
def posts {R : Type} (handler : (q : Query I) → S → q.Answer × S) (p : Routine I R) (s : S) :
    List Post :=
  (asked handler p s).filterMap postOf

theorem posts_bind {R R' : Type} (p : Routine I R) (f : R → Routine I R') (s : S) :
    posts handler (p.bind f) s = posts handler p s ++
      posts handler (f (follow handler p s).1) (follow handler p s).2 := by
  rw [posts, asked_bind, List.filterMap_append]
  rfl

theorem posts_reportLimit (h : Scripted handler script sent) (limited : Bool)
    (retryAfter : Option String) (s : S) :
    posts handler (reportLimit limited retryAfter) s = [] ∧
      sent (follow handler (reportLimit limited retryAfter) s).2 = sent s := by
  cases limited with
  | false => exact ⟨rfl, rfl⟩
  | true => exact ⟨rfl, h.sent_report retryAfter s⟩

theorem posts_pauseIf (h : Scripted handler script sent) (again : Bool) (ms : ℕ) (s : S) :
    posts handler (pauseIf again ms) s = [] ∧
      sent (follow handler (pauseIf again ms) s).2 = sent s := by
  cases again with
  | false => exact ⟨rfl, rfl⟩
  | true => exact ⟨rfl, h.sent_sleep ms s⟩

/-- The last one of up to `n` posts: the first with a final outcome, or the `n`-th. -/
def LastPost (script : ℕ → Outcome) (n k : ℕ) : Prop :=
  k ≤ n ∧ (∀ i, 1 ≤ i → i < k → ¬ Final (script i)) ∧ (k = n ∨ 1 ≤ k ∧ Final (script k))

theorem lastPost_one {n : ℕ} (h : Final (script 1)) : LastPost script (n + 1) 1 :=
  ⟨by omega, fun i hi hlt => absurd hi (by omega), .inr ⟨le_rfl, h⟩⟩

theorem lastPost_succ {n k : ℕ} (h : ¬ Final (script 1))
    (hrest : LastPost (fun i => script (i + 1)) n k) : LastPost script (n + 1) (k + 1) := by
  obtain ⟨hle, hbefore, hend⟩ := hrest
  refine ⟨by omega, fun i hi hlt => ?_, ?_⟩
  · rcases Nat.eq_or_lt_of_le hi with rfl | hi
    · exact h
    · obtain ⟨j, rfl⟩ : ∃ j, i = j + 1 := ⟨i - 1, by omega⟩
      exact hbefore j (by omega) (by omega)
  · rcases hend with rfl | ⟨-, hfinal⟩
    · exact .inl rfl
    · exact .inr ⟨by omega, hfinal⟩

theorem deliver_succ (h : Scripted handler script sent) (url body : String)
    (signature : Option String) (maxAttempts initialDelayMs n : ℕ) (s : S) :
    ∃ s', sent s' = sent s + 1 ∧
      (Final (script (sent s + 1)) →
        posts handler (deliver url body signature maxAttempts initialDelayMs (n + 1)) s =
          [⟨url, body, signature⟩]) ∧
      (¬ Final (script (sent s + 1)) →
        posts handler (deliver url body signature maxAttempts initialDelayMs (n + 1)) s =
          ⟨url, body, signature⟩ ::
            posts handler (deliver url body signature maxAttempts initialDelayMs n) s') := by
  obtain ⟨reply, t, ht⟩ : ∃ (reply : Reply) (t : S),
      handler (.post url body signature) s = (reply, t) := ⟨_, _, rfl⟩
  have hreply : reply = (script (sent s + 1)).reply := by
    rw [← h.reply url body signature s, ht]
  have hsent : sent t = sent s + 1 := by
    rw [← h.sent_post url body signature s, ht]
  have hhead : ∀ rest : Reply → Routine I Unit,
      posts handler (.ask (.post url body signature) rest) s =
        ⟨url, body, signature⟩ :: posts handler (rest reply) t := by
    intro rest
    simp only [posts, asked, List.filterMap_cons, postOf, ht]
  have hfinal := final_iff (script (sent s + 1))
  rw [Outcome.status, ← hreply] at hfinal
  obtain ⟨hlimit, hlimit'⟩ :=
    posts_reportLimit h (reply.status == some 429) reply.retryAfter t
  rw [hfinal, deliver, hhead]
  cases hfailed : reply.failed with
  | false => exact ⟨t, hsent, fun _ => rfl, fun hn => absurd (.inl rfl) hn⟩
  | true =>
    rw [if_neg (by simp), posts_bind, hlimit, List.nil_append]
    cases hretry : isRetryableWebhookError reply.status with
    | false => exact ⟨t, hsent, fun _ => rfl, fun hn => absurd (.inr rfl) hn⟩
    | true =>
      obtain ⟨hpause, hpause'⟩ := posts_pauseIf h (decide (0 < n))
        (initialDelayMs * 2 ^ (maxAttempts - (n + 1)))
        (follow handler (reportLimit (reply.status == some 429) reply.retryAfter) t).2
      rw [if_neg (by simp), posts_bind, hpause, List.nil_append]
      refine ⟨_, ?_, fun hf => absurd hf (by simp), fun _ => rfl⟩
      rw [hpause', hlimit', hsent]

theorem deliver_posts (h : Scripted handler script sent) (url body : String)
    (signature : Option String) (maxAttempts initialDelayMs n : ℕ) (s : S) :
    ∃ k, LastPost (fun i => script (sent s + i)) n k ∧
      posts handler (deliver url body signature maxAttempts initialDelayMs n) s =
        List.replicate k ⟨url, body, signature⟩ := by
  induction n generalizing s with
  | zero => exact ⟨0, ⟨le_rfl, fun i hi hlt => absurd hlt (by omega), .inl rfl⟩, rfl⟩
  | succ n ih =>
    obtain ⟨s', hs', hlast, hmore⟩ :=
      deliver_succ h url body signature maxAttempts initialDelayMs n s
    by_cases hfinal : Final (script (sent s + 1))
    · exact ⟨1, lastPost_one hfinal, hlast hfinal⟩
    · obtain ⟨k, hk, hposts⟩ := ih s'
      refine ⟨k + 1, lastPost_succ hfinal ?_, ?_⟩
      · simpa only [hs', Nat.add_assoc, Nat.add_comm 1] using hk
      · rw [hmore hfinal, hposts]
        rfl

structure HttpErrorLike where
  status : Option ℕ
  response : Option HttpResponse

def HttpErrorLike.code (err : HttpErrorLike) : Option ℕ :=
  (err.response.bind HttpResponse.status).or err.status

def HttpErrorLike.retryAfter (err : HttpErrorLike) : Option String :=
  err.response.bind HttpResponse.retryAfter

/-- What a post comes to: a response without success is thrown, as an error of its own. -/
def thrown : Reply → Except HttpErrorLike Unit
  | .response r =>
    match r.status with
    | some status => if status < 200 ∨ 300 ≤ status then .error ⟨some status, some r⟩ else .ok ()
    | none => .ok ()
  | .error status response => .error ⟨status, response⟩

/-- The block that catches: a final error ends the loop, of any other the rest is tried. -/
def caught {R : Type} (ended : R) (status : Option ℕ) (retryAfter : Option String) (again : Bool)
    (ms : ℕ) (rest : Routine I R) : Routine I R :=
  (reportLimit (status == some 429) retryAfter).bind fun _ =>
    if !isRetryableWebhookError status then .done ended else (pauseIf again ms).bind fun _ => rest

def attempted (url body : String) (signature : Option String)
    (maxAttempts initialDelayMs : ℕ) : ℕ → Routine I (Except HttpErrorLike Unit)
  | 0 => .done (.ok ())
  | n + 1 => .ask (.post url body signature) fun (reply : Reply) =>
    match thrown reply with
    | .ok () => .done (.ok ())
    | .error err => caught (.ok ()) err.code err.retryAfter (0 < n)
        (initialDelayMs * 2 ^ (maxAttempts - (n + 1)))
        (attempted url body signature maxAttempts initialDelayMs n)

def dispatched (cfg : Config I) (result : AgentResult I.Data) (options : WebhookDispatchOptions) :
    Routine I (Except HttpErrorLike Unit) :=
  match cfg.webhookUrl with
  | none => .done (.ok ())
  | some url =>
    let maxAttempts := options.maxAttempts.getD 3
    let body := cfg.stringify result
    attempted url body (cfg.webhookSecret.map (signPayload cfg body)) maxAttempts
      (options.initialDelayMs.getD 1000) maxAttempts

theorem caught_bind {R R' : Type} (ended : R) (status : Option ℕ) (retryAfter : Option String)
    (again : Bool) (ms : ℕ) (rest : Routine I R) (r : R') :
    (caught ended status retryAfter again ms rest).bind (fun _ => .done r) =
      caught r status retryAfter again ms (rest.bind fun _ => .done r) := by
  rw [caught, Program.bind_assoc]
  apply congrArg (Program.bind _)
  funext u
  split
  · rfl
  · exact Program.bind_assoc ..

theorem thrown_eq (reply : Reply) :
    (reply.failed = false ∧ thrown reply = .ok ()) ∨
      (reply.failed = true ∧ ∃ err, thrown reply = .error err ∧ err.code = reply.status ∧
        err.retryAfter = reply.retryAfter) := by
  cases reply with
  | error status response => exact .inr ⟨rfl, _, rfl, rfl, rfl⟩
  | response r =>
    cases hstatus : r.status with
    | none => exact .inl (by simp [Reply.failed, thrown, hstatus])
    | some status =>
      by_cases hbad : status < 200 ∨ 300 ≤ status
      · have hfailed : (Reply.response r).failed = true := by
          simpa [Reply.failed, hstatus] using hbad
        refine .inr ⟨hfailed, ⟨some status, some r⟩, ?_, ?_, rfl⟩
        · simp only [thrown, hstatus, if_pos hbad]
        · simp [HttpErrorLike.code, Reply.status, hstatus]
      · exact .inl (by simpa [Reply.failed, thrown, hstatus] using hbad)

theorem attempted_eq (url body : String) (signature : Option String)
    (maxAttempts initialDelayMs n : ℕ) :
    attempted (I := I) url body signature maxAttempts initialDelayMs n =
      (deliver url body signature maxAttempts initialDelayMs n).bind fun _ => .done (.ok ()) := by
  induction n with
  | zero => rfl
  | succ n ih =>
    simp only [attempted, deliver, Program.bind]
    apply congrArg (Program.ask _)
    funext reply
    rcases thrown_eq reply with ⟨hfailed, hthrown⟩ | ⟨hfailed, err, hthrown, hcode, hretry⟩
    · rw [hthrown, hfailed]
      rfl
    · rw [hthrown, hfailed, ← hcode, ← hretry, ih]
      exact (caught_bind ..).symm

theorem dispatched_eq (cfg : Config I) (result : AgentResult I.Data)
    (options : WebhookDispatchOptions) :
    dispatched cfg result options =
      (dispatchWebhook cfg result options).bind fun _ => .done (.ok ()) := by
  rw [dispatched, dispatchWebhook]
  cases cfg.webhookUrl with
  | none => rfl
  | some url => exact attempted_eq ..

theorem dispatched_posts (s : S) (cfg : Config I) (result : AgentResult I.Data)
    (options : WebhookDispatchOptions) :
    posts handler (dispatched cfg result options) s =
      posts handler (dispatchWebhook cfg result options) s := by
  rw [dispatched_eq, posts_bind]
  exact List.append_nil _

/-- A dispatch does not reject. It posts as often as the endpoint's outcomes make it, each time
the same body and, with a secret, the signature of that body. -/
theorem delivery (h : Scripted handler script sent) (hs : sent s = 0)
    (hhex : ∀ payload secret, isSignature (signPayload cfg payload secret) = true)
    (result : AgentResult I.Data) (options : WebhookDispatchOptions) {url : String}
    (hurl : cfg.webhookUrl = some url) :
    (follow handler (dispatched cfg result options) s).1 = .ok () ∧
    ∃ k signature, LastPost script (options.maxAttempts.getD 3) k ∧
      posts handler (dispatched cfg result options) s =
        List.replicate k ⟨url, cfg.stringify result, signature⟩ ∧
      signature.isSome = cfg.webhookSecret.isSome ∧
      ∀ secret ∈ cfg.webhookSecret, ∀ sig ∈ signature,
        sig = signPayload cfg (cfg.stringify result) secret ∧
          verifyWebhookSignature cfg (cfg.stringify result) sig secret = true := by
  have hresolved : (follow handler (dispatched cfg result options) s).1 = .ok () := by
    rw [dispatched_eq, follow_bind]
    rfl
  obtain ⟨k, hk, hposts⟩ := deliver_posts h url (cfg.stringify result)
    (cfg.webhookSecret.map (signPayload cfg (cfg.stringify result))) (options.maxAttempts.getD 3)
    (options.initialDelayMs.getD 1000) (options.maxAttempts.getD 3) s
  refine ⟨hresolved, k, cfg.webhookSecret.map (signPayload cfg (cfg.stringify result)), ?_, ?_,
    Option.isSome_map, ?_⟩
  · simpa only [hs, Nat.zero_add] using hk
  · rw [dispatched_posts, dispatchWebhook, hurl]
    exact hposts
  · intro secret hsecret sig hsig
    rw [hsecret] at hsig
    cases hsig
    exact ⟨rfl, verify_signPayload (hhex _ _)⟩

/-- An agent whose tasks have nothing to say. -/
def plain : Interface := ⟨Unit, Unit, Unit, Unit, Unit, Unit⟩

def configured : Config plain where
  webhookUrl := some "https://example.com/webhook"
  webhookSecret := some "webhook-secret"
  stringify _ := "\x7b\"success\":true,\"taskType\":\"balance_check\",\"correlationId\":\"c-1\"," ++
    "\"durationMs\":12\x7d"
  hmac _ _ := "cbcddd4cdceb6bf892377087a9570d2b737fa102aff5a06d1304e39e805bf421"

def balance : AgentResult Unit where
  success := true
  taskType := .balanceCheck
  data := none
  error := none
  errorType := none
  correlationId := "c-1"
  durationMs := some 12

/-- An endpoint that follows a script; nothing else is asked of it. -/
def endpoint (script : ℕ → Outcome) : (q : Query plain) → ℕ → q.Answer × ℕ
  | .post _ _ _, n => ((script (n + 1)).reply, n + 1)
  | .isThrottled, n => (false, n)
  | .withBackoffGuard, n => (true, n)
  | .guarded _, n => (true, n)
  | .now, n => ((0 : ℤ), n)
  | .request _, n => ((), n)
  | .update _, n => ((), n)
  | .handleRateLimitResponse _, n => ((), n)
  | .sleep _, n => ((), n)
  | .fork _, n => ((), n)
  | .dispatchWebhook _, n => ((), n)

/-- Unavailable, then rate limited, then unreachable, and then it takes what it gets. -/
def recovering : ℕ → Outcome
  | 1 => .error none (some ⟨some 503, none⟩)
  | 2 => .answer 429 (some "1")
  | 3 => .error none none
  | _ => .answer 200 none

theorem delivery_recovering :
    (follow (endpoint recovering) (dispatched configured balance ⟨some 5, none⟩) 0).1 = .ok () ∧
    ∃ k signature, LastPost recovering 5 k ∧
      posts (endpoint recovering) (dispatched configured balance ⟨some 5, none⟩) 0 =
        List.replicate k ⟨"https://example.com/webhook", configured.stringify balance,
          signature⟩ ∧
      signature.isSome = true ∧
      ∀ secret ∈ configured.webhookSecret, ∀ sig ∈ signature,
        sig = signPayload configured (configured.stringify balance) secret ∧
          verifyWebhookSignature configured (configured.stringify balance) sig secret = true := by
  have hscripted : Scripted (endpoint recovering) recovering id :=
    ⟨fun _ _ _ _ => rfl, fun _ _ _ _ => rfl, fun _ _ => rfl, fun _ _ => rfl⟩
  have hhex : ∀ payload secret, isSignature (signPayload configured payload secret) = true := by
    intro payload secret
    have hdigits : isSignature (configured.hmac "" "") = true := by decide +kernel
    exact hdigits
  exact delivery hscripted rfl hhex balance ⟨some 5, none⟩ rfl

end PayFi.Agent.Delivery
