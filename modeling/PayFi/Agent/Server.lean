import PayFi.Agent.Persistence
import PayFi.Library.Clock
import PayFi.Spending.Rejection
import PayFi.Tools.Payment

namespace PayFi.Agent.Server

open Library.Machine Library.Clock Library.Numbers Errors Persistence
open Spending.Tracker (Config Network Tracks total_tracks record_tracks record_of_nan
  recordIn_exact)
open Spending.Guard Tools.Payment
open Spending.Rejection (hundred)

inductive ErrorType where
  | insufficientFunds
  | networkTimeout
  | validationError
  | rateLimitError
  | unauthorizedError
  | contractError
  | transactionFailure
  | configError
  | unknownError

def ErrorType.code : ErrorType → String
  | .insufficientFunds => "INSUFFICIENT_FUNDS"
  | .networkTimeout => "NETWORK_TIMEOUT"
  | .validationError => "VALIDATION_ERROR"
  | .rateLimitError => "RATE_LIMIT_ERROR"
  | .unauthorizedError => "UNAUTHORIZED_ERROR"
  | .contractError => "CONTRACT_ERROR"
  | .transactionFailure => "TRANSACTION_FAILURE"
  | .configError => "CONFIG_ERROR"
  | .unknownError => "UNKNOWN_ERROR"

/-- `STATUS_BY_ERROR_TYPE`, or else 500. -/
def ErrorType.status : ErrorType → ℕ
  | .validationError => 400
  | .unauthorizedError => 401
  | .rateLimitError => 429
  | .networkTimeout => 503
  | _ => 500

structure ZodIssue where
  path : List String
  message : String
  code : String

/-- What can be caught. Only a `RateLimitError` has something to say about a retry. -/
inductive Caught where
  | zod (issues : List ZodIssue)
  | structured (name message : String) (errorType : ErrorType)
  | rateLimit (message : String) (retryAfterSeconds : Option String)
  | other (message : String)

structure ErrorDetail where
  field : String
  message : String
  code : String

structure ErrorResponse where
  status : ℕ
  type : String
  details : List ErrorDetail
  headers : Option (List (String × String))

def mapZodIssues (issues : List ZodIssue) : List ErrorDetail :=
  issues.map fun issue =>
    ⟨if 0 < issue.path.length then ".".intercalate issue.path else "root", issue.message,
      issue.code⟩

def unexpected : String := "An unexpected error occurred"

def structuredResponse (name message : String) (errorType : ErrorType) : ErrorResponse :=
  ⟨errorType.status, name,
    [⟨"root", if 500 ≤ errorType.status then unexpected else message, errorType.code⟩], none⟩

def handleError : Caught → ErrorResponse
  | .zod issues => ⟨400, "ValidationError", mapZodIssues issues, none⟩
  | .structured name message errorType => structuredResponse name message errorType
  | .rateLimit message retryAfterSeconds =>
    { structuredResponse "RateLimitError" message .rateLimitError with
      headers := some [("Retry-After", retryAfterSeconds.getD "60")] }
  | .other _ => ⟨500, "InternalServerError", [⟨"unknown", unexpected, "internal_error"⟩], none⟩

/-- What the server reads of the configuration, and how numbers are written. -/
structure Settings where
  spending : Config
  publicKey : String
  webhookSecret : Option String
  numberText : ℚ → String

structure Request where
  method : String
  url : String
  authorization : Option String

structure Response where
  status : ℕ
  headers : List (String × String)
  body : String

def isAuthenticated (webhookSecret authorization : Option String) : Bool :=
  match webhookSecret with
  | none => true
  | some secret =>
    if secret = "" then true
    else
      match authorization with
      | none => false
      | some auth =>
        if auth = "" then false
        else
          match auth.toList.splitOn ' ' with
          | scheme :: token :: _ =>
            scheme.map Char.toLower = "bearer".toList && token = secret.toList
          | _ => false

variable (st : Settings)

def numberOf : Number → Value
  | .finite q => .number (some (st.numberText q))
  | _ => .number none

def networkName : Network → String
  | .testnet => "testnet"
  | .mainnet => "mainnet"
  | .futurenet => "futurenet"

def resultValue (r : PersistedResult) : Value :=
  .object ([("timestamp", .string r.timestamp), ("taskType", .string r.taskType),
    ("success", .boolean r.success), ("data", r.data)] ++
    (r.error.map fun error => ("error", .string error)).toList ++
    (r.correlationId.map fun id => ("correlationId", .string id)).toList)

def detailValue (d : ErrorDetail) : Value :=
  .object [("field", .string d.field), ("message", .string d.message), ("code", .string d.code)]

def errorValue (e : ErrorResponse) : Value :=
  .object ([("status", .number (some (st.numberText e.status))), ("type", .string e.type),
    ("details", .array (e.details.map detailValue))] ++
    (e.headers.map fun headers =>
      ("headers", .object (headers.map fun h => (h.1, .string h.2)))).toList)

def textOf (v : Value) : Except Unit String := do return (← stringify v).getD "undefined"

def jsonHeaders (body : String) : List (String × String) :=
  [("Content-Type", "application/json"), ("Content-Length", toString (byteLength body))]

def respond (status : ℕ) (body : String) : Response := ⟨status, jsonHeaders body, body⟩

def plain (status : ℕ) (error : String) : Response :=
  ⟨status, [("Content-Type", "application/json")],
    ((textOf (.object [("error", .string error)])).toOption).getD ""⟩

def failed (err : Caught) : Response :=
  let errorResponse := handleError err
  let body := ((textOf (errorValue st errorResponse)).toOption).getD ""
  ⟨errorResponse.status, jsonHeaders body ++ errorResponse.headers.getD [], body⟩

def health : Response :=
  respond 200 (((textOf (.object [("status", .string "ok"),
    ("network", .string (networkName st.spending.network)),
    ("publicKey", .string st.publicKey)])).toOption).getD "")

/-- The last ten results. What goes wrong with them is no error of this program's own. -/
def status (db : Table) : Response :=
  match getResults db (some 10) none >>= fun results =>
      textOf (.object [("results", .array (results.map resultValue))]) with
  | .ok body => respond 200 body
  | .error _ => failed st (.other "")

def percentUsed : Number → Number → Number
  | .finite total, .finite limit =>
    if limit ≠ 0 then .finite (total / limit * 100)
    else if total = 0 then .nan
    else .infinity (total < 0)
  | .finite _, .infinity _ => .finite 0
  | .infinity negative, .finite limit => .infinity (negative != decide (limit < 0))
  | _, _ => .nan

def spending (total : Number) : Response :=
  let limit := parseFloat st.spending.spendingLimit
  respond 200 (((textOf (.object [("total", numberOf st total), ("limit", numberOf st limit),
    ("windowMs", .number (some (st.numberText st.spending.windowMs))),
    ("percentUsed", numberOf st (percentUsed total limit))])).toOption).getD "")

/-- Whether a request is shown what has been spent. -/
def Request.seesSpending (req : Request) : Bool :=
  req.method = "GET" && req.url = "/spending" &&
    isAuthenticated st.webhookSecret req.authorization

/-- `createHealthServer`, on one request. -/
def handle (db : Table) (tracker : Spending.Tracker.State) (req : Request) (now : ℤ) :
    Response × Spending.Tracker.State :=
  if req.method = "GET" && req.url = "/health" then (health st, tracker)
  else if req.method = "GET" && req.url = "/status" then (status st db, tracker)
  else if req.method = "GET" && req.url = "/spending" then
    if !isAuthenticated st.webhookSecret req.authorization then (plain 401 "Unauthorized", tracker)
    else
      let (total, tracker) := Spending.Tracker.total st.spending tracker now
      (spending st total, tracker)
  else (plain 404 "Not Found", tracker)

inductive Output where
  | verdict (v : Except SpendingError Unit)
  | response (req : Request) (r : Response)

/-- The tracker and the table of the agent, and what its guards and its server have said. -/
structure System where
  tracker : Spending.Tracker.State
  db : Table
  journal : List Output

def verdicts (journal : List Output) : List (Except SpendingError Unit) :=
  journal.filterMap fun
    | .verdict v => some v
    | .response .. => none

/-- Whether a task goes on to its result: one without a guard, or one whose guard has passed it. -/
def System.passed (s : System) : Option ℕ → Bool
  | none => true
  | some i => (verdicts s.journal)[i]?.any Except.isOk

/-- The guard of a payment, the result of a task that had this guard, if any, or a request. -/
inductive Action where
  | guard (amount : Option String) (now now' : ℤ)
  | save (guarded : Option ℕ) (result : PersistedResult)
  | request (req : Request) (now : ℤ)

def step (s : System) : Action → System
  | .guard amount now now' =>
    let (v, tracker) := assertWithinSpendingLimit st.spending s.tracker amount now now'
    { s with tracker := tracker, journal := s.journal ++ [.verdict v] }
  | .save guarded result =>
    if s.passed guarded then
      match saveResult s.db result with
      | .ok db => { s with db := db }
      | .error _ => s
    else s
  | .request req now =>
    let (r, tracker) := handle st s.db s.tracker req now
    { s with tracker := tracker, journal := s.journal ++ [.response req r] }

def started : System := ⟨⟨[], []⟩, .empty, []⟩

def readings : Action → List ℤ
  | .guard _ now now' => [now, now']
  | .save .. => []
  | .request _ now => [now]

def isRequest : Action → Bool
  | .request .. => true
  | _ => false

/-- What is done to the results: one is saved, or they are asked for. -/
inductive Effect where
  | saved (result : PersistedResult)
  | request (req : Request) (now : ℤ)

def effectOf (u : Transition System Action) : Option Effect :=
  match u.action with
  | .guard .. => none
  | .save guarded result => if u.before.passed guarded then some (.saved result) else none
  | .request req now => some (.request req now)

/-- The responses to requests that are not shown what has been spent. -/
def publicResponses (journal : List Output) : List Response :=
  journal.filterMap fun
    | .verdict _ => none
    | .response req r => if req.seesSpending st then none else some r

variable {st} {s t : System} {clock now now' : ℤ}

structure Agree (cfg : Config) (clock : ℤ) (s t : System) : Prop where
  tracks : ∃ history, Tracks cfg history clock s.tracker ∧ Tracks cfg history clock t.tracker
  verdicts : verdicts s.journal = verdicts t.journal

theorem verdicts_append (xs ys : List Output) :
    verdicts (xs ++ ys) = verdicts xs ++ verdicts ys := List.filterMap_append

theorem record_agrees {cfg : Config} {history : List Spending.Tracker.SpendingRecord}
    {u v : Spending.Tracker.State} (hu : Tracks cfg history clock u)
    (hv : Tracks cfg history clock v) (hc : clock ≤ now) (hc' : now ≤ now') (amount : String) :
    (Spending.Tracker.record cfg u amount now now').1 =
        (Spending.Tracker.record cfg v amount now now').1 ∧
      ∃ history', Tracks cfg history' now' (Spending.Tracker.record cfg u amount now now').2 ∧
        Tracks cfg history' now' (Spending.Tracker.record cfg v amount now now').2 := by
  cases hnan : (parseFloat amount).isNaN with
  | true =>
    rw [record_of_nan hnan, record_of_nan hnan]
    exact ⟨rfl, history, hu.later (hc.trans hc'), hv.later (hc.trans hc')⟩
  | false =>
    obtain ⟨hout, ht⟩ : _ ∧ _ := record_tracks hu hc hc' hnan
    obtain ⟨hout', ht'⟩ : _ ∧ _ := record_tracks hv hc hc' hnan
    exact ⟨hout.trans hout'.symm, _, ht, ht'⟩

theorem assertWithinSpendingLimit_agrees {cfg : Config}
    {history : List Spending.Tracker.SpendingRecord} {u v : Spending.Tracker.State}
    (hu : Tracks cfg history clock u) (hv : Tracks cfg history clock v) (hc : clock ≤ now)
    (hc' : now ≤ now') (amount : Option String) :
    (assertWithinSpendingLimit cfg u amount now now').1 =
        (assertWithinSpendingLimit cfg v amount now now').1 ∧
      ∃ history', Tracks cfg history' now' (assertWithinSpendingLimit cfg u amount now now').2 ∧
        Tracks cfg history' now' (assertWithinSpendingLimit cfg v amount now now').2 := by
  have hlater := hc.trans hc'
  cases amount with
  | none => exact ⟨rfl, history, hu.later hlater, hv.later hlater⟩
  | some a =>
    obtain ⟨hsame, history', ht, ht'⟩ := record_agrees hu hv hc hc' a
    simp only [assertWithinSpendingLimit, assertWithinSpendingLimitIn, recordIn_exact]
    split
    · exact ⟨rfl, history, hu.later hlater, hv.later hlater⟩
    · split
      · exact ⟨rfl, history, hu.later hlater, hv.later hlater⟩
      · generalize Spending.Tracker.record cfg u a now now' = r at hsame ht ⊢
        generalize Spending.Tracker.record cfg v a now now' = r' at hsame ht' ⊢
        obtain ⟨out, u'⟩ := r
        obtain ⟨out', v'⟩ := r'
        obtain rfl : out = out' := hsame
        cases out with
        | ok => exact ⟨rfl, history', ht, ht'⟩
        | error e => exact ⟨rfl, history', ht, ht'⟩

theorem Agree.guard (h : Agree st.spending clock s t) (hc : clock ≤ now) (hc' : now ≤ now')
    (amount : Option String) :
    Agree st.spending now' (step st s (.guard amount now now'))
      (step st t (.guard amount now now')) := by
  obtain ⟨⟨history, hs, ht⟩, hverdicts⟩ := h
  obtain ⟨hsame, htracks⟩ := assertWithinSpendingLimit_agrees hs ht hc hc' amount
  refine ⟨htracks, ?_⟩
  rw [step, step, verdicts_append, verdicts_append, hverdicts, hsame]

theorem Agree.save (h : Agree st.spending clock s t) (guarded : Option ℕ)
    (result : PersistedResult) :
    Agree st.spending clock (step st s (.save guarded result))
      (step st t (.save guarded result)) := by
  have hsave : ∀ s, (step st s (.save guarded result)).tracker = s.tracker ∧
      (step st s (.save guarded result)).journal = s.journal := by
    intro s
    rw [step]
    split
    · split
      · exact ⟨rfl, rfl⟩
      · exact ⟨rfl, rfl⟩
    · exact ⟨rfl, rfl⟩
  obtain ⟨⟨history, hs, ht⟩, hverdicts⟩ := h
  refine ⟨⟨history, ?_, ?_⟩, ?_⟩
  · rw [(hsave s).1]
    exact hs
  · rw [(hsave t).1]
    exact ht
  · rw [(hsave s).2, (hsave t).2, hverdicts]

theorem handle_tracks {history : List Spending.Tracker.SpendingRecord}
    {tracker : Spending.Tracker.State} (h : Tracks st.spending history clock tracker)
    (hc : clock ≤ now) (db : Table) (req : Request) :
    Tracks st.spending history now (handle st db tracker req now).2 := by
  unfold handle
  split
  · exact h.later hc
  · split
    · exact h.later hc
    · split
      · split
        · exact h.later hc
        · exact (total_tracks h hc).2
      · exact h.later hc

theorem Agree.request (h : Agree st.spending clock s t) (hc : clock ≤ now) (req : Request) :
    Agree st.spending now (step st s (.request req now)) t := by
  obtain ⟨⟨history, hs, ht⟩, hverdicts⟩ := h
  refine ⟨⟨history, handle_tracks hs hc s.db req, ht.later hc⟩, ?_⟩
  rw [step, verdicts_append, hverdicts]
  exact List.append_nil _

theorem run_agree (as : List Action) (h : Agree st.spending clock s t)
    (hclock : (clock :: as.flatMap readings).Pairwise (· ≤ ·)) :
    verdicts (run (step st) s as).journal =
      verdicts (run (step st) t (as.filter fun a => !isRequest a)).journal := by
  induction as generalizing clock s t with
  | nil => exact h.verdicts
  | cons a as ih =>
    rw [List.flatMap_cons] at hclock
    obtain ⟨ha, hnext⟩ := pairwise_split hclock
    cases a with
    | guard amount now now' =>
      simp only [readings, List.pairwise_cons, List.mem_cons] at ha
      exact ih (h.guard (ha.1 now (.inl rfl)) (ha.2.1 now' (.inl rfl)) amount) hnext
    | save guarded result => exact ih (h.save guarded result) hnext
    | request req now =>
      have hc : clock ≤ now := (List.pairwise_cons.mp ha).1 now (List.mem_singleton_self now)
      exact ih (h.request hc req) hnext

theorem publicResponses_append (xs ys : List Output) :
    publicResponses st (xs ++ ys) = publicResponses st xs ++ publicResponses st ys :=
  List.filterMap_append

theorem handle_public {req : Request} (h : req.seesSpending st = false) (db : Table)
    (u v : Spending.Tracker.State) (now : ℤ) :
    (handle st db u req now).1 = (handle st db v req now).1 := by
  unfold handle
  split
  · rfl
  · split
    · rfl
    · split
      · rename_i hspending
        split
        · rfl
        · rename_i hauthenticated
          rw [Request.seesSpending, hspending, Bool.true_and] at h
          rw [h] at hauthenticated
          exact absurd rfl hauthenticated
      · rfl

def observe (st : Settings) (s : System) : Table × List Response :=
  (s.db, publicResponses st s.journal)

def apply (st : Settings) (o : Table × List Response) : Effect → Table × List Response
  | .saved result =>
    match saveResult o.1 result with
    | .ok db => (db, o.2)
    | .error _ => o
  | .request req now =>
    (o.1, o.2 ++ if req.seesSpending st then [] else [(handle st o.1 ⟨[], []⟩ req now).1])

theorem observe_step (s : System) (a : Action) :
    observe st (step st s a) =
      (effectOf ⟨s, a, step st s a⟩).toList.foldl (apply st) (observe st s) := by
  cases a with
  | guard amount now now' =>
    simp only [observe, step, publicResponses_append]
    exact congrArg (Prod.mk s.db) (List.append_nil _)
  | save guarded result =>
    simp only [step, effectOf]
    cases s.passed guarded with
    | false => rfl
    | true =>
      simp only [if_true, Option.toList_some, List.foldl_cons, List.foldl_nil, apply, observe]
      cases saveResult s.db result <;> rfl
  | request req now =>
    simp only [observe, step, publicResponses_append, effectOf, Option.toList_some,
      List.foldl_cons, List.foldl_nil, apply]
    refine congrArg (fun rs => (s.db, publicResponses st s.journal ++ rs)) ?_
    cases hsees : req.seesSpending st with
    | true => simp [publicResponses, hsees]
    | false => simp [publicResponses, hsees, handle_public hsees s.db s.tracker ⟨[], []⟩ now]

theorem observe_run (as : List Action) :
    observe st (run (step st) started as) =
      ((trace (step st) started as).filterMap effectOf).foldl (apply st) (observe st started) := by
  refine run_induction (R := fun ts s => observe st s =
    (ts.filterMap effectOf).foldl (apply st) (observe st started)) rfl (fun ts s a h => ?_) as
  rw [List.filterMap_append, List.foldl_append, ← h, observe_step]
  cases heffect : effectOf ⟨s, a, step st s a⟩ with
  | none => rw [List.filterMap_cons_none heffect, List.filterMap_nil, Option.toList_none]
  | some e => rw [List.filterMap_cons_some heffect, List.filterMap_nil, Option.toList_some]

/-- The clock never goes back. -/
def Chronological (as : List Action) : Prop := (as.flatMap readings).Pairwise (· ≤ ·)

instance (as : List Action) : Decidable (Chronological as) :=
  inferInstanceAs (Decidable ((as.flatMap readings).Pairwise (· ≤ ·)))

theorem splitOn_cases (x : Char) (cs : List Char) :
    (x ∉ cs ∧ cs.splitOn x = [cs]) ∨
      ∃ front back, cs = front ++ x :: back ∧ x ∉ front ∧
        cs.splitOn x = front :: back.splitOn x := by
  by_cases h : x ∈ cs
  · obtain ⟨front, back, rfl, hfront⟩ := List.eq_append_cons_of_mem h
    exact .inr ⟨front, back, rfl, hfront, List.splitOn_append_cons_self_of_not_mem hfront back⟩
  · exact .inl ⟨h, List.splitOn_eq_singleton h⟩

theorem splitOn_eq_cons_cons {x : Char} {cs scheme token : List Char} {rest : List (List Char)}
    (h : cs.splitOn x = scheme :: token :: rest) :
    ∃ back, cs = scheme ++ x :: (token ++ back) ∧ x ∉ token ∧
      (back = [] ∨ back.head? = some x) := by
  obtain ⟨-, hsplit⟩ | ⟨front, tail, rfl, -, hsplit⟩ := splitOn_cases x cs
  · rw [hsplit] at h
    cases h
  · rw [hsplit] at h
    obtain ⟨rfl, htail⟩ := List.cons.inj h
    obtain ⟨hmem, hsplit⟩ | ⟨word, back, rfl, hmem, hsplit⟩ := splitOn_cases x tail
    · rw [hsplit] at htail
      obtain rfl := (List.cons.inj htail).1
      exact ⟨[], by rw [List.append_nil], hmem, .inl rfl⟩
    · rw [hsplit] at htail
      obtain rfl := (List.cons.inj htail).1
      exact ⟨x :: back, rfl, hmem, .inr rfl⟩

/-- What a caller has to send: the secret as the second word, after `bearer`. A secret of more than
one word lets nobody in. -/
def Bears (secret auth : String) : Prop :=
  ∃ scheme back, auth.toList = scheme ++ ' ' :: (secret.toList ++ back) ∧
    scheme.map Char.toLower = "bearer".toList ∧ ' ' ∉ secret.toList ∧
    (back = [] ∨ back.head? = some ' ')

theorem isAuthenticated_iff {secret auth : String} (hsecret : secret ≠ "") :
    isAuthenticated (some secret) (some auth) = true ↔ Bears secret auth := by
  simp only [isAuthenticated, if_neg hsecret]
  refine ⟨fun h => ?_, fun h => ?_⟩
  · split at h
    · cases h
    · split at h
      · rename_i scheme token rest hsplit
        simp only [Bool.and_eq_true, decide_eq_true_eq] at h
        obtain ⟨hscheme, rfl⟩ := h
        obtain ⟨back, hauth, htoken, hback⟩ := splitOn_eq_cons_cons hsplit
        exact ⟨scheme, back, hauth, hscheme, htoken, hback⟩
      · cases h
  · obtain ⟨scheme, back, hauth, hscheme, htoken, hback⟩ := h
    have hne : auth ≠ "" := by
      rintro rfl
      simp at hauth
    have hspace : ' ' ∉ scheme := by
      intro hmem
      have hlower := List.mem_map_of_mem (f := Char.toLower) hmem
      rw [hscheme] at hlower
      exact absurd hlower (by decide)
    have hsplit : ∃ rest, auth.toList.splitOn ' ' = scheme :: secret.toList :: rest := by
      rw [hauth, List.splitOn_append_cons_self_of_not_mem hspace]
      obtain rfl | hhead := hback
      · exact ⟨[], by rw [List.append_nil, List.splitOn_eq_singleton htoken]⟩
      · obtain ⟨tail, rfl⟩ : ∃ tail, back = ' ' :: tail := by
          cases back with
          | nil => cases hhead
          | cons c tail => exact ⟨tail, by rw [Option.some.inj hhead]⟩
        exact ⟨_, by rw [List.splitOn_append_cons_self_of_not_mem htoken]⟩
    obtain ⟨rest, hsplit⟩ := hsplit
    simp only [if_neg hne, hsplit, hscheme, decide_true, Bool.and_self]

/-- The server and the guards share the tracker, and do not notice each other: whatever is
requested, the guards decide as if nothing was; and however the guards decide, those who may not
see the spending are told what follows from the results that were saved and from nothing else. -/
theorem server_beside_guards (st : Settings) (as : List Action) (hclock : Chronological as) :
    verdicts (run (step st) started as).journal =
        verdicts (run (step st) started (as.filter fun a => !isRequest a)).journal ∧
      (∀ bs, (trace (step st) started bs).filterMap effectOf =
          (trace (step st) started as).filterMap effectOf →
        publicResponses st (run (step st) started bs).journal =
          publicResponses st (run (step st) started as).journal) ∧
      ∀ secret, secret ≠ "" → st.webhookSecret = some secret → ∀ req : Request,
        req.seesSpending st = true ↔ req.method = "GET" ∧ req.url = "/spending" ∧
          ∃ auth, req.authorization = some auth ∧ Bears secret auth := by
  refine ⟨?_, fun bs heffects => ?_, fun secret hne hsecret req => ?_⟩
  · refine run_agree as ⟨⟨[], ?_, ?_⟩, rfl⟩ (pairwise_headD_cons hclock 0)
    · exact Tracks.empty st.spending _
    · exact Tracks.empty st.spending _
  · have hobserve : observe st (run (step st) started bs) =
        observe st (run (step st) started as) := by
      rw [observe_run, observe_run, heffects]
    exact congrArg Prod.snd hobserve
  · rw [Request.seesSpending, hsecret, Bool.and_eq_true, Bool.and_eq_true, decide_eq_true_eq,
      decide_eq_true_eq, and_assoc]
    refine and_congr_right fun _ => and_congr_right fun _ => ?_
    cases req.authorization with
    | none => simp [isAuthenticated, hne]
    | some auth => simp [isAuthenticated_iff hne]

def exampleSettings : Settings where
  spending := hundred
  publicKey := "GAGENT"
  webhookSecret := some "s"
  numberText := fun q => toString q.num

theorem server_beside_guards_example :
    let as : List Action := [.guard (some "60") 0 0, .request ⟨"GET", "/spending", none⟩ 5,
      .request ⟨"GET", "/spending", some "Bearer s"⟩ 1500, .guard (some "60") 1600 1601]
    verdicts (run (step exampleSettings) started as).journal =
      verdicts (run (step exampleSettings) started (as.filter fun a => !isRequest a)).journal :=
  (server_beside_guards exampleSettings _ (by decide)).1

end PayFi.Agent.Server
