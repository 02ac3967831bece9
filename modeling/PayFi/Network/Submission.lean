import Mathlib.Data.Int.Notation
import Mathlib.Data.List.Infix
import PayFi.Library.Retry

namespace PayFi.Network.Submission

open Library.Retry

/-- A failed check of a schema, with the field it is about. -/
structure Issue where
  path : List String
  message : String
  deriving DecidableEq

/-- What a tool or the client can throw. -/
inductive Fault where
  | zod (issues : List Issue)
  | type (message : String)
  | rateLimit (retryAfterSeconds : ℕ)
  | stellarRPC (message : String)
  | error (message : String)
  deriving DecidableEq

def Fault.message : Fault → String
  | .zod issues => "\n".intercalate (issues.map Issue.message)
  | .type message => message
  | .rateLimit retryAfterSeconds =>
    "Rate limited. Retry after " ++ toString retryAfterSeconds ++ " seconds"
  | .stellarRPC message => message
  | .error message => message

def includes (s text : String) : Bool := text.toList <:+: s.toList

def isRetryable : Fault → Bool
  | .zod _ => false
  | .type _ => false
  | .rateLimit _ => true
  | e => !(includes e.message "budget_exceeded" || includes e.message "simulation failed")

def isRateLimit : Fault → Bool
  | .rateLimit _ => true
  | _ => false

def noteError (e : Fault) : Fault := if includes e.message "429" then .rateLimit 30 else e

variable {σ α : Type}

def fatal (e : Fault) : Bool := !isRetryable e && !isRateLimit e

def attempt (isThrottled : ℕ → Bool) (fn : ℕ → σ → Except Fault α × σ) (k : ℕ) (s : σ) :
    Except Fault α × σ :=
  if isThrottled k then (.error (.rateLimit 30), s) else fn k s

/-- Attempts until one succeeds, fails for good, or none are left. -/
def withRetry (retries : ℕ) (isThrottled : ℕ → Bool) (fn : ℕ → σ → Except Fault α × σ) (s : σ) :
    Except Fault α × σ :=
  match retry fatal noteError (attempt isThrottled fn) retries 1 none s with
  | (.done a, s) => (.ok a, s)
  | (.fatal e, s) => (.error e, s)
  | (.exhausted last, s) =>
    (.error (.stellarRPC ("RPC call failed after " ++ toString retries ++ " attempt(s): " ++
      (last.map Fault.message).getD "unknown error")), s)

structure Transaction (Op : Type) where
  sequence : ℤ
  operation : Op
  deriving DecidableEq

/-- The source account's sequence number, and the transactions of one call of a tool
that have been applied. -/
structure Ledger (Op : Type) where
  sequence : ℤ
  applied : List (Transaction Op)
  deriving DecidableEq

structure SubmitResult where
  hash : Option String
  ledger : Option ℕ
  deriving DecidableEq

/-- What the ledger does with a transaction that carries the next sequence number. -/
inductive Fate where
  | applied (result : SubmitResult)
  | failed (e : Fault)
  | dropped (e : Fault)

/-- What an attempt meets: the backoff, other transactions of the account that have
used up sequence numbers, the ledger, and an error on the way back. -/
structure Attempt where
  throttled : Bool
  others : ℕ
  fate : Fate
  lost : Option Fault

/-- What a submission meets: a refusal before the first attempt, or its attempts. -/
structure Script where
  refused : Option Fault
  attempts : ℕ → Attempt

variable {Op : Type}

def badSequence : Fault := .error "tx_bad_seq"

def apply (tx : Transaction Op) (l : Ledger Op) : Fate → Except Fault SubmitResult × Ledger Op
  | .applied result => (.ok result, ⟨tx.sequence, l.applied ++ [tx]⟩)
  | .failed e => (.error e, { l with sequence := tx.sequence })
  | .dropped e => (.error e, l)

def reach (tx : Transaction Op) (l : Ledger Op) (fate : Fate) :
    Except Fault SubmitResult × Ledger Op :=
  if tx.sequence = l.sequence + 1 then apply tx l fate else (.error badSequence, l)

def send (tx : Transaction Op) (a : Attempt) (l : Ledger Op) :
    Except Fault SubmitResult × Ledger Op :=
  let (answer, l) := reach tx { l with sequence := l.sequence + a.others } a.fate
  (a.lost.elim answer .error, l)

def submitTransaction (retries : ℕ) (s : Script) (tx : Transaction Op) (l : Ledger Op) :
    Except Fault SubmitResult × Ledger Op :=
  match s.refused with
  | some e => (.error e, l)
  | none =>
    withRetry retries (fun k => (s.attempts k).throttled) (fun k => send tx (s.attempts k)) l

variable {tx : Transaction Op} {l₀ l : Ledger Op}

def report (retries : ℕ) : Option (Except Fault α) → Except Fault α
  | none =>
    .error (.stellarRPC ("RPC call failed after " ++ toString retries ++ " attempt(s): " ++
      "unknown error"))
  | some (.ok a) => .ok a
  | some (.error e) => if fatal e then .error e else
    .error (.stellarRPC ("RPC call failed after " ++ toString retries ++ " attempt(s): " ++
      (noteError e).message))

theorem withRetry_report (retries : ℕ) (isThrottled : ℕ → Bool) (fn : ℕ → σ → Except Fault α × σ)
    (s : σ) : ∃ n, Made fatal (attempt isThrottled fn) s retries n ∧
      withRetry retries isThrottled fn s =
        (report retries (lastAnswer (attempt isThrottled fn) s n),
          states (attempt isThrottled fn) s n) := by
  obtain ⟨n, hmade, hretry⟩ := retry_spec fatal noteError (attempt isThrottled fn) retries s
  refine ⟨n, hmade, ?_⟩
  rw [withRetry, hretry]
  cases lastAnswer (attempt isThrottled fn) s n with
  | none => rfl
  | some out =>
    cases out with
    | ok a => rfl
    | error e =>
      cases hfatal : fatal e with
      | true => simp only [conclude, report, hfatal, if_true]
      | false =>
        simp only [conclude, report, hfatal, Bool.false_eq_true, if_false, Option.map_some,
          Option.getD_some]

theorem withRetry_ok {retries : ℕ} {isThrottled : ℕ → Bool} {fn : ℕ → σ → Except Fault α × σ}
    {s s' : σ} {a : α} (h : withRetry retries isThrottled fn s = (.ok a, s')) :
    ∃ k t, fn k t = (.ok a, s') := by
  rw [withRetry] at h
  split at h
  · rename_i hout
    cases h
    obtain ⟨k, t, hk⟩ := retry_done hout
    by_cases hthrottled : isThrottled k = true
    · simp [attempt, hthrottled] at hk
    · exact ⟨k, t, by simpa [attempt, hthrottled] using hk⟩
  · cases h
  · cases h

theorem send_ok {a : Attempt} {result : SubmitResult} {l' : Ledger Op}
    (h : send tx a l = (.ok result, l')) : l'.applied.getLast? = some tx := by
  simp only [send, reach, Prod.mk.injEq] at h
  obtain ⟨hanswer, rfl⟩ := h
  cases hlost : a.lost with
  | some e => simp [hlost] at hanswer
  | none =>
    by_cases hseq : tx.sequence = l.sequence + a.others + 1
    · simp only [hlost, hseq, if_true, Option.elim_none] at hanswer ⊢
      cases hfate : a.fate with
      | applied result => simp [apply]
      | failed e => simp [hfate, apply] at hanswer
      | dropped e => simp [hfate, apply] at hanswer
    · simp [hlost, hseq] at hanswer

theorem submitTransaction_ok {retries : ℕ} {s : Script} {result : SubmitResult} {l' : Ledger Op}
    (h : submitTransaction retries s tx l = (.ok result, l')) : l'.applied.getLast? = some tx := by
  rw [submitTransaction] at h
  split at h
  · cases h
  · obtain ⟨k, t, hk⟩ := withRetry_ok h
    exact send_ok hk

end PayFi.Network.Submission
