import PayFi.Library.Graphs
import PayFi.Network.Retries

namespace PayFi.Network.Exhaustion

open Agent.Errors Library.Graphs Retries

inductive Primitive where
  | undefined
  | null
  | boolean (b : Bool)
  | number (text : Option String)
  | string (s : String)
  | bigint
  | function (toJSON : Except Unit (Option String))

def Primitive.value : Primitive → Value
  | .undefined => .undefined
  | .null => .null
  | .boolean b => .boolean b
  | .number text => .number text
  | .string s => .string s
  | .bigint => .bigint
  | .function toJSON => .function toJSON

/-- What a property holds: a primitive, or a reference to one of `n` objects. -/
inductive Slot (n : ℕ) where
  | primitive (p : Primitive)
  | reference (a : Fin n)

inductive Node (n : ℕ) where
  | array (slots : List (Slot n))
  | object (entries : List (String × Slot n))

abbrev Heap (n : ℕ) := Fin n → Node n

variable {n : ℕ}

def sanitizeEntries (sanitize : Slot n → Option Value) :
    List (String × Slot n) → Option (List (String × Value))
  | [] => some []
  | (key, slot) :: entries =>
    if sensitiveCauseKeys.contains key then sanitizeEntries sanitize entries
    else do
      let value ← sanitize slot
      let entries ← sanitizeEntries sanitize entries
      return if key = "__proto__" then entries else (key, value) :: entries

/-- `sanitizeCause` on a stack that has room for `depth` calls with objects. -/
def sanitizeCause (heap : Heap n) : ℕ → Slot n → Option Value
  | _, .primitive p => some p.value
  | 0, .reference _ => none
  | depth + 1, .reference a =>
    match heap a with
    | .array slots => (slots.mapM (sanitizeCause heap depth)).map .array
    | .object entries => (sanitizeEntries (sanitizeCause heap depth) entries).map .object

/-- The slots that `sanitizeCause` goes into. -/
def Node.kept : Node n → List (Slot n)
  | .array slots => slots
  | .object entries => (entries.filter fun e => !sensitiveCauseKeys.contains e.1).map Prod.snd

def Edge (heap : Heap n) (a b : Fin n) : Prop := .reference b ∈ (heap a).kept

def value (heap : Heap n) : ℕ → Slot n → Value
  | _, .primitive p => p.value
  | 0, .reference _ => .cyclic
  | depth + 1, .reference a =>
    match heap a with
    | .array slots => .array (slots.map (value heap depth))
    | .object entries => .object (entries.map fun e => (e.1, value heap depth e.2))

variable {heap : Heap n} {a : Fin n} {k : ℕ}

theorem isSome_mapM {f : Slot n → Option Value} {slots : List (Slot n)} :
    (slots.mapM f).isSome = true ↔ ∀ s ∈ slots, (f s).isSome = true := by
  induction slots with
  | nil => simp
  | cons s slots ih =>
    rw [List.mapM_cons, List.forall_mem_cons, ← ih]
    cases f s <;> cases slots.mapM f <;> simp

theorem isSome_sanitizeEntries {f : Slot n → Option Value} {entries : List (String × Slot n)} :
    (sanitizeEntries f entries).isSome = true ↔
      ∀ s ∈ (Node.object entries).kept, (f s).isSome = true := by
  induction entries with
  | nil => simp [sanitizeEntries, Node.kept]
  | cons e entries ih =>
    obtain ⟨key, slot⟩ := e
    rw [Node.kept] at ih ⊢
    rw [sanitizeEntries, List.filter_cons]
    by_cases hkey : sensitiveCauseKeys.contains key = true
    · rw [if_pos hkey, if_neg (by simpa using hkey), ih]
    · rw [if_neg hkey, if_pos (by simpa using hkey), List.map_cons, List.forall_mem_cons, ← ih]
      cases f slot <;> cases sanitizeEntries f entries <;> simp

theorem isSome_iff_within :
    (sanitizeCause heap k (.reference a)).isSome = true ↔ Within (Edge heap) k a := by
  induction k generalizing a with
  | zero => simp [sanitizeCause, Within]
  | succ k ih =>
    have hstep : (sanitizeCause heap (k + 1) (.reference a)).isSome = true ↔
        ∀ s ∈ (heap a).kept, (sanitizeCause heap k s).isSome = true := by
      rw [sanitizeCause]
      cases heap a with
      | array slots => rw [Option.isSome_map, isSome_mapM, Node.kept]
      | object entries => rw [Option.isSome_map, isSome_sanitizeEntries]
    rw [hstep, Within]
    constructor
    · intro h b hb
      exact ih.mp (h _ hb)
    · intro h s hs
      cases s with
      | primitive p => cases k <;> rfl
      | reference b => exact ih.mpr (h b hs)

/-- `sanitizeCause` comes to an end exactly where the properties that it follows lead to no
cycle. -/
theorem terminates_iff :
    (∃ depth cause, sanitizeCause heap depth (.reference a) = some cause) ↔
      ¬ Cyclic (Edge heap) a := by
  simp only [← exists_within_iff, ← isSome_iff_within, Option.isSome_iff_exists]

theorem value_isThrowing (heap : Heap n) (k : ℕ) (s : Slot n) :
    (value heap k s).isThrowing = false := by
  cases s with
  | primitive p => cases k <;> cases p <;> rfl
  | reference a =>
    cases k with
    | zero => rfl
    | succ k =>
      rw [value]
      cases heap a <;> rfl

theorem sanitizeAll_map {f : Slot n → Value} {g : Slot n → Option Value}
    (h : ∀ s, Agent.Errors.sanitizeCause (f s) = (g s).elim (.error ()) .ok)
    (slots : List (Slot n)) :
    sanitizeAll (slots.map f) = (slots.mapM g).elim (.error ()) .ok := by
  induction slots with
  | nil => rfl
  | cons s slots ih =>
    rw [List.map_cons, sanitizeAll, h, ih, List.mapM_cons]
    cases g s <;> cases slots.mapM g <;> rfl

theorem sanitizeEntries_map {f : Slot n → Value} {g : Slot n → Option Value}
    (h : ∀ s, Agent.Errors.sanitizeCause (f s) = (g s).elim (.error ()) .ok)
    (entries : List (String × Slot n)) :
    Agent.Errors.sanitizeEntries (entries.map fun e => (e.1, f e.2)) =
      (sanitizeEntries g entries).elim (.error ()) .ok := by
  induction entries with
  | nil => rfl
  | cons e entries ih =>
    obtain ⟨key, slot⟩ := e
    rw [List.map_cons, Agent.Errors.sanitizeEntries, h, ih, sanitizeEntries]
    by_cases hkey : sensitiveCauseKeys.contains key = true
    · rw [if_pos hkey, if_pos hkey]
    · rw [if_neg hkey, if_neg hkey]
      cases g slot <;> cases sanitizeEntries g entries <;> rfl

/-- The recursion sees of a graph what it sees of its tree, and a tree that is cut off is too
deep for its stack. -/
theorem sanitizeCause_value (heap : Heap n) (k : ℕ) (s : Slot n) :
    Agent.Errors.sanitizeCause (value heap k s) =
      (sanitizeCause heap k s).elim (.error ()) .ok := by
  induction k generalizing s with
  | zero =>
    cases s with
    | primitive p => cases p <;> rfl
    | reference a => rfl
  | succ k ih =>
    cases s with
    | primitive p => cases p <;> rfl
    | reference a =>
      rw [value, sanitizeCause]
      cases heap a with
      | array slots =>
        dsimp only
        rw [Agent.Errors.sanitizeCause, sanitizeAll_map ih]
        cases slots.mapM (sanitizeCause heap k) <;> rfl
      | object entries =>
        have hreadable : entriesReadable (entries.map fun e => (e.1, value heap k e.2)) =
            .ok () := by
          have hany : (entries.map fun e => (e.1, value heap k e.2)).any
              (fun e => e.2.isThrowing) = false := by
            simp [value_isThrowing]
          rw [entriesReadable, hany]
          rfl
        dsimp only
        rw [Agent.Errors.sanitizeCause, hreadable, sanitizeEntries_map ih]
        cases sanitizeEntries (sanitizeCause heap k) entries <;> rfl

inductive Form where
  | error (kind : ErrorClass) (message : String)
  | other (text : String)

/-- An object that is thrown, which is an error, or something else with its `String` text. -/
structure Raised (n : ℕ) where
  heap : Heap n
  address : Fin n
  entries : List (String × Slot n)
  stored : heap address = .object entries
  form : Form

/-- A tree of `n` calls and more has all there is in a graph without cycles, and three calls lead
to the header that `withRetry` looks for. -/
def Raised.properties (err : Raised n) : List (String × Value) :=
  err.entries.map fun e => (e.1, value err.heap (n + 2) e.2)

def Raised.failure (err : Raised n) : Failure :=
  match err.form with
  | .error kind message => .error ⟨kind, message, err.properties⟩
  | .other text => .other (.object err.properties) text

theorem Raised.failure_value (err : Raised n) :
    err.failure.value = value err.heap (n + 3) (.reference err.address) := by
  rw [value, err.stored, Raised.failure]
  cases err.form <;> rfl

theorem lookup_map (f : Slot n → Value) (entries : List (String × Slot n)) (key : String) :
    (entries.map fun e => (e.1, f e.2)).lookup key = (entries.lookup key).map f := by
  induction entries with
  | nil => rfl
  | cons e entries ih =>
    rw [List.map_cons, List.lookup_cons, List.lookup_cons, ih]
    cases key == e.1 <;> rfl

theorem property_object (heap : Heap n) (k : ℕ) (entries : List (String × Slot n))
    (key : String) :
    ∃ s, (Value.object (entries.map fun e => (e.1, value heap k e.2))).property key =
      .ok (value heap k s) := by
  rw [Value.property, lookup_map]
  cases entries.lookup key with
  | none => exact ⟨.primitive .undefined, by cases k <;> rfl⟩
  | some s =>
    refine ⟨s, ?_⟩
    have hreadable := value_isThrowing heap k s
    rw [Option.map_some]
    cases hs : value heap k s with
    | throwing =>
      rw [hs] at hreadable
      cases hreadable
    | _ => rfl

theorem optional_value (heap : Heap n) (k : ℕ) (s : Slot n) (key : String) :
    ∃ j t, (value heap k s).optional key = .ok (value heap j t) := by
  cases s with
  | primitive p => exact ⟨0, .primitive .undefined, by cases k <;> cases p <;> rfl⟩
  | reference a =>
    cases k with
    | zero => exact ⟨0, .primitive .undefined, rfl⟩
    | succ k =>
      rw [value]
      cases heap a with
      | array slots => exact ⟨0, .primitive .undefined, rfl⟩
      | object entries => exact ⟨k, property_object heap k entries key⟩

theorem extractRetryAfterHeader_ok (err : Raised n) (kind : ErrorClass) (message : String) :
    ∃ header, extractRetryAfterHeader ⟨kind, message, err.properties⟩ = .ok header := by
  obtain ⟨s, hresponse⟩ := property_object err.heap (n + 2) err.entries "response"
  obtain ⟨i, t, hheaders⟩ := optional_value err.heap (n + 2) s "headers"
  obtain ⟨j, u, hheader⟩ := optional_value err.heap i t "retry-after"
  rw [extractRetryAfterHeader, Raised.properties, hresponse]
  simp only [bind, Except.bind, hheaders, hheader]
  exact ⟨_, rfl⟩

variable {err : Raised n} {α : Type} {o : Options} {s : Script α} {attempt m : ℕ}

def IsLast (err : Raised n) (lastErr : Failure) : Prop :=
  lastErr = err.failure ∨ lastErr = rateLimitError 30

theorem detectLimit_failure (err : Raised n) (attempt : ℕ) :
    ∃ lastErr events, detectLimit attempt err.failure = (.ok lastErr, events) ∧
      IsLast err lastErr := by
  rw [Raised.failure]
  cases hform : err.form with
  | other text => exact ⟨_, _, rfl, .inl (by rw [Raised.failure, hform])⟩
  | error kind message =>
    simp only [detectLimit]
    split
    · obtain ⟨header, hheader⟩ := extractRetryAfterHeader_ok err kind message
      rw [hheader]
      exact ⟨_, _, rfl, .inr rfl⟩
    · exact ⟨_, _, rfl, .inl (by rw [Raised.failure, hform])⟩

theorem hasMessage_failure (err : Raised n) : err.failure.hasMessage = true := by
  rw [Raised.failure]
  cases err.form with
  | error kind message => rfl
  | other text =>
    obtain ⟨s, hmessage⟩ := property_object err.heap (n + 2) err.entries "message"
    rw [Failure.hasMessage, Raised.properties, hmessage]
    rfl

theorem handleError_failure (s : Script α) (attempt : ℕ)
    (hretried : isRetried o err.failure = true) :
    ∃ lastErr events, handleError o s attempt err.failure = (.ok lastErr, events) ∧
      IsLast err lastErr := by
  obtain ⟨lastErr, events, hdetect, hlast⟩ := detectLimit_failure err attempt
  have hnot : (!o.isRetryable err.failure && !isRateLimitError err.failure) = false := by
    rw [isRetried] at hretried
    rw [← Bool.not_or, hretried]
    rfl
  simp only [handleError, hdetect, hnot, hasMessage_failure, Bool.false_eq_true, if_false,
    Bool.not_true]
  split
  · exact ⟨_, _, rfl, hlast⟩
  · exact ⟨_, _, rfl, hlast⟩

theorem handleError_rateLimit (o : Options) (s : Script α) (attempt : ℕ) :
    ∃ events, handleError o s attempt (rateLimitError 30) = (.ok (rateLimitError 30), events) := by
  have hdetect : detectLimit attempt (rateLimitError 30) = (.ok (rateLimitError 30), []) := rfl
  have hlimit : isRateLimitError (rateLimitError 30) = true := rfl
  have hmessage : (rateLimitError 30).hasMessage = true := rfl
  simp only [handleError, hdetect, hlimit, hmessage, Bool.not_true, Bool.and_false,
    Bool.false_eq_true, if_false]
  split
  · exact ⟨_, rfl⟩
  · exact ⟨_, rfl⟩

def Reported (result : Except Rejection α) : Prop :=
  ∃ message cause, result = .error (.stellarRPCError message cause)

/-- All attempts fail with the object, as far as they are made. -/
def AlwaysFails (err : Raised n) (o : Options) (s : Script α) : Prop :=
  ∀ k, 1 ≤ k → k ≤ o.retries → s.fn k = .error err.failure

theorem loop_failure (hretried : isRetried o err.failure = true)
    (hfails : s.fn attempt = .error err.failure) (m : ℕ) (lastErr : Option Failure) :
    ∃ kept, IsLast err kept ∧
      (loop o s (m + 1) attempt lastErr).1 = (loop o s m (attempt + 1) (some kept)).1 := by
  by_cases hthrottled : s.isThrottled attempt = true
  · obtain ⟨events, hhandle⟩ := handleError_rateLimit o s attempt
    refine ⟨_, .inr rfl, ?_⟩
    simp only [loop, tryCall, hthrottled, if_true, hhandle]
  · obtain ⟨kept, events, hhandle, hkept⟩ := handleError_failure s attempt hretried
    refine ⟨kept, hkept, ?_⟩
    simp only [loop, tryCall, hthrottled, Bool.false_eq_true, if_false, hfails, hhandle]

theorem exhausted_of_clean (retries : ℕ) (lastErr : Option Failure)
    (h : ∃ cause, Agent.Errors.sanitizeCause (lastErr.elim .undefined Failure.value) =
      .ok cause) :
    Reported (.error (exhausted retries lastErr) : Except Rejection α) := by
  obtain ⟨cause, hcause⟩ := h
  rw [exhausted, hcause]
  exact ⟨_, _, rfl⟩

theorem clean_of_acyclic (hacyclic : ¬ Cyclic (Edge err.heap) err.address) :
    ∃ cause, Agent.Errors.sanitizeCause err.failure.value = .ok cause := by
  have hwithin : Within (Edge err.heap) (n + 3) err.address :=
    (within_card hacyclic).mono (by simp)
  obtain ⟨cause, hcause⟩ := Option.isSome_iff_exists.mp (isSome_iff_within.mpr hwithin)
  exact ⟨cause, by rw [err.failure_value, sanitizeCause_value, hcause]; rfl⟩

theorem loop_reported (hacyclic : ¬ Cyclic (Edge err.heap) err.address)
    (hretried : isRetried o err.failure = true) (hfails : AlwaysFails err o s)
    {lastErr : Option Failure} (hlast : ∀ kept ∈ lastErr, IsLast err kept) (hattempt : 1 ≤ attempt)
    (hm : attempt + m = o.retries + 1) : Reported (loop o s m attempt lastErr).1 := by
  induction m generalizing attempt lastErr with
  | zero =>
    rw [loop]
    cases lastErr with
    | none => exact exhausted_of_clean _ none ⟨.undefined, rfl⟩
    | some kept =>
      apply exhausted_of_clean _ (some kept)
      obtain rfl | rfl := hlast kept rfl
      · exact clean_of_acyclic hacyclic
      · exact ⟨(rateLimitError 30).value, rfl⟩
  | succ m ih =>
    obtain ⟨kept, hkept, hloop⟩ :=
      loop_failure hretried (hfails attempt hattempt (by omega)) m lastErr
    rw [hloop]
    refine ih (fun kept' h => ?_) (by omega) (by omega)
    cases h
    exact hkept

theorem unclean_of_cyclic (hcyclic : Cyclic (Edge err.heap) err.address) :
    Agent.Errors.sanitizeCause err.failure.value = .error () := by
  rw [err.failure_value, sanitizeCause_value]
  cases hcause : sanitizeCause err.heap (n + 3) (.reference err.address) with
  | none => rfl
  | some cause => exact absurd hcyclic (terminates_iff.mp ⟨_, _, hcause⟩)

theorem withRetry_of_cyclic (hcyclic : Cyclic (Edge err.heap) err.address)
    (hlimit : ∀ attempt, detectLimit attempt err.failure = (.ok err.failure, [])) :
    (withRetry ⟨1, 0, 0, fun _ => true⟩ (⟨fun _ => .error err.failure, fun _ => false,
      fun _ => noJitter⟩ : Script α)).1 = .error .unreadable := by
  simp only [withRetry, loop, tryCall, handleError, hlimit, hasMessage_failure, Bool.not_true,
    Bool.false_and, Bool.false_eq_true, if_false, Nat.lt_irrefl, exhausted, Option.elim_some,
    unclean_of_cyclic hcyclic]

/-- The recursion on what has been thrown comes to an end, and a retry that is exhausted with it
reports it, exactly if the properties that are kept lead to no cycle. -/
theorem exhaustion_reported_iff (err : Raised n) :
    ((∃ depth cause, sanitizeCause err.heap depth (.reference err.address) = some cause) ∧
      ∀ (α : Type) (o : Options) (s : Script α), isRetried o err.failure = true →
        AlwaysFails err o s → Reported (withRetry o s).1) ↔
      ¬ Cyclic (Edge err.heap) err.address := by
  rw [terminates_iff]
  constructor
  · exact fun h => h.1
  · intro hacyclic
    refine ⟨hacyclic, fun α o s hretried hfails => ?_⟩
    exact loop_reported hacyclic hretried hfails (by simp) le_rfl (Nat.add_comm ..)

theorem reported_iff (hlimit : ∀ attempt, detectLimit attempt err.failure =
      (.ok err.failure, [])) :
    (∀ (o : Options) (s : Script α), isRetried o err.failure = true → AlwaysFails err o s →
      Reported (withRetry o s).1) ↔ ¬ Cyclic (Edge err.heap) err.address := by
  constructor
  · intro h hcyclic
    obtain ⟨message, cause, hreported⟩ :=
      h ⟨1, 0, 0, fun _ => true⟩ ⟨fun _ => .error err.failure, fun _ => false, fun _ => noJitter⟩
        rfl fun _ _ _ => rfl
    rw [withRetry_of_cyclic hcyclic hlimit] at hreported
    cases hreported
  · intro hacyclic o s hretried hfails
    exact loop_reported hacyclic hretried hfails (by simp) le_rfl (Nat.add_comm ..)

/-- An error of an HTTP client, whose request and response know each other. -/
def httpError : Raised 3 where
  heap := fun
    | 0 => .object [("request", .reference 1), ("response", .reference 2)]
    | 1 => .object [("method", .primitive (.string "POST")), ("res", .reference 2)]
    | 2 => .object [("status", .primitive (.number (some "503"))), ("req", .reference 1)]
  address := 0
  entries := [("request", .reference 1), ("response", .reference 2)]
  stored := rfl
  form := .error .other "Request failed with status code 503"

theorem httpError_cyclic : Cyclic (Edge httpError.heap) httpError.address := by
  have hrequest : Edge httpError.heap 0 1 := by
    simp [Edge, httpError, Node.kept, sensitiveCauseKeys]
  have hresponse : Edge httpError.heap 1 2 := by
    simp [Edge, httpError, Node.kept, sensitiveCauseKeys]
  have hback : Edge httpError.heap 2 1 := by simp [Edge, httpError, Node.kept, sensitiveCauseKeys]
  exact ⟨1, .single hrequest, .tail (.single hresponse) hback⟩

theorem detectLimit_httpError (attempt : ℕ) :
    detectLimit attempt httpError.failure = (.ok httpError.failure, []) := by
  have hlimit : Submission.includes "Request failed with status code 503" "429" = false := by
    decide +kernel
  simp only [detectLimit, Raised.failure, httpError, hlimit, Bool.false_eq_true, if_false]

/-- The recursion on the error of the client has no end, and what is reported in its place says
nothing about the request. -/
theorem exhaustion_unreported :
    ¬ ((∃ depth cause, sanitizeCause httpError.heap depth (.reference httpError.address) =
        some cause) ∧
      ∀ (α : Type) (o : Options) (s : Script α), isRetried o httpError.failure = true →
        AlwaysFails httpError o s → Reported (withRetry o s).1) ∧
      (withRetry ⟨1, 0, 0, fun _ => true⟩ (⟨fun _ => .error httpError.failure, fun _ => false,
        fun _ => noJitter⟩ : Script Unit)).1 = .error .unreadable := by
  refine ⟨fun h => ?_, withRetry_of_cyclic httpError_cyclic detectLimit_httpError⟩
  exact terminates_iff.mp h.1 httpError_cyclic

end PayFi.Network.Exhaustion
