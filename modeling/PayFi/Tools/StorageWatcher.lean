import PayFi.Library.Machine
import PayFi.Library.Maps
import PayFi.Network.Retries

namespace PayFi.Tools.StorageWatcher

open Library.Machine Library.Maps Network.Retries

/-- A key or a value as the server sends it: a text, XDR, or anything else with its text. -/
inductive Field where
  | string (s : String)
  | xdr (base64 : String)
  | other (text : String)
  deriving DecidableEq

def Field.toXDR : Field → String
  | .string s => s
  | .xdr base64 => base64
  | .other text => text

structure LedgerEntryResult where
  key : Field
  val : Field
  deriving DecidableEq

structure Response where
  entries : Option (List LedgerEntryResult)
  latestLedger : Option ℕ
  deriving DecidableEq

structure StorageChangeEvent where
  key : Field
  keyXdr : String
  oldValue : Option String
  newValue : Option String
  entry : Option LedgerEntryResult
  ledger : Option ℕ
  deriving DecidableEq

/-- The base64 texts of the watched keys, and what becomes of another key. -/
structure Options where
  keys : List String
  normalizeLedgerKey : String → Except Failure Field
  maxPolls : Option ℕ
  initialState : Option (List (String × String))

inductive EventName where
  | change
  | poll
  | error
  | done
  deriving DecidableEq

/-- Who has listeners for which events: a tool, or the handle of `watchContractStorage`. -/
inductive Listeners where
  | tool (names : List EventName)
  | handle (names : List EventName)

/-- `emit` of an emitter, which throws for an error without a listener. -/
def emitterEmits (names : List EventName) (name : EventName) : Bool :=
  name ≠ .error || names.contains name

/-- `emit` of the tool, which `watchContractStorage` passes on to the handle. -/
def Listeners.emits : Listeners → EventName → Bool
  | .tool names, name => emitterEmits names name
  | .handle names, name =>
    emitterEmits [.change, .poll, .done, .error] name && emitterEmits names name

/-- What the watcher has emitted, and the calls of `stop` from outside. -/
inductive Event where
  | change (e : StorageChangeEvent)
  | poll (pollCount : ℕ) (entries : List LedgerEntryResult)
  | error (err : Failure)
  | done (totalPolls : ℕ)
  | stop

abbrev Cache := OrderedMap String String

/-- The fields of the tool, the timers that are set and their next number, the polls that wait for
the server, the listeners, and the events so far. -/
structure Watcher where
  pollCount : ℕ
  isStopped : Bool
  isInitialized : Bool
  timerId : Option ℕ
  stateCache : Cache
  timers : List ℕ
  nextTimer : ℕ
  running : ℕ
  listeners : Listeners
  journal : List Event

def Watcher.log (s : Watcher) (x : Event) : Watcher := { s with journal := s.journal ++ [x] }

def currentMap (entries : List LedgerEntryResult) :
    OrderedMap String (LedgerEntryResult × String) :=
  entries.foldl (fun m entry => m.set entry.key.toXDR (entry, entry.val.toXDR)) .empty

def setBaseline (s : Watcher) (x : String × LedgerEntryResult × String) : Watcher :=
  { s with stateCache := s.stateCache.set x.1 x.2.2 }

def watchedKey (o : Options) (keyXdr : String) : Option Field :=
  if o.keys.contains keyXdr then some (.xdr keyXdr) else none

def setModified (o : Options) (ledger : Option ℕ) (s : Watcher)
    (x : String × LedgerEntryResult × String) : Watcher :=
  let (keyXdr, entry, valXdr) := x
  let prevVal := s.stateCache.get? keyXdr
  if prevVal ≠ some valXdr then
    { s with stateCache := s.stateCache.set keyXdr valXdr }.log (.change
      ⟨(watchedKey o keyXdr).getD entry.key, keyXdr, prevVal, some valXdr, some entry, ledger⟩)
  else s

/-- `n` rounds of the loop over the cache from its slot `i` on, which deletes what the response
does not have. -/
def deleteMissing (o : Options) (ledger : Option ℕ)
    (current : OrderedMap String (LedgerEntryResult × String)) :
    ℕ → ℕ → Watcher → Watcher × Except Failure Unit
  | 0, _, s => (s, .ok ())
  | n + 1, i, s =>
    match s.stateCache.slots[i]? with
    | some (some (prevKeyXdr, prevVal)) =>
      if current.has prevKeyXdr then deleteMissing o ledger current n (i + 1) s
      else
        match (watchedKey o prevKeyXdr).elim (o.normalizeLedgerKey prevKeyXdr) .ok with
        | .error err => (s, .error err)
        | .ok key =>
          deleteMissing o ledger current n (i + 1)
            ({ s with stateCache := s.stateCache.delete prevKeyXdr }.log
              (.change ⟨key, prevKeyXdr, some prevVal, none, none, ledger⟩))
    | _ => deleteMissing o ledger current n (i + 1) s

/-- The try block of `poll` after the answer, up to the event of the poll. -/
def observe (o : Options) (response : Response) (s : Watcher) : Watcher × Except Failure Unit :=
  let current := currentMap (response.entries.getD [])
  if !s.isInitialized then
    ({ current.entries.foldl setBaseline s with isInitialized := true }, .ok ())
  else
    let s := current.entries.foldl (setModified o response.latestLedger) s
    deleteMissing o response.latestLedger current s.stateCache.slots.length 0 s

def stop (s : Watcher) : Watcher :=
  { s with
    isStopped := true
    timerId := none
    timers := s.timers.filter fun id => s.timerId ≠ some id }

def scheduleNext (s : Watcher) : Watcher :=
  if s.isStopped then s
  else { s with
    timerId := some s.nextTimer
    timers := s.timers ++ [s.nextTimer]
    nextTimer := s.nextTimer + 1 }

/-- `poll` up to its await. -/
def poll (s : Watcher) : Watcher :=
  if s.isStopped then s
  else { s with pollCount := s.pollCount + 1, running := s.running + 1 }

inductive Call where
  | stop
  | poll

def call (s : Watcher) : Call → Watcher
  | .stop => (stop s).log .stop
  | .poll => poll s

/-- `poll` after its try block: the last poll, or the next timer. -/
def conclude (o : Options) (s : Watcher) : Watcher :=
  if ∃ m ∈ o.maxPolls, m ≤ s.pollCount then (stop s).log (.done s.pollCount)
  else if s.isStopped then s
  else scheduleNext s

def caught (o : Options) (err : Failure) (calls : List Call) (s : Watcher) : Watcher :=
  if !err.hasMessage then s
  else if !s.listeners.emits .error then s
  else conclude o (calls.foldl call (s.log (.error err)))

abbrev Reactions := EventName → List Call

/-- `poll` from the answer of the server on. -/
def answered (o : Options) (response : Except Failure Response) (calls : Reactions) (s : Watcher) :
    Watcher :=
  match response with
  | .error err => caught o err (calls .error) s
  | .ok r =>
    match observe o r s with
    | (s, .error err) => caught o err (calls .error) ((calls .change).foldl call s)
    | (s, .ok ()) =>
      let s := (calls .change).foldl call s
      let s := s.log (.poll s.pollCount (r.entries.getD []))
      conclude o ((calls .poll).foldl call s)

/-- A timer fires, `poll` or `stop` is called, a listener is added or all those for an event are
removed, or the server answers a poll. -/
inductive Action where
  | tick (id : ℕ)
  | call (c : Call)
  | on (name : EventName)
  | off (name : EventName)
  | answer (response : Except Failure Response) (calls : Reactions)

def Listeners.map (f : List EventName → List EventName) : Listeners → Listeners
  | .tool names => .tool (f names)
  | .handle names => .handle (f names)

def resume (s : Watcher) : Watcher := { s with running := s.running - 1 }

def step (o : Options) (s : Watcher) : Action → Watcher
  | .tick id =>
    if s.timers.contains id then poll { s with timers := s.timers.erase id } else s
  | .call c => call s c
  | .on name => { s with listeners := s.listeners.map fun names => names ++ [name] }
  | .off name => { s with listeners := s.listeners.map fun names => names.filter (· ≠ name) }
  | .answer response calls =>
    if s.running = 0 then s else answered o response calls (resume s)

/-- The constructor, which takes over the initial state and sets the first timer. -/
def watching (o : Options) (listeners : Listeners) : Watcher :=
  scheduleNext
    { pollCount := 0
      isStopped := false
      isInitialized := o.initialState.isSome
      timerId := none
      stateCache := (o.initialState.getD []).foldl (fun m e => m.set e.1 e.2) .empty
      timers := []
      nextTimer := 0
      running := 0
      listeners := listeners
      journal := [] }

variable {o : Options} {s t : Watcher}

def Accounted (o : Options) (s : Watcher) : Prop :=
  s.isStopped = true → .stop ∈ s.journal ∨ ∃ n, .done n ∈ s.journal ∧ ∃ m ∈ o.maxPolls, m ≤ n

/-- What has been logged is still there, the listeners are the same, and a stop was asked for. -/
structure Keeps (s t : Watcher) : Prop where
  journal : s.journal ⊆ t.journal
  listeners : t.listeners = s.listeners
  stopped : t.isStopped = true → s.isStopped = true ∨ .stop ∈ t.journal
  still : s.isStopped = true → t.isStopped = true

theorem Keeps.refl (s : Watcher) : Keeps s s := ⟨List.Subset.refl _, rfl, .inl, id⟩

theorem Keeps.trans {u : Watcher} (h : Keeps s t) (h' : Keeps t u) : Keeps s u := by
  refine ⟨List.Subset.trans h.journal h'.journal, h'.listeners.trans h.listeners, fun hu => ?_,
    fun hs => h'.still (h.still hs)⟩
  obtain ht | hmem := h'.stopped hu
  · obtain hs | hmem := h.stopped ht
    · exact .inl hs
    · exact .inr (h'.journal hmem)
  · exact .inr hmem

theorem Keeps.accounted (h : Keeps s t) (hs : Accounted o s) : Accounted o t := by
  intro ht
  obtain hstopped | hmem := h.stopped ht
  · obtain hmem | ⟨n, hmem, hmax⟩ := hs hstopped
    · exact .inl (h.journal hmem)
    · exact .inr ⟨n, h.journal hmem, hmax⟩
  · exact .inl hmem

theorem log_keeps (s : Watcher) (x : Event) : Keeps s (s.log x) :=
  ⟨List.subset_append_left _ _, rfl, .inl, id⟩

theorem cache_keeps (s : Watcher) (cache : Cache) : Keeps s { s with stateCache := cache } :=
  ⟨List.Subset.refl _, rfl, .inl, id⟩

theorem foldl_keeps {α : Type} {f : Watcher → α → Watcher} (hf : ∀ s x, Keeps s (f s x))
    (xs : List α) (s : Watcher) : Keeps s (xs.foldl f s) := by
  induction xs generalizing s with
  | nil => exact .refl s
  | cons x xs ih => exact (hf s x).trans (ih (f s x))

theorem setModified_keeps (o : Options) (ledger : Option ℕ) (s : Watcher)
    (x : String × LedgerEntryResult × String) : Keeps s (setModified o ledger s x) := by
  rw [setModified]
  split
  · exact (cache_keeps s _).trans (log_keeps _ _)
  · exact .refl s

theorem deleteMissing_keeps (o : Options) (ledger : Option ℕ)
    (current : OrderedMap String (LedgerEntryResult × String)) (n i : ℕ) (s : Watcher) :
    Keeps s (deleteMissing o ledger current n i s).1 := by
  induction n generalizing i s with
  | zero => exact .refl s
  | succ n ih =>
    rw [deleteMissing]
    split
    · split
      · exact ih _ s
      · split
        · exact .refl s
        · exact ((cache_keeps s _).trans (log_keeps _ _)).trans (ih _ _)
    · exact ih _ s

theorem observe_keeps (o : Options) (r : Response) (s : Watcher) : Keeps s (observe o r s).1 := by
  rw [observe]
  dsimp only
  split
  · have h := foldl_keeps (fun s x => cache_keeps s _) (currentMap (r.entries.getD [])).entries s
      (f := setBaseline)
    exact ⟨h.journal, h.listeners, h.stopped, h.still⟩
  · exact (foldl_keeps (setModified_keeps o _) _ s).trans (deleteMissing_keeps ..)

theorem call_keeps (s : Watcher) (c : Call) : Keeps s (call s c) := by
  cases c with
  | stop => exact ⟨List.subset_append_left _ _, rfl, fun _ => .inr (by simp [call, Watcher.log]),
      fun _ => rfl⟩
  | poll =>
    rw [call, poll]
    split
    · exact .refl s
    · exact ⟨List.Subset.refl _, rfl, .inl, id⟩

/-- The watcher has been stopped, or the timer that it knows of is set. -/
def Ready (s : Watcher) : Prop :=
  s.isStopped = true ∨ ∃ id ∈ s.timers, s.timerId = some id

/-- A stop is accounted for, and where no poll is running a timer is set. -/
structure Alive (o : Options) (s : Watcher) : Prop where
  accounted : Accounted o s
  pending : s.isStopped = false → s.running = 0 → s.timers ≠ []

theorem alive_of_ready (h : Accounted o s) (hready : Ready s) : Alive o s := by
  refine ⟨h, fun hs _ hnil => ?_⟩
  obtain hstopped | ⟨id, hid, -⟩ := hready
  · rw [hstopped] at hs
    cases hs
  · rw [hnil] at hid
    cases hid

theorem conclude_ready (o : Options) (s : Watcher) : Ready (conclude o s) := by
  rw [conclude]
  split
  · exact .inl rfl
  · split
    · rename_i hs
      exact .inl hs
    · rename_i hs
      rw [scheduleNext, if_neg hs]
      exact .inr ⟨s.nextTimer, by simp, rfl⟩

theorem conclude_accounted (h : Accounted o s) : Accounted o (conclude o s) := by
  rw [conclude]
  split
  · rename_i hmax
    refine fun _ => .inr ⟨s.pollCount, ?_, hmax⟩
    simp [Watcher.log]
  · split
    · exact h
    · rename_i hs
      rw [scheduleNext, if_neg hs]
      intro hstopped
      exact absurd hstopped hs

/-- What makes a poll fail: a rejection, or a deleted key that cannot be normalised. -/
def failure (o : Options) (response : Except Failure Response) (s : Watcher) : Option Failure :=
  match response with
  | .error err => some err
  | .ok r =>
    match (observe o r s).2 with
    | .error err => some err
    | .ok _ => none

def HeardBy (listeners : Listeners) (err : Failure) : Prop :=
  err.hasMessage = true ∧ listeners.emits .error = true

theorem caught_ready {err : Failure} (hheard : HeardBy s.listeners err) (calls : List Call) :
    Ready (caught o err calls s) := by
  rw [caught, hheard.1, hheard.2]
  exact conclude_ready ..

theorem caught_stopped {err : Failure} {calls : List Call} (hs : s.isStopped = true) :
    Ready (caught o err calls s) := by
  rw [caught]
  split
  · exact .inl hs
  · split
    · exact .inl hs
    · exact conclude_ready ..

theorem caught_accounted (h : Accounted o s) (err : Failure) (calls : List Call) :
    Accounted o (caught o err calls s) := by
  rw [caught]
  split
  · exact h
  · split
    · exact h
    · exact conclude_accounted
        (((log_keeps s _).trans (foldl_keeps call_keeps calls _)).accounted h)

theorem answered_accounted (h : Accounted o s) (response : Except Failure Response)
    (calls : Reactions) : Accounted o (answered o response calls s) := by
  cases response with
  | error err => exact caught_accounted h err _
  | ok r =>
    have hobserve := observe_keeps o r s
    simp only [answered]
    split
    · rename_i s' err hresult
      rw [hresult] at hobserve
      exact caught_accounted ((hobserve.trans (foldl_keeps call_keeps _ s')).accounted h) err _
    · rename_i s' hresult
      rw [hresult] at hobserve
      have hchange := hobserve.trans (foldl_keeps call_keeps (calls .change) s')
      exact conclude_accounted (((hchange.trans (log_keeps _ _)).trans
        (foldl_keeps call_keeps (calls .poll) _)).accounted h)

theorem answered_ready (response : Except Failure Response) (calls : Reactions)
    (hheard : s.isStopped = false → ∀ err ∈ failure o response s, HeardBy s.listeners err) :
    Ready (answered o response calls s) := by
  cases response with
  | error err =>
    by_cases hs : s.isStopped = true
    · exact caught_stopped hs
    · exact caught_ready (hheard (Bool.eq_false_iff.mpr hs) err rfl) _
  | ok r =>
    have hobserve := observe_keeps o r s
    simp only [answered]
    split
    · rename_i s' err hresult
      rw [hresult] at hobserve
      have hkeeps := hobserve.trans (foldl_keeps call_keeps (calls .change) s')
      by_cases hs : s.isStopped = true
      · exact caught_stopped (hkeeps.still hs)
      · refine caught_ready ?_ _
        rw [hkeeps.listeners]
        apply hheard (Bool.eq_false_iff.mpr hs)
        rw [failure, hresult]
        rfl
    · exact conclude_ready ..

/-- The failure of a poll that has not been stopped can be logged, and an 'error' listener is
there. -/
def Heard (o : Options) (u : Transition Watcher Action) : Prop :=
  match u.action with
  | .answer response _ => u.before.running ≠ 0 → u.before.isStopped = false →
    ∀ err ∈ failure o response (resume u.before), HeardBy u.before.listeners err
  | _ => True

instance (listeners : Listeners) (err : Failure) : Decidable (HeardBy listeners err) :=
  inferInstanceAs (Decidable (_ ∧ _))

instance : (u : Transition Watcher Action) → Decidable (Heard o u)
  | ⟨s, .answer response _, _⟩ => inferInstanceAs (Decidable (s.running ≠ 0 →
    s.isStopped = false → ∀ err ∈ failure o response (resume s), HeardBy s.listeners err))
  | ⟨_, .tick _, _⟩ => .isTrue trivial
  | ⟨_, .call _, _⟩ => .isTrue trivial
  | ⟨_, .on _, _⟩ => .isTrue trivial
  | ⟨_, .off _, _⟩ => .isTrue trivial

/-- A poll ends. -/
def Finishes (u : Transition Watcher Action) : Prop :=
  match u.action with
  | .answer _ _ => u.before.running ≠ 0
  | _ => False

theorem poll_alive (h : Accounted o s) : Alive o (poll s) := by
  rw [poll]
  split
  · rename_i hs
    exact alive_of_ready h (.inl hs)
  · exact ⟨h, fun _ hrunning => by cases hrunning⟩

theorem step_ready (a : Action) (hheard : Heard o ⟨s, a, step o s a⟩)
    (hfinishes : Finishes ⟨s, a, step o s a⟩) : Ready (step o s a) := by
  cases a with
  | answer response calls =>
    rw [step, if_neg hfinishes]
    exact answered_ready response calls (hheard hfinishes)
  | _ => exact hfinishes.elim

theorem step_alive (h : Alive o s) (a : Action) (hheard : Heard o ⟨s, a, step o s a⟩) :
    Alive o (step o s a) := by
  cases a with
  | tick id =>
    rw [step]
    split
    · exact poll_alive h.accounted
    · exact h
  | call c =>
    cases c with
    | stop => exact alive_of_ready ((call_keeps s .stop).accounted h.accounted) (.inl rfl)
    | poll => exact poll_alive h.accounted
  | on name => exact ⟨h.accounted, h.pending⟩
  | off name => exact ⟨h.accounted, h.pending⟩
  | answer response calls =>
    by_cases hrunning : s.running = 0
    · rw [step, if_pos hrunning]
      exact h
    · have hready := step_ready (.answer response calls) hheard hrunning
      rw [step, if_neg hrunning] at hready ⊢
      exact alive_of_ready (@answered_accounted o (resume s) h.accounted response calls) hready

theorem watching_alive (o : Options) (listeners : Listeners) :
    Alive o (watching o listeners) := by
  refine ⟨?_, ?_⟩
  · intro hs
    cases hs
  · intro _ _ hnil
    cases hnil

/-- A watcher whose failures are heard lives on: every poll leaves it stopped or with its timer,
it is stopped only by a call of `stop` or by the last poll, and otherwise a poll is running or a
timer is set. -/
theorem watcher_survives (o : Options) (listeners : Listeners) (as : List Action)
    (hheard : ∀ u ∈ trace (step o) (watching o listeners) as, Heard o u) :
    (∀ u ∈ trace (step o) (watching o listeners) as, Finishes u → Ready u.after) ∧
      Alive o (run (step o) (watching o listeners) as) := by
  have hstep : ∀ t a, Heard o ⟨t, a, step o t a⟩ → Alive o t → Alive o (step o t a) :=
    fun _ a hgood h => step_alive h a hgood
  refine ⟨?_, run_invariant_of (watching_alive o listeners) hstep as hheard⟩
  refine trace_invariant_of (watching_alive o listeners) hstep ?_ as hheard
  intro _ a hgood _ hfinishes
  exact step_ready a hgood hfinishes

def unavailable : Failure := .error ⟨.other, "503 Service Unavailable", []⟩

/-- Two keys, watched for any number of polls. -/
def sample : Options := ⟨["AAAA", "AAAB"], fun k => .ok (.string k), none, none⟩

def silentReactions : Reactions := fun _ => []

/-- A failed poll, and one after it, with a listener for errors. -/
theorem watcher_survives_failure :
    let as : List Action := [.on .error, .tick 0, .answer (.error unavailable) silentReactions,
      .tick 1, .answer (.ok ⟨some [⟨.xdr "AAAA", .xdr "AQ=="⟩], some 7⟩) silentReactions]
    (∀ u ∈ trace (step sample) (watching sample (.handle [])) as, Finishes u → Ready u.after) ∧
      Alive sample (run (step sample) (watching sample (.handle [])) as) :=
  watcher_survives sample _ _ (by decide)

/-- A failed poll without a listener for errors, of a tool and through a handle: nobody has stopped
the watcher, no poll is running, and no timer is set. -/
theorem watcher_dies :
    let as : List Action := [.on .change, .tick 0, .answer (.error unavailable) silentReactions]
    ∀ listeners ∈ [Listeners.tool [], .handle []],
      let s := run (step sample) (watching sample listeners) as
      s.isStopped = false ∧ s.running = 0 ∧ s.timers = [] ∧ ¬ Alive sample s := by
  intro as listeners hmem s
  have hdead : s.isStopped = false ∧ s.running = 0 ∧ s.timers = [] := by
    obtain rfl | hmem := List.mem_cons.mp hmem
    · exact ⟨rfl, rfl, rfl⟩
    · obtain rfl := List.mem_singleton.mp hmem
      exact ⟨rfl, rfl, rfl⟩
  exact ⟨hdead.1, hdead.2.1, hdead.2.2, fun h => h.pending hdead.1 hdead.2.1 hdead.2.2⟩

end PayFi.Tools.StorageWatcher
