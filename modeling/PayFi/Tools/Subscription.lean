import PayFi.Tools.EventListener

namespace PayFi.Tools.Subscription

open Library.Machine EventListener

/-- Where `poll` stands: at the await of the start ledger, at that of a page, or in a call of
`onEvent`, with what is left of the page. -/
inductive Poll where
  | idle
  | startLedger
  | getEvents (r : Request)
  | onEvent (rest : List ContractEvent) (response : Response)

/-- How a poll has ended: its own request was rejected, or it met the rejection of an earlier
one, or `onEvent` has thrown. -/
inductive Outcome where
  | completed
  | rejected
  | remembered
  | thrown
  deriving DecidableEq

inductive Event where
  | getLatestLedger
  | getEvents (r : Request)
  | onEvent (e : ContractEvent)
  | stopped
  | error (err : String)
  deriving DecidableEq

def Event.isCall : Event → Bool
  | .onEvent _ => true
  | _ => false

/-- The variables of `listen`, with the start ledger as its promise has settled, what it has
done and got back so far, and how its polls have ended. -/
structure Listener where
  cursor : Option String
  startLedger : Option (Except String ℕ)
  reconnectAttempts : ℕ
  isStopped : Bool
  timer : Bool
  poll : Poll
  journal : List Event
  outcomes : List Outcome

def Listener.log (s : Listener) (x : Event) : Listener := { s with journal := s.journal ++ [x] }

def ask (s : Listener) (r : Request) : Listener :=
  { s with poll := .getEvents r }.log (.getEvents r)

/-- `poll` up to its first await. The promise of the start ledger is made once. -/
def start (s : Listener) : Listener :=
  let s := { s with timer := false }
  match truthy s.cursor with
  | some c => ask s (.cursor c)
  | none =>
    let s := { s with poll := .startLedger }
    if s.startLedger.isNone then s.log .getLatestLedger else s

/-- The catch block of `poll`. -/
def failed (o : Options) (s : Listener) (outcome : Outcome) (err : String) : Listener :=
  let s := { s with
    reconnectAttempts := s.reconnectAttempts + 1
    poll := .idle
    outcomes := s.outcomes ++ [outcome] }
  if o.maxReconnectAttempts ≤ s.reconnectAttempts then
    { s with isStopped := true, timer := false }.log (.error err)
  else { s with timer := !s.isStopped }

/-- `poll` from the await of the start ledger on. -/
def settled (o : Options) (s : Listener) (latest : Except String ℕ) : Listener :=
  match s.startLedger with
  | some (.ok l) => ask s (.startLedger l)
  | some (.error err) => failed o s .remembered err
  | none =>
    let s := { s with startLedger := some latest }
    match latest with
    | .ok l => ask s (.startLedger l)
    | .error err => failed o s .rejected err

def finish (s : Listener) (response : Response) : Listener :=
  { s with
    cursor := advance s.cursor response
    timer := !s.isStopped
    poll := .idle
    outcomes := s.outcomes ++ [.completed] }

/-- The loop over a page, up to the next call of `onEvent`. -/
def deliver (o : Options) (s : Listener) (response : Response) : List ContractEvent → Listener
  | [] => finish s response
  | event :: rest =>
    if isMatch o event then { s with poll := .onEvent rest response }.log (.onEvent event)
    else deliver o s response rest

/-- `poll` from the await of the page on. -/
def received (o : Options) (s : Listener) : Except String Response → Listener
  | .ok r => deliver o { s with reconnectAttempts := 0 } r r.events
  | .error err => failed o s .rejected err

/-- `poll` from the end of a call of `onEvent` on. -/
def resumed (o : Options) (s : Listener) (rest : List ContractEvent) (response : Response) :
    Except String Unit → Listener
  | .ok _ => deliver o s response rest
  | .error err => failed o s .thrown err

/-- The timer, the answers to the requests, the end of a call of `onEvent`, and `stop`, which may
come at any time, also within `onEvent`. -/
inductive Action where
  | tick
  | latestLedger (latest : Except String ℕ)
  | events (response : Except String Response)
  | returned (result : Except String Unit)
  | stop

def step (o : Options) (s : Listener) : Action → Listener
  | .tick => if s.timer && !s.isStopped then start s else s
  | .latestLedger latest =>
    match s.poll with
    | .startLedger => settled o s latest
    | _ => s
  | .events response =>
    match s.poll with
    | .getEvents _ => received o s response
    | _ => s
  | .returned result =>
    match s.poll with
    | .onEvent rest response => resumed o s rest response result
    | _ => s
  | .stop => { s with isStopped := true, timer := false }.log .stopped

/-- `listen` starts to poll at once. -/
def listening : Listener := start ⟨none, none, 0, false, false, .idle, [], []⟩

def Poll.awaits : Poll → Action → Bool
  | .startLedger, .latestLedger _ => true
  | .getEvents _, .events _ => true
  | .onEvent _ _, .returned _ => true
  | _, _ => false

inductive Effect (o : Options) (s : Listener) : Action → Listener → Prop where
  | ignored {a : Action} (h : s.poll.awaits a = false) : Effect o s a s
  | started (htimer : s.timer = true) (hs : s.isStopped = false) : Effect o s .tick (start s)
  | settled (hpoll : s.poll = .startLedger) (latest : Except String ℕ) :
    Effect o s (.latestLedger latest) (settled o s latest)
  | received {r : Request} (hpoll : s.poll = .getEvents r) (response : Except String Response) :
    Effect o s (.events response) (received o s response)
  | resumed {rest : List ContractEvent} {response : Response}
    (hpoll : s.poll = .onEvent rest response) (result : Except String Unit) :
    Effect o s (.returned result) (resumed o s rest response result)
  | stopped : Effect o s .stop ({ s with isStopped := true, timer := false }.log .stopped)

/-- Once `stop` has returned, no event is passed on. -/
def Silent (journal : List Event) : Prop :=
  journal.Pairwise fun x y => x = .stopped → y.isCall = false

instance (journal : List Event) : Decidable (Silent journal) :=
  inferInstanceAs (Decidable (journal.Pairwise _))

def nextPage : List Action → List ContractEvent
  | [] => []
  | .events (.ok r) :: _ => r.events
  | .events (.error _) :: _ => []
  | _ :: as => nextPage as

def pageAfterLedger (startLedger : Option (Except String ℕ)) : List Action → List ContractEvent
  | [] => []
  | .latestLedger latest :: as =>
    match startLedger.getD latest with
    | .ok _ => nextPage as
    | .error _ => []
  | _ :: as => pageAfterLedger startLedger as

/-- What is left of a page, if the call of `onEvent` returns. -/
def leftOver (rest : List ContractEvent) : List Action → List ContractEvent
  | [] => []
  | .returned (.ok _) :: _ => rest
  | .returned (.error _) :: _ => []
  | _ :: as => leftOver rest as

/-- The events that the poll under way still has before it, in what happens from here on. -/
def remaining (s : Listener) (as : List Action) : List ContractEvent :=
  match s.poll with
  | .idle => []
  | .startLedger => pageAfterLedger s.startLedger as
  | .getEvents _ => nextPage as
  | .onEvent rest _ => leftOver rest as

def Unmatched (o : Options) (rest : List ContractEvent) : Prop := ∀ e ∈ rest, isMatch o e = false

instance (o : Options) (rest : List ContractEvent) : Decidable (Unmatched o rest) :=
  inferInstanceAs (Decidable (∀ e ∈ rest, _))

variable {o : Options} {s t : Listener} {response : Response} {rest : List ContractEvent}
  {a : Action} {as : List Action}

theorem step_effect (o : Options) (s : Listener) (a : Action) : Effect o s a (step o s a) := by
  cases a with
  | tick =>
    rw [step]
    split
    · rename_i hdue
      rw [Bool.and_eq_true, Bool.not_eq_true'] at hdue
      exact .started hdue.1 hdue.2
    · exact .ignored (by cases s.poll <;> rfl)
  | latestLedger latest =>
    cases hpoll : s.poll with
    | startLedger =>
      simp only [step, hpoll]
      exact .settled hpoll latest
    | _ =>
      simp only [step, hpoll]
      exact .ignored (by rw [hpoll]; rfl)
  | events response =>
    cases hpoll : s.poll with
    | getEvents r =>
      simp only [step, hpoll]
      exact .received hpoll response
    | _ =>
      simp only [step, hpoll]
      exact .ignored (by rw [hpoll]; rfl)
  | returned result =>
    cases hpoll : s.poll with
    | onEvent rest response =>
      simp only [step, hpoll]
      exact .resumed hpoll result
    | _ =>
      simp only [step, hpoll]
      exact .ignored (by rw [hpoll]; rfl)
  | stop => exact .stopped

theorem deliver_of_unmatched (h : Unmatched o rest) :
    deliver o s response rest = finish s response := by
  induction rest with
  | nil => rfl
  | cons e rest ih =>
    rw [Unmatched, List.forall_mem_cons] at h
    rw [deliver, if_neg (by simp [h.1]), ih h.2]

theorem deliver_of_matched (h : ¬ Unmatched o rest) :
    ∃ e rest', deliver o s response rest =
      { s with poll := .onEvent rest' response }.log (.onEvent e) := by
  induction rest with
  | nil => exact absurd (by simp [Unmatched]) h
  | cons e rest ih =>
    rw [deliver]
    by_cases hmatch : isMatch o e = true
    · exact ⟨e, rest, if_pos hmatch⟩
    · rw [if_neg hmatch]
      apply ih
      intro hrest
      exact h (List.forall_mem_cons.mpr ⟨Bool.eq_false_iff.mpr hmatch, hrest⟩)

/-- What has been logged is still there, and no call of `onEvent` has come. -/
def Uncalled (s t : Listener) : Prop :=
  ∃ es, t.journal = s.journal ++ es ∧ ∀ x ∈ es, x.isCall = false

def Extends (s t : Listener) : Prop :=
  ∃ es, t.journal = s.journal ++ es ∧ ∀ x ∈ es, x.isCall = false ∧ x ≠ .stopped

theorem Extends.refl (s : Listener) : Extends s s := ⟨[], by simp, by simp⟩

theorem Extends.uncalled (h : Extends s t) : Uncalled s t := by
  obtain ⟨es, hes, hnot⟩ := h
  exact ⟨es, hes, fun x hx => (hnot x hx).1⟩

theorem start_extends (s : Listener) : Extends s (start s) := by
  rw [start]
  split
  · exact ⟨[_], rfl, by simp [Event.isCall]⟩
  · dsimp only
    split
    · exact ⟨[_], rfl, by simp [Event.isCall]⟩
    · exact .refl s

theorem failed_extends (o : Options) (s : Listener) (outcome : Outcome) (err : String) :
    Extends s (failed o s outcome err) := by
  rw [failed]
  dsimp only
  split
  · exact ⟨[_], rfl, by simp [Event.isCall]⟩
  · exact .refl s

theorem settled_extends (o : Options) (s : Listener) (latest : Except String ℕ) :
    Extends s (settled o s latest) := by
  rw [settled]
  split
  · exact ⟨[_], rfl, by simp [Event.isCall]⟩
  · exact failed_extends ..
  · dsimp only
    split
    · exact ⟨[_], rfl, by simp [Event.isCall]⟩
    · exact failed_extends o { s with startLedger := some _ } .rejected _

theorem deliver_journal (o : Options) (s : Listener) (response : Response)
    (rest : List ContractEvent) :
    Extends s (deliver o s response rest) ∨
      ∃ e, (deliver o s response rest).journal = s.journal ++ [.onEvent e] := by
  by_cases hrest : Unmatched o rest
  · rw [deliver_of_unmatched hrest]
    exact .inl (.refl s)
  · obtain ⟨e, rest', hdeliver⟩ := deliver_of_matched hrest
    rw [hdeliver]
    exact .inr ⟨e, rfl⟩

theorem effect_journal (heffect : Effect o s a t) : Extends s t ∨
    (∃ e, t.journal = s.journal ++ [.onEvent e]) ∨
      a = .stop ∧ t.journal = s.journal ++ [.stopped] := by
  cases heffect with
  | ignored => exact .inl (.refl s)
  | started => exact .inl (start_extends s)
  | settled _ latest => exact .inl (settled_extends o s latest)
  | received _ response =>
    cases response with
    | error err => exact .inl (failed_extends ..)
    | ok r => exact (deliver_journal o { s with reconnectAttempts := 0 } r r.events).imp_right .inl
  | @resumed rest response _ result =>
    cases result with
    | error err => exact .inl (failed_extends ..)
    | ok _ => exact (deliver_journal o s response rest).imp_right .inl
  | stopped => exact .inr (.inr ⟨rfl, rfl⟩)

theorem run_prefix (o : Options) (s : Listener) (as : List Action) :
    s.journal <+: (run (step o) s as).journal := by
  induction as generalizing s with
  | nil => exact List.prefix_refl _
  | cons a as ih =>
    refine List.IsPrefix.trans ?_ (ih (step o s a))
    obtain ⟨es, hes, -⟩ | ⟨e, he⟩ | ⟨-, he⟩ := effect_journal (step_effect o s a)
    · rw [hes]
      exact List.prefix_append ..
    · rw [he]
      exact List.prefix_append ..
    · rw [he]
      exact List.prefix_append ..

theorem not_stopped (hs : .stopped ∉ s.journal) (has : .stop ∉ as) :
    .stopped ∉ (run (step o) s as).journal := by
  induction as generalizing s with
  | nil => exact hs
  | cons a as ih =>
    rw [List.mem_cons, not_or] at has
    refine ih ?_ has.2
    obtain ⟨es, hes, hnot⟩ | ⟨e, he⟩ | ⟨rfl, -⟩ := effect_journal (step_effect o s a)
    · rw [hes, List.mem_append, not_or]
      exact ⟨hs, fun hmem => (hnot _ hmem).2 rfl⟩
    · rw [he, List.mem_append, not_or]
      exact ⟨hs, by simp⟩
    · exact absurd rfl has.1

structure Halted (s : Listener) : Prop where
  isStopped : s.isStopped = true
  timer : s.timer = false

theorem failed_halted (h : Halted s) (outcome : Outcome) (err : String) :
    Halted (failed o s outcome err) ∧ (failed o s outcome err).poll = .idle := by
  rw [failed]
  dsimp only
  split
  · exact ⟨⟨rfl, rfl⟩, rfl⟩
  · exact ⟨⟨h.isStopped, by simp [h.isStopped]⟩, rfl⟩

theorem remaining_idle (hpoll : s.poll = .idle) (as : List Action) : remaining s as = [] := by
  rw [remaining, hpoll]

theorem remaining_ignored (h : s.poll.awaits a = false) :
    remaining s (a :: as) = remaining s as := by
  unfold remaining
  cases hpoll : s.poll <;> cases a <;> simp_all [Poll.awaits, nextPage, pageAfterLedger, leftOver]

/-- A halted listener goes on with the same events before it, or passes one of them on. -/
def GoesOn (o : Options) (s t : Listener) (rest rest' : List ContractEvent) : Prop :=
  (Halted t ∧ Uncalled s t ∧ (Unmatched o rest ↔ Unmatched o rest')) ∨
    ¬ Unmatched o rest ∧ ∃ e, t.journal = s.journal ++ [.onEvent e]

theorem GoesOn.ended (h : Halted t ∧ t.poll = .idle) (hs : Extends s t)
    (hrest : Unmatched o rest) : GoesOn o s t rest (remaining t as) := by
  rw [remaining_idle h.2]
  exact .inl ⟨h.1, hs.uncalled, iff_of_true hrest (List.forall_mem_nil _)⟩

theorem ask_goesOn (h : Halted s) (r : Request) (as : List Action) :
    GoesOn o s (ask s r) (nextPage as) (remaining (ask s r) as) :=
  .inl ⟨⟨h.isStopped, h.timer⟩, ⟨[_], rfl, by simp [Event.isCall]⟩, .rfl⟩

theorem failed_goesOn (h : Halted s) (outcome : Outcome) (err : String) :
    GoesOn o s (failed o s outcome err) [] (remaining (failed o s outcome err) as) :=
  .ended (failed_halted h outcome err) (failed_extends ..) (List.forall_mem_nil _)

theorem settled_goesOn (h : Halted s) (hpoll : s.poll = .startLedger) (latest : Except String ℕ) :
    GoesOn o s (settled o s latest) (remaining s (.latestLedger latest :: as))
      (remaining (settled o s latest) as) := by
  simp only [remaining, hpoll, pageAfterLedger]
  rw [settled]
  cases s.startLedger with
  | none =>
    have h' : Halted { s with startLedger := some latest } := ⟨h.isStopped, h.timer⟩
    cases latest with
    | ok l => exact ask_goesOn h' _ as
    | error err => exact failed_goesOn h' ..
  | some settled =>
    cases settled with
    | ok l => exact ask_goesOn h _ as
    | error err => exact failed_goesOn h ..

theorem deliver_goesOn (h : Halted s) (response : Response) (rest : List ContractEvent) :
    GoesOn o s (deliver o s response rest) rest (remaining (deliver o s response rest) as) := by
  by_cases hrest : Unmatched o rest
  · rw [deliver_of_unmatched hrest]
    exact .ended ⟨⟨h.isStopped, by simp [finish, h.isStopped]⟩, rfl⟩ (.refl s) hrest
  · obtain ⟨e, rest', hdeliver⟩ := deliver_of_matched hrest
    refine .inr ⟨hrest, e, ?_⟩
    rw [hdeliver]
    rfl

theorem effect_goesOn (as : List Action) (h : Halted s) (heffect : Effect o s a t) :
    GoesOn o s t (remaining s (a :: as)) (remaining t as) := by
  cases heffect with
  | ignored hignored =>
    rw [remaining_ignored hignored]
    exact .inl ⟨h, (Extends.refl s).uncalled, .rfl⟩
  | started htimer =>
    rw [h.timer] at htimer
    cases htimer
  | settled hpoll latest => exact settled_goesOn h hpoll latest
  | received hpoll response =>
    rw [remaining, hpoll]
    cases response with
    | ok r =>
      exact deliver_goesOn (s := { s with reconnectAttempts := 0 }) ⟨h.isStopped, h.timer⟩ r _
    | error err => exact failed_goesOn h ..
  | resumed hpoll result =>
    rw [remaining, hpoll]
    cases result with
    | ok _ => exact deliver_goesOn h _ _
    | error err => exact failed_goesOn h ..
  | stopped =>
    rw [remaining_ignored (by cases s.poll <;> rfl)]
    exact .inl ⟨⟨rfl, rfl⟩, ⟨[.stopped], rfl, by simp [Event.isCall]⟩, .rfl⟩

/-- From a halted listener on, nothing is passed on exactly if nothing matches of what the poll
under way has before it. -/
theorem run_halted (h : Halted s) (as : List Action) :
    ∃ es, (run (step o) s as).journal = s.journal ++ es ∧
      ((∀ x ∈ es, x.isCall = false) ↔ Unmatched o (remaining s as)) := by
  induction as generalizing s with
  | nil =>
    refine ⟨[], by simp, iff_of_true (List.forall_mem_nil _) ?_⟩
    cases hpoll : s.poll <;> simp [remaining, hpoll, pageAfterLedger, nextPage, leftOver, Unmatched]
  | cons a as ih =>
    obtain ⟨ht, ⟨es, hes, hcalls⟩, hiff⟩ | ⟨hmatched, e, he⟩ := effect_goesOn as h
      (step_effect o s a)
    · obtain ⟨es', hes', hiff'⟩ := ih ht
      refine ⟨es ++ es', by rw [run_cons, hes', hes, List.append_assoc], ?_⟩
      rw [hiff, ← hiff', List.forall_mem_append]
      exact and_iff_right hcalls
    · obtain ⟨es, hes⟩ := run_prefix o (step o s a) as
      refine ⟨.onEvent e :: es, by rw [run_cons, ← hes, he, List.append_assoc]; rfl, ?_⟩
      refine iff_of_false (fun hcalls => ?_) hmatched
      cases hcalls _ List.mem_cons_self

theorem silent_of_not_stopped {journal : List Event} (h : .stopped ∉ journal) : Silent journal := by
  refine List.pairwise_of_forall_mem_list fun x hx y _ hstopped => ?_
  rw [hstopped] at hx
  exact absurd hx h

/-- Over all events, timings and moments of the stop: nothing is passed on after it exactly if
nothing matches of what the poll that it meets under way still has before it. -/
theorem silent_iff (o : Options) (as : List Action) :
    Silent (run (step o) listening as).journal ↔
      ∀ before after, as = before ++ .stop :: after →
        Unmatched o (remaining (run (step o) listening before) after) := by
  constructor
  · rintro h before after rfl
    obtain ⟨es, hes, hiff⟩ := run_halted (o := o)
      (s := step o (run (step o) listening before) .stop)
      ⟨rfl, rfl⟩ after
    rw [run_append, run_cons, hes, Silent, List.pairwise_append] at h
    refine hiff.mp fun x hx => h.2.2 .stopped ?_ x hx rfl
    exact List.mem_append_right _ (List.mem_singleton_self _)
  · intro h
    by_cases hstop : .stop ∈ as
    · obtain ⟨before, after, rfl, hbefore⟩ := List.eq_append_cons_of_mem hstop
      obtain ⟨es, hes, hiff⟩ := run_halted (o := o)
        (s := step o (run (step o) listening before) .stop) ⟨rfl, rfl⟩ after
      have hcalls := hiff.mpr (h before after rfl)
      have hnone : .stopped ∉ (run (step o) listening before).journal :=
        not_stopped (by decide) hbefore
      rw [run_append, run_cons, hes]
      refine List.pairwise_append.mpr ⟨?_, ?_, fun x _ y hy _ => hcalls y hy⟩
      · refine List.pairwise_append.mpr
          ⟨silent_of_not_stopped hnone, List.pairwise_singleton .., ?_⟩
        intro x hx y hy hstopped
        rw [hstopped] at hx
        exact absurd hx hnone
      · exact List.pairwise_of_forall_mem_list fun _ _ y hy _ => hcalls y hy
    · exact silent_of_not_stopped (not_stopped (by decide) hstop)

/-- A listener that is stopped while its page is on the way, and one that stops itself at the
first of two events, both get an event after the stop. -/
theorem stopped_and_called :
    let e : ContractEvent := ⟨7, ["released"], "1"⟩
    let e' : ContractEvent := ⟨8, ["released"], "2"⟩
    let o : Options := ⟨["released"], 5⟩
    (run (step o) listening [.latestLedger (.ok 7), .stop, .events (.ok ⟨[e], none⟩)]).journal =
        [.getLatestLedger, .getEvents (.startLedger 7), .stopped, .onEvent e] ∧
      (run (step o) listening [.latestLedger (.ok 7), .events (.ok ⟨[e, e'], none⟩), .stop,
          .returned (.ok ())]).journal =
        [.getLatestLedger, .getEvents (.startLedger 7), .onEvent e, .stopped, .onEvent e'] ∧
      ¬ Silent (run (step o) listening
        [.latestLedger (.ok 7), .stop, .events (.ok ⟨[e], none⟩)]).journal ∧
      ¬ Silent (run (step o) listening [.latestLedger (.ok 7), .events (.ok ⟨[e, e'], none⟩), .stop,
        .returned (.ok ())]).journal := by
  decide

end PayFi.Tools.Subscription
