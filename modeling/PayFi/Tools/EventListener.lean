import PayFi.Library.Machine

namespace PayFi.Tools.EventListener

open Library.Machine

structure ContractEvent where
  ledger : ℕ
  topic : List String
  pagingToken : String
  deriving DecidableEq

inductive Request where
  | cursor (c : String)
  | startLedger (l : ℕ)
  deriving DecidableEq

structure Response where
  events : List ContractEvent
  cursor : Option String
  deriving DecidableEq

structure Options where
  eventTypes : List String
  maxReconnectAttempts : ℕ

/-- The variables of `listen`: the start ledger as its promise has settled, whether a timer
is set, and the request under way. `passed` is what `onEvent` has been called with. -/
structure Listener where
  cursor : Option String
  startLedger : Option (Except String ℕ)
  reconnectAttempts : ℕ
  isStopped : Bool
  timer : Bool
  asking : Option Request
  passed : List ContractEvent

def truthy (c : Option String) : Option String := c.filter (· ≠ "")

def isMatch (o : Options) (e : ContractEvent) : Bool :=
  o.eventTypes.isEmpty || e.topic.any fun t => o.eventTypes.contains t

/-- The catch block of `poll`. -/
def failed (o : Options) (s : Listener) : Listener :=
  let reconnectAttempts := s.reconnectAttempts + 1
  if o.maxReconnectAttempts ≤ reconnectAttempts then
    { s with reconnectAttempts := reconnectAttempts, isStopped := true, timer := false }
  else { s with reconnectAttempts := reconnectAttempts, timer := !s.isStopped }

/-- `poll` up to its request. `latest` is what `getLatestLedger` answers when it is asked,
which it is once. -/
def poll (o : Options) (s : Listener) (latest : Except String ℕ) : Listener :=
  if !s.timer || s.isStopped then s
  else
    let s := { s with timer := false }
    match truthy s.cursor with
    | some c => { s with asking := some (.cursor c) }
    | none =>
      let start := s.startLedger.getD latest
      let s := { s with startLedger := some start }
      match start with
      | .error _ => failed o s
      | .ok l => { s with asking := some (.startLedger l) }

def advance (cursor : Option String) (r : Response) : Option String :=
  match r.events.getLast? with
  | some lastEvent => some lastEvent.pagingToken
  | none => if (truthy r.cursor).isSome then r.cursor else cursor

/-- `poll` from the answer of `getEvents` on. -/
def receive (o : Options) (s : Listener) (response : Except String Response) : Listener :=
  if s.asking = none then s
  else
    let s := { s with asking := none }
    match response with
    | .error _ => failed o s
    | .ok r => { s with
        reconnectAttempts := 0
        passed := s.passed ++ r.events.filter (isMatch o)
        cursor := advance s.cursor r
        timer := !s.isStopped }

inductive Action where
  | poll (latest : Except String ℕ)
  | receive (response : Except String Response)
  | stop

def step (o : Options) (s : Listener) : Action → Listener
  | .poll latest => poll o s latest
  | .receive response => receive o s response
  | .stop => { s with isStopped := true, timer := false }

/-- `listen` polls at once. -/
def listening : Listener := ⟨none, none, 0, false, true, none, []⟩

/-- The events of a contract in the order of their ledgers, and those that follow a cursor.
The token of an event is a cursor, and not an empty text. -/
structure Server where
  stream : List ContractEvent
  after : String → List ContractEvent
  ordered : stream.Pairwise fun e e' => e.ledger ≤ e'.ledger
  after_token : ∀ xs e ys, stream = xs ++ e :: ys → after e.pagingToken = ys
  token_ne : ∀ e ∈ stream, e.pagingToken ≠ ""

def Server.ofStream (stream : List ContractEvent)
    (ordered : stream.Pairwise fun e e' => e.ledger ≤ e'.ledger)
    (distinct : (stream.map ContractEvent.pagingToken).Nodup)
    (token_ne : ∀ e ∈ stream, e.pagingToken ≠ "") : Server where
  stream := stream
  after := fun c => (stream.dropWhile fun e => e.pagingToken ≠ c).tail
  ordered := ordered
  after_token := by
    rintro xs e ys rfl
    rw [List.map_append, List.map_cons, List.nodup_append] at distinct
    have hskip : ∀ e' ∈ xs, decide (e'.pagingToken ≠ e.pagingToken) = true := by
      intro e' he'
      exact decide_eq_true (distinct.2.2 _ (List.mem_map_of_mem he') _ List.mem_cons_self)
    rw [List.dropWhile_append_of_pos hskip, List.dropWhile_cons_of_neg (by simp), List.tail_cons]
  token_ne := token_ne

variable (server : Server)

def onwards (l : ℕ) : List ContractEvent := server.stream.filter fun e => l ≤ e.ledger

def requested : Request → List ContractEvent
  | .cursor c => server.after c
  | .startLedger l => onwards server l

/-- A page starts what has been asked for, and the cursor of an empty page skips nothing. -/
def Answers (r : Request) (response : Response) : Prop :=
  response.events <+: requested server r ∧
    (response.events = [] → ∀ c ∈ truthy response.cursor, server.after c = requested server r)

/-- Every page that the listener gets answers what it has asked for. -/
def Honest (u : Transition Listener Action) : Prop :=
  match u.action, u.before.asking with
  | .receive (.ok response), some r => Answers server r response
  | _, _ => True

instance (r : Request) (response : Response) : Decidable (Answers server r response) :=
  inferInstanceAs (Decidable (_ ∧ _))

instance : (u : Transition Listener Action) → Decidable (Honest server u)
  | ⟨⟨_, _, _, _, _, some r, _⟩, .receive (.ok response), _⟩ =>
    inferInstanceAs (Decidable (Answers server r response))
  | ⟨⟨_, _, _, _, _, none, _⟩, .receive (.ok _), _⟩ => .isTrue trivial
  | ⟨_, .receive (.error _), _⟩ => .isTrue trivial
  | ⟨_, .poll _, _⟩ => .isTrue trivial
  | ⟨_, .stop, _⟩ => .isTrue trivial

/-- What has been passed on starts the matching events from the start ledger; without a
start ledger nothing has been passed on. -/
def InOrder (o : Options) (s : Listener) : Prop :=
  match s.startLedger with
  | some (.ok l) => s.passed <+: (onwards server l).filter (isMatch o)
  | _ => s.passed = []

/-- The events from the start ledger are those received so far and those still to come,
and the cursor stands between them. -/
structure Placed (o : Options) (l : ℕ) (received rest : List ContractEvent)
    (cursor : Option String) (asking : Option Request) (passed : List ContractEvent) : Prop where
  split : onwards server l = received ++ rest
  passed : passed = received.filter (isMatch o)
  next : ∀ c ∈ truthy cursor, server.after c = rest
  unmoved : truthy cursor = none → received = []
  asking : ∀ r ∈ asking, requested server r = rest

def Tracked (o : Options) (s : Listener) : Prop :=
  match s.startLedger with
  | some (.ok l) => ∃ received rest, Placed server o l received rest s.cursor s.asking s.passed
  | _ => s.passed = [] ∧ truthy s.cursor = none ∧ s.asking = none

variable {server} {o : Options} {s : Listener} {l : ℕ} {received rest : List ContractEvent}

theorem getLast?_split {xs : List ContractEvent} {e : ContractEvent} (h : xs.getLast? = some e) :
    xs = xs.dropLast ++ [e] := by
  rw [List.getLast?_eq_some_iff] at h
  obtain ⟨ys, rfl⟩ := h
  simp

theorem after_onwards {xs ys : List ContractEvent} {e : ContractEvent}
    (h : onwards server l = xs ++ e :: ys) : server.after e.pagingToken = ys := by
  obtain ⟨pre, post, hstream, -, hpost⟩ := List.filter_eq_append_iff.mp h
  obtain ⟨skipped, tail, rfl, -, he, hys⟩ := List.filter_eq_cons_iff.mp hpost
  have hl : l ≤ e.ledger := of_decide_eq_true he
  have hordered := server.ordered
  rw [hstream] at hordered
  have htail := (List.pairwise_append.mp (List.pairwise_append.mp hordered).2.1).2.1
  have hkeep : tail.filter (fun e' => decide (l ≤ e'.ledger)) = tail := by
    rw [List.filter_eq_self]
    intro e' he'
    exact decide_eq_true (Nat.le_trans hl ((List.pairwise_cons.mp htail).1 e' he'))
  rw [server.after_token (pre ++ skipped) e tail (by rw [hstream, List.append_assoc]), ← hys, hkeep]

theorem onwards_token {e : ContractEvent} (h : e ∈ onwards server l) : e.pagingToken ≠ "" :=
  server.token_ne e (List.mem_of_mem_filter h)

theorem listening_tracked : Tracked server o listening := ⟨rfl, rfl, rfl⟩

theorem failed_tracked (h : Tracked server o s) : Tracked server o (failed o s) := by
  unfold failed
  dsimp only
  split
  · exact h
  · exact h

theorem Tracked.unmoved (h : Tracked server o s) (hc : truthy s.cursor = none) :
    s.passed = [] := by
  unfold Tracked at h
  split at h
  · obtain ⟨received, rest, hp⟩ := h
    rw [hp.passed, hp.unmoved hc, List.filter_nil]
  · exact h.1

theorem placed_start (server : Server) (o : Options) (l : ℕ) {cursor : Option String}
    (hc : truthy cursor = none) :
    Placed server o l [] (onwards server l) cursor (some (.startLedger l)) [] := by
  refine ⟨rfl, rfl, ?_, fun _ => rfl, ?_⟩
  · intro c h
    rw [hc] at h
    cases h
  · intro r h
    cases h
    rfl

theorem poll_tracked (h : Tracked server o s) (latest : Except String ℕ) :
    Tracked server o (poll o s latest) := by
  unfold poll
  split
  · exact h
  · dsimp only
    cases hc : truthy s.cursor with
    | some c =>
      dsimp only
      unfold Tracked at h ⊢
      dsimp only
      split at h
      · obtain ⟨received, rest, hp⟩ := h
        refine ⟨received, rest, hp.split, hp.passed, hp.next, hp.unmoved, ?_⟩
        intro r hr
        cases hr
        exact hp.next c hc
      · rw [hc] at h
        cases h.2.1
    | none =>
      dsimp only
      have hpassed := h.unmoved hc
      cases hstart : s.startLedger.getD latest with
      | ok l =>
        have hp := placed_start server o l hc
        rw [← hpassed] at hp
        exact ⟨_, _, hp⟩
      | error e =>
        apply failed_tracked
        refine ⟨hpassed, hc, ?_⟩
        unfold Tracked at h
        split at h
        · rename_i l hl
          rw [hl] at hstart
          cases hstart
        · exact h.2.2

theorem Placed.page {cursor : Option String} {asking : Option Request}
    {passed rest' : List ContractEvent} {r : Response} {e : ContractEvent}
    (h : Placed server o l received rest cursor asking passed) (hrest : r.events ++ rest' = rest)
    (hlast : r.events.getLast? = some e) :
    Placed server o l (received ++ r.events) rest' (advance cursor r) none
      (passed ++ r.events.filter (isMatch o)) := by
  have hsplit : onwards server l = (received ++ r.events) ++ rest' := by
    rw [h.split, List.append_assoc, hrest]
  have hend : onwards server l = (received ++ r.events.dropLast) ++ e :: rest' := by
    rw [hsplit, getLast?_split hlast]
    simp
  have hmem : e ∈ onwards server l := by
    rw [hend]
    simp
  have htruthy : truthy (advance cursor r) = some e.pagingToken := by
    simp [truthy, advance, hlast, onwards_token hmem]
  constructor
  · exact hsplit
  · rw [h.passed, List.filter_append]
  · intro c hc
    rw [htruthy] at hc
    cases hc
    exact after_onwards hend
  · intro hnone
    rw [htruthy] at hnone
    cases hnone
  · intro r hr
    cases hr

theorem Placed.empty {cursor : Option String} {asking : Option Request}
    {passed : List ContractEvent} {r : Response}
    (h : Placed server o l received rest cursor asking passed) (hempty : r.events = [])
    (hcursor : ∀ c ∈ truthy r.cursor, server.after c = rest) :
    Placed server o l received rest (advance cursor r) none passed := by
  have hadvance : advance cursor r = if (truthy r.cursor).isSome then r.cursor else cursor := by
    simp [advance, hempty]
  refine ⟨h.split, h.passed, fun c hc => ?_, fun hnone => ?_, fun r hr => by cases hr⟩
  · rw [hadvance] at hc
    split at hc
    · exact hcursor c hc
    · exact h.next c hc
  · rw [hadvance] at hnone
    split at hnone
    · rename_i hsome
      rw [hnone] at hsome
      cases hsome
    · exact h.unmoved hnone

theorem Placed.receive {cursor : Option String} {passed : List ContractEvent} {q : Request}
    {r : Response} (h : Placed server o l received rest cursor (some q) passed)
    (ha : Answers server q r) :
    ∃ rest', Placed server o l (received ++ r.events) rest' (advance cursor r) none
      (passed ++ r.events.filter (isMatch o)) := by
  obtain ⟨⟨rest', hrest⟩, hcursor⟩ := ha
  rw [h.asking q rfl] at hrest hcursor
  cases hlast : r.events.getLast? with
  | some e => exact ⟨rest', h.page hrest hlast⟩
  | none =>
    have hempty := List.getLast?_eq_none_iff.mp hlast
    have hplaced := h.empty hempty (hcursor hempty)
    refine ⟨rest, ?_⟩
    simpa [hempty] using hplaced

theorem receive_tracked (h : Tracked server o s) {response : Except String Response}
    (hgood : Honest server ⟨s, .receive response, receive o s response⟩) :
    Tracked server o (receive o s response) := by
  unfold receive
  split
  · exact h
  · rename_i hasking
    obtain ⟨q, hq⟩ := Option.ne_none_iff_exists'.mp hasking
    unfold Tracked at h
    split at h
    · rename_i l hl
      obtain ⟨received, rest, hp⟩ := h
      cases response with
      | error e =>
        apply failed_tracked
        unfold Tracked
        dsimp only
        rw [hl]
        exact ⟨received, rest, hp.split, hp.passed, hp.next, hp.unmoved, by simp⟩
      | ok r =>
        simp only [Honest, hq] at hgood
        rw [hq] at hp
        obtain ⟨rest', hp'⟩ := hp.receive hgood
        unfold Tracked
        dsimp only
        rw [hl]
        exact ⟨_, rest', hp'⟩
    · exact absurd h.2.2 hasking

theorem step_tracked (h : Tracked server o s) (a : Action)
    (hgood : Honest server ⟨s, a, step o s a⟩) : Tracked server o (step o s a) := by
  cases a with
  | poll latest => exact poll_tracked h latest
  | receive response => exact receive_tracked h hgood
  | stop => exact h

theorem Tracked.inOrder (h : Tracked server o s) : InOrder server o s := by
  cases hstart : s.startLedger with
  | none =>
    simp only [Tracked, InOrder, hstart] at h ⊢
    exact h.1
  | some start =>
    cases start with
    | error e =>
      simp only [Tracked, InOrder, hstart] at h ⊢
      exact h.1
    | ok l =>
      simp only [Tracked, InOrder, hstart] at h ⊢
      obtain ⟨received, rest, hp⟩ := h
      rw [hp.passed, hp.split, List.filter_append]
      exact List.prefix_append _ _

/-- Whatever polls fail and however the server pages, what the listener has passed on is
always the start of the matching events from its start ledger. -/
theorem events_in_order (server : Server) (o : Options) (as : List Action)
    (hhonest : ∀ u ∈ trace (step o) listening as, Honest server u) :
    InOrder server o (run (step o) listening as) :=
  (run_invariant_of listening_tracked (fun _ a hgood h => step_tracked h a hgood) as
    hhonest).inOrder

/-- Two events from ledger 7 on, an earlier one, and one that does not match. -/
def sample : Server :=
  .ofStream [⟨6, ["released"], "1"⟩, ⟨7, ["released"], "2"⟩, ⟨7, ["refunded"], "3"⟩,
    ⟨9, ["released"], "4"⟩] (by decide) (by decide) (by decide)

theorem events_in_order_after_failures :
    InOrder sample ⟨["released"], 5⟩ (run (step ⟨["released"], 5⟩) listening
      [.poll (.ok 7), .receive (.error "reset"), .poll (.ok 8), .receive (.ok ⟨[], some "1"⟩),
        .poll (.ok 8), .receive (.ok ⟨[⟨7, ["released"], "2"⟩], none⟩), .poll (.ok 8),
        .receive (.error "reset"), .poll (.ok 8),
        .receive (.ok ⟨[⟨7, ["refunded"], "3"⟩, ⟨9, ["released"], "4"⟩], none⟩)]) :=
  events_in_order sample _ _ (by decide)

end PayFi.Tools.EventListener
