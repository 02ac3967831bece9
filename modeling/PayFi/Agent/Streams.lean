import PayFi.Library.Handles
import PayFi.Library.JsonText
import PayFi.Library.Machine
import PayFi.Library.Objects
import PayFi.X402.Challenge

namespace PayFi.Agent.Streams

open Library.Handles Library.JsonText Library.Machine Library.Objects X402.Challenge

def field (json : List (String × Json)) (name : String) : Option (Option String) :=
  match json.lookup name with
  | none => some none
  | some (.string s) => some (some s)
  | some _ => none

def rawOf : Json → Option RawChallenge
  | .object members => do
    let json := ofMembers members
    let resource ← field json "resource"
    let amount ← field json "amount"
    let assetCode ← field json "assetCode"
    let assetIssuer ← field json "assetIssuer"
    let payTo ← field json "payTo"
    let nonce ← field json "nonce"
    let expiresAt ← field json "expiresAt"
    return ⟨resource, amount, assetCode, assetIssuer, payTo, nonce, expiresAt⟩
  | _ => none

def memoPrefix : List Char := "x402:".toList

/-- What the listener is set up with; `fromBase64` is `Buffer.from` and back to a text. -/
structure Setup where
  cfg : Config
  pf : Platform
  fromBase64 : List Char → List Char

def challengeOf (su : Setup) (text : List Char) : Option X402Challenge := do
  let raw ← rawOf (← parse (su.fromBase64 text))
  (x402ChallengeSchema su.cfg su.pf raw).toOption

inductive Event where
  | stream (use : Use)
  | listener (use : Use)
  | onChallenge (stream : ℕ) (challenge : X402Challenge)
  | dropped (stream : ℕ)
  deriving DecidableEq

/-- `_streamStop` and `_contractListenerStop`, and what has been done so far. -/
structure Subscriptions where
  streamStop : Slot
  contractListenerStop : Slot
  journal : List Event

def stopListening (s : Subscriptions) : Subscriptions :=
  let (slot, uses) := s.streamStop.close
  { s with streamStop := slot, journal := s.journal ++ uses.map .stream }

def startListening (s : Subscriptions) : Subscriptions :=
  let (slot, uses) := s.streamStop.keep
  { s with streamStop := slot, journal := s.journal ++ uses.map .stream }

def startContractListener (s : Subscriptions) : Subscriptions :=
  let (slot, uses) := s.contractListenerStop.replace
  { s with contractListenerStop := slot, journal := s.journal ++ uses.map .listener }

def stopContractListener (s : Subscriptions) : Subscriptions :=
  let (slot, uses) := s.contractListenerStop.close
  { s with contractListenerStop := slot, journal := s.journal ++ uses.map .listener }

def destroy (s : Subscriptions) : Subscriptions := stopContractListener (stopListening s)

variable (su : Setup)

def onmessage (s : Subscriptions) (stream : ℕ) (memo : Option String) : Subscriptions :=
  let memo := (memo.getD "").toList
  if memoPrefix.isPrefixOf memo then
    match challengeOf su (memo.drop 5) with
    | some challenge => { s with journal := s.journal ++ [.onChallenge stream challenge] }
    | none => { s with journal := s.journal ++ [.dropped stream] }
  else s

/-- Calls of the agent, and what comes from a stream: messages while it is open, and an error at
any time after it has been opened. -/
inductive Action where
  | startListening
  | message (stream : ℕ) (memo : Option String)
  | error (stream : ℕ)
  | stopListening
  | startContractListener
  | stopContractListener
  | destroy

def step (s : Subscriptions) : Action → Subscriptions
  | .startListening => startListening s
  | .message stream memo =>
    if s.streamStop.held = some stream then onmessage su s stream memo else s
  | .error stream => if stream < s.streamStop.count then stopListening s else s
  | .stopListening => stopListening s
  | .startContractListener => startContractListener s
  | .stopContractListener => stopContractListener s
  | .destroy => destroy s

def created : Subscriptions := ⟨empty, empty, []⟩

def streamUses (journal : List Event) : List Use :=
  journal.filterMap fun
    | .stream use => some use
    | _ => none

def listenerUses (journal : List Event) : List Use :=
  journal.filterMap fun
    | .listener use => some use
    | _ => none

structure Orderly (s : Subscriptions) : Prop where
  streams : InTurn (streamUses s.journal) s.streamStop
  listeners : InTurn (listenerUses s.journal) s.contractListenerStop

variable {su} {s : Subscriptions}

theorem streamUses_append (xs ys : List Event) :
    streamUses (xs ++ ys) = streamUses xs ++ streamUses ys := List.filterMap_append

theorem listenerUses_append (xs ys : List Event) :
    listenerUses (xs ++ ys) = listenerUses xs ++ listenerUses ys := List.filterMap_append

@[simp] theorem streamUses_stream (uses : List Use) : streamUses (uses.map .stream) = uses := by
  rw [streamUses, List.filterMap_map]
  exact List.filterMap_some

@[simp] theorem listenerUses_stream (uses : List Use) : listenerUses (uses.map .stream) = [] := by
  rw [listenerUses, List.filterMap_map]
  exact List.filterMap_eq_nil_iff.mpr fun _ _ => rfl

@[simp] theorem listenerUses_listener (uses : List Use) :
    listenerUses (uses.map .listener) = uses := by
  rw [listenerUses, List.filterMap_map]
  exact List.filterMap_some

@[simp] theorem streamUses_listener (uses : List Use) :
    streamUses (uses.map .listener) = [] := by
  rw [streamUses, List.filterMap_map]
  exact List.filterMap_eq_nil_iff.mpr fun _ _ => rfl

theorem stopListening_orderly (h : Orderly s) : Orderly (stopListening s) := by
  refine ⟨?_, ?_⟩
  · rw [stopListening, streamUses_append, streamUses_stream]
    exact h.streams.close
  · rw [stopListening, listenerUses_append, listenerUses_stream, List.append_nil]
    exact h.listeners

theorem startListening_orderly (h : Orderly s) : Orderly (startListening s) := by
  refine ⟨?_, ?_⟩
  · rw [startListening, streamUses_append, streamUses_stream]
    exact h.streams.keep
  · rw [startListening, listenerUses_append, listenerUses_stream, List.append_nil]
    exact h.listeners

theorem startContractListener_orderly (h : Orderly s) : Orderly (startContractListener s) := by
  refine ⟨?_, ?_⟩
  · rw [startContractListener, streamUses_append, streamUses_listener, List.append_nil]
    exact h.streams
  · rw [startContractListener, listenerUses_append, listenerUses_listener]
    exact h.listeners.replace

theorem stopContractListener_orderly (h : Orderly s) : Orderly (stopContractListener s) := by
  refine ⟨?_, ?_⟩
  · rw [stopContractListener, streamUses_append, streamUses_listener, List.append_nil]
    exact h.streams
  · rw [stopContractListener, listenerUses_append, listenerUses_listener]
    exact h.listeners.close

theorem Orderly.log (h : Orderly s) {event : Event} (hstream : streamUses [event] = [])
    (hlistener : listenerUses [event] = []) :
    Orderly { s with journal := s.journal ++ [event] } := by
  refine ⟨?_, ?_⟩
  · rw [streamUses_append, hstream, List.append_nil]
    exact h.streams
  · rw [listenerUses_append, hlistener, List.append_nil]
    exact h.listeners

theorem step_orderly (h : Orderly s) (a : Action) : Orderly (step su s a) := by
  cases a with
  | startListening => exact startListening_orderly h
  | message stream memo =>
    rw [step]
    split
    · unfold onmessage
      dsimp only
      split
      · split
        · exact h.log rfl rfl
        · exact h.log rfl rfl
      · exact h
    · exact h
  | error stream =>
    rw [step]
    split
    · exact stopListening_orderly h
    · exact h
  | stopListening => exact stopListening_orderly h
  | startContractListener => exact startContractListener_orderly h
  | stopContractListener => exact stopContractListener_orderly h
  | destroy => exact stopContractListener_orderly (stopListening_orderly h)

theorem run_orderly (as : List Action) : Orderly (run (step su) created as) := by
  have hcreated : Orderly created := ⟨empty_inTurn, empty_inTurn⟩
  exact run_invariant hcreated (fun _ a h => step_orderly h a) as

theorem mem_streamUses {journal : List Event} {use : Use} :
    use ∈ streamUses journal ↔ .stream use ∈ journal := by
  rw [streamUses, List.mem_filterMap]
  refine ⟨fun ⟨event, hmem, h⟩ => ?_, fun hmem => ⟨_, hmem, rfl⟩⟩
  cases event with
  | stream use' =>
    cases h
    exact hmem
  | listener use' => cases h
  | onChallenge stream challenge => cases h
  | dropped stream => cases h

theorem mem_listenerUses {journal : List Event} {use : Use} :
    use ∈ listenerUses journal ↔ .listener use ∈ journal := by
  rw [listenerUses, List.mem_filterMap]
  refine ⟨fun ⟨event, hmem, h⟩ => ?_, fun hmem => ⟨_, hmem, rfl⟩⟩
  cases event with
  | listener use' =>
    cases h
    exact hmem
  | stream use' => cases h
  | onChallenge stream challenge => cases h
  | dropped stream => cases h

/-- What the agent has open, and what it can open and close. -/
structure Managed (su : Setup) (s : Subscriptions) : Prop where
  stream : ∀ i, s.streamStop.held = some i ↔
    .stream (.opened i) ∈ s.journal ∧ .stream (.closed i) ∉ s.journal
  listener : ∀ i, s.contractListenerStop.held = some i ↔
    .listener (.opened i) ∈ s.journal ∧ .listener (.closed i) ∉ s.journal
  once : (streamUses s.journal).Nodup ∧ (listenerUses s.journal).Nodup
  next : .stream (.opened s.streamStop.count) ∉ s.journal ∧
    .listener (.opened s.contractListenerStop.count) ∉ s.journal
  starts : (startListening s).streamStop.held = some (s.streamStop.held.getD s.streamStop.count)
  restarts : (startContractListener s).contractListenerStop.held =
    some s.contractListenerStop.count
  stops : (stopListening s).streamStop.held = none ∧
    (stopContractListener s).contractListenerStop.held = none
  destroyed : (destroy s).streamStop.held = none ∧ (destroy s).contractListenerStop.held = none
  recovers : ∀ i, .stream (.opened i) ∈ s.journal →
    (startListening (step su s (.error i))).streamStop.held = some s.streamStop.count

/-- At any time at most one stream and one listener are open, the ones that can be closed; none
is closed twice. A start leaves one open, a new one if there was none (of listeners always), a
stop and `destroy` none; and after an error of any stream a new one can be opened. -/
theorem subscriptions_in_turn (su : Setup) (as : List Action) :
    Managed su (run (step su) created as) := by
  have h : Orderly (run (step su) created as) := run_orderly as
  refine ⟨fun i => ?_, fun i => ?_, ⟨h.streams.nodup, h.listeners.nodup⟩, ⟨?_, ?_⟩, held_keep _,
    held_replace _, ⟨held_close _, held_close _⟩, ⟨held_close _, held_close _⟩, fun i hi => ?_⟩
  · rw [h.streams.held_iff, mem_streamUses, mem_streamUses]
  · rw [h.listeners.held_iff, mem_listenerUses, mem_listenerUses]
  · rw [← mem_streamUses, h.streams.opened_iff]
    exact Nat.lt_irrefl _
  · rw [← mem_listenerUses, h.listeners.opened_iff]
    exact Nat.lt_irrefl _
  · have hopened := h.streams.opened_iff.mp (mem_streamUses.mpr hi)
    rw [step, if_pos hopened]
    exact held_keep_close (run (step su) created as).streamStop

/-- A memo that carries a challenge: the prefix, and the base64 of a JSON object whose fields the
schema accepts. -/
def Carries (su : Setup) (memo : String) (c : X402Challenge) : Prop :=
  ∃ text json raw, memo.toList = memoPrefix ++ text ∧ parse (su.fromBase64 text) = some json ∧
    rawOf json = some raw ∧ x402ChallengeSchema su.cfg su.pf raw = .ok c

/-- The payments that come while their stream is open, with its number and their memos. -/
def delivered (u : Transition Subscriptions Action) : Option (ℕ × String) :=
  match u.action with
  | .message stream memo =>
    if u.before.streamStop.held = some stream then some (stream, memo.getD "") else none
  | _ => none

/-- The challenges of a list of memos: one for each memo that carries one, in their order. -/
inductive Reads (su : Setup) : List (ℕ × String) → List (ℕ × X402Challenge) → Prop where
  | nil : Reads su [] []
  | carried {ds : List (ℕ × String)} {hs : List (ℕ × X402Challenge)} {memo : String}
      {c : X402Challenge} (stream : ℕ) (hmemo : Carries su memo c) (h : Reads su ds hs) :
      Reads su (ds ++ [(stream, memo)]) (hs ++ [(stream, c)])
  | other {ds : List (ℕ × String)} {hs : List (ℕ × X402Challenge)} {memo : String} (stream : ℕ)
      (hmemo : ∀ c, ¬ Carries su memo c) (h : Reads su ds hs) :
      Reads su (ds ++ [(stream, memo)]) hs

end PayFi.Agent.Streams
