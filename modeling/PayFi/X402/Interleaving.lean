import PayFi.Library.Clock
import PayFi.Tools.Rebuilding
import PayFi.X402.Challenge

namespace PayFi.X402.Interleaving

open Library.Machine Library.Clock Library.ExpiringSet Network.Submission
open Tools.Payment Tools.Rebuilding Challenge

/-- Where a call of `respond` is suspended: before the query of `has`, after it, in the
payment before its envelope is handed over and then until it settles, before the
insertion of `add`, and after it. -/
inductive Phase where
  | asked
  | known (used : Bool)
  | loading (rebuilt : Bool)
  | submitted (rebuilt : Bool)
  | recording (txHash : String)
  | recorded (txHash : String)
  | resolved (proof : X402PaymentProof)
  | rejected (submitted : Bool) (e : X402Error)
  deriving DecidableEq

structure Call where
  challenge : X402Challenge
  phase : Phase
  deriving DecidableEq

structure Payment where
  call : ℕ
  nonce : String
  time : ℤ
  deriving DecidableEq

/-- One instance of the tool with its nonce store, and what its calls have submitted. -/
structure Tool where
  limiter : Limiter
  store : NonceStore
  calls : List Call
  payments : List Payment

/-- What a call does between two suspensions. A failure ends whatever the call awaits:
the query, the account, the submission or the insertion. -/
inductive Action where
  | respond (raw : RawChallenge) (now now' pruned : ℤ)
  | query (i : ℕ)
  | pay (i : ℕ)
  | submit (i : ℕ) (now : ℤ)
  | settle (i : ℕ) (txHash : String) (pruned : ℤ)
  | fail (i : ℕ) (e : Fault) (places : List (Option String))
  | insert (i : ℕ) (now : ℤ)
  | finish (i : ℕ) (now : ℤ) (pruneFails : Bool) (closedAt : Option String) (iso : String)

def Tool.move (t : Tool) (i : ℕ) (p : Phase) : Tool :=
  { t with calls := t.calls.modify i fun c => { c with phase := p } }

def Tool.prune (t : Tool) (ttlMs now : ℤ) : Tool :=
  { t with store := pruneNonces ttlMs now t.store }

def paying (su : Setup) (c : X402Challenge) : Phase :=
  match su.prepared c with
  | .ok _ => .loading false
  | .error e => .rejected false (paymentFailed e [])

def failing (e : Fault) (places : List (Option String)) : Phase → Option Phase
  | .asked => some (.rejected false (.error e.message))
  | .loading rebuilt => some (.rejected rebuilt (paymentFailed e places))
  | .submitted false =>
    if mentionsBadSeq e then some (.loading true)
    else some (.rejected true (paymentFailed e places))
  | .submitted true => some (.rejected true (paymentFailed e places))
  | .recording _ => some (.rejected true (.error e.message))
  | _ => none

def callStep (su : Setup) (t : Tool) (i : ℕ) (c : Call) : Action → Tool
  | .query _ =>
    match c.phase with
    | .asked => t.move i (.known (contains t.store c.challenge.nonce))
    | _ => t
  | .pay _ =>
    match c.phase with
    | .known true => t.move i (.rejected false nonceUsed)
    | .known false => t.move i (paying su c.challenge)
    | _ => t
  | .submit _ now =>
    match c.phase with
    | .loading rebuilt =>
      match su.built c.challenge with
      | .ok _ =>
        { t.move i (.submitted rebuilt) with
          payments := t.payments ++ [⟨i, c.challenge.nonce, now⟩] }
      | .error e => t.move i (.rejected rebuilt (paymentFailed e []))
    | _ => t
  | .settle _ txHash pruned =>
    match c.phase with
    | .submitted _ => (t.prune (configuredTtlMs su.cfg) pruned).move i (.recording txHash)
    | _ => t
  | .fail _ e places => (failing e places c.phase).elim t (t.move i)
  | .insert _ now =>
    match c.phase with
    | .recording txHash =>
      { t.move i (.recorded txHash) with store := insert t.store c.challenge.nonce now }
    | _ => t
  | .finish _ now pruneFails closedAt iso =>
    match c.phase with
    | .recorded txHash =>
      (if pruneFails then t else t.prune maxNonceTtlMs now).move i
        (.resolved (proof su.cfg su.publicKey c.challenge txHash closedAt iso))
    | _ => t
  | .respond .. => t

def target : Action → Option ℕ
  | .respond .. => none
  | .query i | .pay i | .submit i _ | .settle i _ _ | .fail i _ _ | .insert i _
  | .finish i _ _ _ _ => some i

def admitted (su : Setup) (t : Tool) (raw : RawChallenge) (now now' pruned : ℤ) : Tool :=
  match admission su.cfg su.pf su.publicKey t.limiter raw now now' with
  | (.error _, limiter) => { t with limiter := limiter }
  | (.ok challenge, limiter) =>
    { t.prune (configuredTtlMs su.cfg) pruned with
      limiter := limiter
      calls := t.calls ++ [⟨challenge, .asked⟩] }

def step (su : Setup) (t : Tool) (a : Action) : Tool :=
  match a with
  | .respond raw now now' pruned => admitted su t raw now now' pruned
  | a => ((target a).bind fun i => (t.calls[i]?).map fun c => callStep su t i c a).getD t

/-- No call yet; the nonce store may have been filled by an earlier process. -/
def idle (limiter : Limiter) (store : NonceStore) : Tool := ⟨limiter, store, [], []⟩

def readings : Action → List ℤ
  | .respond _ now now' pruned => [now, now', pruned]
  | .submit _ now | .settle _ _ now | .insert _ now | .finish _ now _ _ _ => [now]
  | .query _ | .pay _ | .fail _ _ _ => []

/-- The clock never goes back. -/
def Chronological (as : List Action) : Prop := (as.flatMap readings).Pairwise (· ≤ ·)

instance (as : List Action) : Decidable (Chronological as) :=
  inferInstanceAs (Decidable ((as.flatMap readings).Pairwise (· ≤ ·)))

/-- Within the lifetime of a nonce at most one payment is submitted for it. -/
def OnePerNonce (cfg : Config) (t : Tool) : Prop :=
  ∀ nonce start, (t.payments.filter fun p =>
    p.nonce = nonce ∧ start ≤ p.time ∧ p.time ≤ start + configuredTtlMs cfg).length ≤ 1

def Phase.holds : Phase → Bool
  | .known used => !used
  | .loading _ | .submitted _ | .recording _ => true
  | _ => false

def Phase.lost : Phase → Bool
  | .rejected handed _ => handed
  | _ => false

def Phase.unpaid : Phase → Bool
  | .asked | .known _ => true
  | .loading rebuilt => !rebuilt
  | .rejected handed _ => !handed
  | _ => false

/-- A nonce is found unused only when no call for it is between its own lookup and its
record, or has ended after a submission without one. No call submits a rebuilt payment. The
pruning after a payment drops no nonce that is younger than the configured lifetime. -/
def Exclusive (cfg : Config) (u : Transition Tool Action) : Prop :=
  match u.action with
  | .query i => ∀ c ∈ u.before.calls[i]?, contains u.before.store c.challenge.nonce = false →
      ∀ b ∈ u.before.calls, b.challenge.nonce = c.challenge.nonce →
        b.phase.holds = false ∧ b.phase.lost = false
  | .submit i _ => ∀ c ∈ u.before.calls[i]?, c.phase ≠ .loading true
  | .finish _ now pruneFails _ _ => pruneFails = false → ∀ e ∈ u.before.store,
      e.time < now - maxNonceTtlMs → e.time < now - configuredTtlMs cfg
  | _ => True

instance (cfg : Config) : (u : Transition Tool Action) → Decidable (Exclusive cfg u)
  | ⟨_, .query _, _⟩ => inferInstanceAs (Decidable (∀ c ∈ (_ : Option Call), _))
  | ⟨_, .submit _ _, _⟩ => inferInstanceAs (Decidable (∀ c ∈ (_ : Option Call), _))
  | ⟨_, .finish _ _ _ _ _, _⟩ => inferInstanceAs (Decidable (_ → _))
  | ⟨_, .respond .., _⟩ => .isTrue trivial
  | ⟨_, .pay _, _⟩ => .isTrue trivial
  | ⟨_, .settle _ _ _, _⟩ => .isTrue trivial
  | ⟨_, .fail _ _ _, _⟩ => .isTrue trivial
  | ⟨_, .insert _ _, _⟩ => .isTrue trivial

structure Keeps (p q : Phase) : Prop where
  holds : q.holds = true → p.holds = true
  unpaid : q.unpaid = true → p.unpaid = true
  lost : p.lost = false
  closes : p.holds = true → p.unpaid = true ∨ q.holds = true ∨ q.lost = true

inductive Effect (su : Setup) (t : Tool) (i : ℕ) (c : Call) : Action → Tool → Prop where
  | none (a : Action) : Effect su t i c a t
  | moved (a : Action) (q : Phase) (h : Keeps c.phase q) : Effect su t i c a (t.move i q)
  | unused (h : c.phase = .asked) (hs : contains t.store c.challenge.nonce = false) :
      Effect su t i c (.query i) (t.move i (.known false))
  | submitted (now : ℤ) (rebuilt : Bool) (h : c.phase = .loading rebuilt) :
      Effect su t i c (.submit i now) { t.move i (.submitted rebuilt) with
        payments := t.payments ++ [⟨i, c.challenge.nonce, now⟩] }
  | settled (txHash : String) (pruned : ℤ) (rebuilt : Bool) (h : c.phase = .submitted rebuilt) :
      Effect su t i c (.settle i txHash pruned)
        ((t.prune (configuredTtlMs su.cfg) pruned).move i (.recording txHash))
  | recorded (txHash : String) (now : ℤ) (h : c.phase = .recording txHash) :
      Effect su t i c (.insert i now) { t.move i (.recorded txHash) with
        store := insert t.store c.challenge.nonce now }
  | finished (txHash : String) (now : ℤ) (pruneFails : Bool) (closedAt : Option String)
      (iso : String) (h : c.phase = .recorded txHash) :
      Effect su t i c (.finish i now pruneFails closedAt iso)
        ((if pruneFails then t else t.prune maxNonceTtlMs now).move i
          (.resolved (proof su.cfg su.publicKey c.challenge txHash closedAt iso)))

variable {su : Setup} {t : Tool} {i : ℕ} {c : Call} {a : Action}

theorem keeps_of_unpaid {p q : Phase} (hp : p.unpaid = true) (hlost : p.lost = false)
    (hq : q.holds = true → p.holds = true) : Keeps p q :=
  ⟨hq, fun _ => hp, hlost, fun _ => .inl hp⟩

theorem keeps_of_paid {p q : Phase} (hlost : p.lost = false) (hq : q.unpaid = false)
    (hholds : q.holds = true → p.holds = true)
    (hcloses : p.holds = true → q.holds = true ∨ q.lost = true) : Keeps p q := by
  refine ⟨hholds, fun h => ?_, hlost, fun h => .inr (hcloses h)⟩
  rw [hq] at h
  cases h

theorem keeps_released {p q : Phase} (hp : p.unpaid = true) (hlost : p.lost = false)
    (hq : q.holds = false) : Keeps p q := by
  apply keeps_of_unpaid hp hlost
  intro h
  rw [hq] at h
  cases h

theorem keeps_held {p q : Phase} (hp : p.holds = true) (hlost : p.lost = false)
    (hq : q.holds = true) (hpaid : q.unpaid = false) : Keeps p q :=
  keeps_of_paid hlost hpaid (fun _ => hp) fun _ => .inl hq

theorem keeps_rejected {p : Phase} (hlost : p.lost = false) (e : X402Error) :
    Keeps p (.rejected true e) := by
  apply keeps_of_paid hlost rfl
  · simp [Phase.holds]
  · simp [Phase.lost]

theorem keeps_paying (su : Setup) (c : X402Challenge) : Keeps (.known false) (paying su c) := by
  apply keeps_of_unpaid rfl rfl
  intro _
  rfl

theorem keeps_failing {e : Fault} {places : List (Option String)} {p q : Phase}
    (h : failing e places p = some q) : Keeps p q := by
  cases p with
  | asked =>
    cases h
    exact keeps_released rfl rfl rfl
  | loading rebuilt =>
    cases h
    cases rebuilt with
    | false => exact keeps_released rfl rfl rfl
    | true => exact keeps_rejected rfl _
  | submitted rebuilt =>
    cases rebuilt with
    | false =>
      simp only [failing] at h
      split at h
      · cases h
        exact keeps_held rfl rfl rfl rfl
      · cases h
        exact keeps_rejected rfl _
    | true =>
      cases h
      exact keeps_rejected rfl _
  | recording txHash =>
    cases h
    exact keeps_rejected rfl _
  | known used => cases h
  | recorded txHash => cases h
  | resolved proof => cases h
  | rejected submitted e => cases h

theorem callStep_effect (ha : target a = some i) :
    Effect su t i c a (callStep su t i c a) := by
  cases a with
  | respond raw now now' pruned => cases ha
  | query j =>
    cases ha
    simp only [callStep]
    split
    · rename_i h
      cases hs : contains t.store c.challenge.nonce with
      | false => exact .unused h hs
      | true =>
        apply Effect.moved
        rw [h]
        exact keeps_released rfl rfl rfl
    · exact .none _
  | pay j =>
    cases ha
    simp only [callStep]
    split
    · rename_i h
      apply Effect.moved
      rw [h]
      exact keeps_released rfl rfl rfl
    · rename_i h
      apply Effect.moved
      rw [h]
      exact keeps_paying su c.challenge
    · exact .none _
  | submit j now =>
    cases ha
    simp only [callStep]
    split
    · rename_i rebuilt h
      split
      · exact .submitted now rebuilt h
      · apply Effect.moved
        rw [h]
        exact keeps_failing (show failing _ [] (.loading rebuilt) = some _ from rfl)
    · exact .none _
  | settle j txHash pruned =>
    cases ha
    simp only [callStep]
    split
    · rename_i rebuilt h
      exact .settled txHash pruned rebuilt h
    · exact .none _
  | fail j e places =>
    cases ha
    simp only [callStep]
    cases hf : failing e places c.phase with
    | none => exact .none _
    | some q => exact .moved _ q (keeps_failing hf)
  | insert j now =>
    cases ha
    simp only [callStep]
    split
    · rename_i txHash h
      exact .recorded txHash now h
    · exact .none _
  | finish j now pruneFails closedAt iso =>
    cases ha
    simp only [callStep]
    split
    · rename_i txHash h
      exact .finished txHash now pruneFails closedAt iso h
    · exact .none _

/-- A submitted payment whose call is at `a`: its nonce is still held, was lost, is in the
store since the payment or later, or has outlived its time. -/
def Covered (cfg : Config) (clock : ℤ) (store : NonceStore) (a : Call) (p : Payment) : Prop :=
  a.phase.holds = true ∨ a.phase.lost = true ∨
    (∃ e ∈ store, e.key = p.nonce ∧ p.time ≤ e.time) ∨ p.time + cfg.nonceTtlMs < clock

structure Held (cfg : Config) (clock : ℤ) (t : Tool) : Prop where
  alone : ∀ (i j : ℕ) (a b : Call), t.calls[i]? = some a → t.calls[j]? = some b →
    a.phase.holds = true → b.phase.holds = true → a.challenge.nonce = b.challenge.nonce → i = j
  absent : ∀ (i : ℕ) (a : Call), t.calls[i]? = some a → a.phase.holds = true →
    contains t.store a.challenge.nonce = false
  unpaid : ∀ (i : ℕ) (a : Call), t.calls[i]? = some a → a.phase.unpaid = true →
    ∀ p ∈ t.payments, p.call ≠ i
  covered : ∀ p ∈ t.payments, p.time ≤ clock ∧ ∃ a, t.calls[p.call]? = some a ∧
    a.challenge.nonce = p.nonce ∧ Covered cfg clock t.store a p
  apart : ∀ (i : ℕ) (a : Call), t.calls[i]? = some a → a.phase.holds = true →
    ∀ p ∈ t.payments, p.nonce = a.challenge.nonce → p.call = i ∨ p.time + cfg.nonceTtlMs < clock
  once : t.payments.Pairwise fun p q => p.nonce = q.nonce → p.time + cfg.nonceTtlMs < q.time

variable {cfg : Config} {clock now : ℤ} {p : Phase}

theorem idle_held (cfg : Config) (clock : ℤ) (limiter : Limiter) (store : NonceStore) :
    Held cfg clock (idle limiter store) := by
  constructor
  case once => exact .nil
  all_goals simp [idle]

theorem Held.later (h : Held cfg clock t) (hc : clock ≤ now) : Held cfg now t := by
  refine ⟨h.alone, h.absent, h.unpaid, ?_, ?_, h.once⟩
  · intro p hp
    obtain ⟨ht, a, ha, hn, hcov⟩ := h.covered p hp
    refine ⟨by omega, a, ha, hn, ?_⟩
    obtain hh | hl | hs | hx := hcov
    · exact .inl hh
    · exact .inr (.inl hl)
    · exact .inr (.inr (.inl hs))
    · exact .inr (.inr (.inr (by omega)))
  · intro i a ha hh p hp hn
    obtain h | h := h.apart i a ha hh p hp hn
    · exact .inl h
    · exact .inr (by omega)

theorem Held.prune (h : Held cfg clock t) {ttl : ℤ}
    (hold : ∀ e ∈ t.store, e.time < now - ttl → e.time + cfg.nonceTtlMs < clock) :
    Held cfg clock (t.prune ttl now) := by
  refine ⟨h.alone, ?_, h.unpaid, ?_, h.apart, h.once⟩
  · intro i a ha hh
    exact contains_prune (h.absent i a ha hh) _
  · intro p hp
    obtain ⟨ht, a, ha, hn, hcov⟩ := h.covered p hp
    refine ⟨ht, a, ha, hn, ?_⟩
    obtain hh | hl | ⟨e, he, hk, hle⟩ | hx := hcov
    · exact .inl hh
    · exact .inr (.inl hl)
    · by_cases hcut : e.time < now - ttl
      · have hexp := hold e he hcut
        exact .inr (.inr (.inr (by omega)))
      · exact .inr (.inr (.inl ⟨e, mem_prune.mpr ⟨he, by omega⟩, hk, hle⟩))
    · exact .inr (.inr (.inr hx))

theorem Held.expire (h : Held cfg clock t) :
    Held cfg clock (t.prune (configuredTtlMs cfg) clock) := by
  apply h.prune
  intro e _ hlt
  rw [configuredTtlMs_eq] at hlt
  omega

theorem Held.admitted (h : Held cfg clock t) (limiter : Limiter) (challenge : X402Challenge) :
    Held cfg clock { t with limiter := limiter, calls := t.calls ++ [⟨challenge, .asked⟩] } := by
  have hold : ∀ {j : ℕ} {b : Call}, (t.calls ++ [⟨challenge, .asked⟩])[j]? = some b →
      b.phase.holds = true → t.calls[j]? = some b := by
    intro j b hb hh
    rw [List.getElem?_append] at hb
    split at hb
    · exact hb
    · have hnew : b = ⟨challenge, .asked⟩ := by simpa using List.mem_of_getElem? hb
      rw [hnew] at hh
      cases hh
  have hlen : ∀ p ∈ t.payments, p.call < t.calls.length := by
    intro p hp
    obtain ⟨-, a, ha, -⟩ := h.covered p hp
    exact (List.getElem?_eq_some_iff.mp ha).1
  constructor
  · intro i j a b ha hb hha hhb
    exact h.alone i j a b (hold ha hha) (hold hb hhb) hha hhb
  · intro i a ha hh
    exact h.absent i a (hold ha hh) hh
  · intro i a ha hu p hp
    simp only at ha
    rw [List.getElem?_append] at ha
    split at ha
    · exact h.unpaid i a ha hu p hp
    · have := hlen p hp
      omega
  · intro p hp
    obtain ⟨ht, a, ha, hn, hcov⟩ := h.covered p hp
    exact ⟨ht, a, by rw [List.getElem?_append_left (hlen p hp)]; exact ha, hn, hcov⟩
  · intro i a ha hh
    exact h.apart i a (hold ha hh) hh
  · exact h.once

theorem move_cases (hc : t.calls[i]? = some c) {j : ℕ} {b : Call}
    (h : (t.move i p).calls[j]? = some b) :
    (i = j ∧ b = { c with phase := p }) ∨ (i ≠ j ∧ t.calls[j]? = some b) := by
  simp only [Tool.move, List.getElem?_modify] at h
  obtain ⟨a, ha, rfl⟩ := Option.map_eq_some_iff.mp h
  by_cases hij : i = j
  · subst hij
    rw [ha, Option.some.injEq] at hc
    subst hc
    exact .inl ⟨rfl, by simp⟩
  · exact .inr ⟨hij, by simpa [hij] using ha⟩

/-- After a move that takes no nonce and undoes no submission, what holds a nonce or has
not paid did so before. -/
theorem move_before (hc : t.calls[i]? = some c) (hh : p.holds = true → c.phase.holds = true)
    (hu : p.unpaid = true → c.phase.unpaid = true) {j : ℕ} {b : Call}
    (h : (t.move i p).calls[j]? = some b) : ∃ a, t.calls[j]? = some a ∧
      b.challenge = a.challenge ∧ (b.phase.holds = true → a.phase.holds = true) ∧
      (b.phase.unpaid = true → a.phase.unpaid = true) := by
  obtain ⟨rfl, rfl⟩ | ⟨-, hb⟩ := move_cases hc h
  · exact ⟨c, hc, rfl, hh, hu⟩
  · exact ⟨b, hb, rfl, id, id⟩

theorem getElem?_move {j : ℕ} {a : Call} (h : t.calls[j]? = some a) :
    (t.move i p).calls[j]? = some (if i = j then { a with phase := p } else a) := by
  simp only [Tool.move, List.getElem?_modify, h]
  by_cases hij : i = j
  · simp [hij]
  · simp [hij]

theorem Held.replace (h : Held cfg clock t) (hc : t.calls[i]? = some c)
    (hh : p.holds = true → c.phase.holds = true) (hu : p.unpaid = true → c.phase.unpaid = true)
    {store : NonceStore}
    (habsent : ∀ (j : ℕ) (b : Call), (t.move i p).calls[j]? = some b → b.phase.holds = true →
      contains store b.challenge.nonce = false)
    (hcovered : ∀ q ∈ t.payments, ∀ a, t.calls[q.call]? = some a → a.challenge.nonce = q.nonce →
      q.time ≤ clock → Covered cfg clock t.store a q →
        Covered cfg clock store (if i = q.call then { a with phase := p } else a) q) :
    Held cfg clock { t.move i p with store := store } := by
  refine ⟨?_, habsent, ?_, ?_, ?_, h.once⟩
  · intro j k b b' hb hb' hbh hbh' hn
    obtain ⟨a, ha, hca, hha, -⟩ := move_before hc hh hu hb
    obtain ⟨a', ha', hca', hha', -⟩ := move_before hc hh hu hb'
    rw [hca, hca'] at hn
    exact h.alone j k a a' ha ha' (hha hbh) (hha' hbh') hn
  · intro j b hb hbu
    obtain ⟨a, ha, -, -, hua⟩ := move_before hc hh hu hb
    exact h.unpaid j a ha (hua hbu)
  · intro q hq
    obtain ⟨ht, a, ha, hn, hcov⟩ := h.covered q hq
    refine ⟨ht, _, getElem?_move ha, ?_, hcovered q hq a ha hn ht hcov⟩
    split <;> exact hn
  · intro j b hb hbh
    obtain ⟨a, ha, hca, hha, -⟩ := move_before hc hh hu hb
    rw [hca]
    exact h.apart j a ha (hha hbh)

theorem Held.move (h : Held cfg clock t) (hc : t.calls[i]? = some c) (hk : Keeps c.phase p) :
    Held cfg clock (t.move i p) := by
  apply h.replace hc hk.holds hk.unpaid
  · intro j b hb hh
    obtain ⟨a, ha, hca, hha, -⟩ := move_before hc hk.holds hk.unpaid hb
    rw [hca]
    exact h.absent j a ha (hha hh)
  · intro q hq a ha _ _ hcov
    by_cases hiq : i = q.call
    · subst hiq
      rw [ha, Option.some.injEq] at hc
      subst hc
      rw [if_pos rfl]
      obtain hh | hl | hrest := hcov
      · obtain hu | hh' | hl' := hk.closes hh
        · exact absurd rfl (h.unpaid _ a ha hu q hq)
        · exact .inl hh'
        · exact .inr (.inl hl')
      · rw [hk.lost] at hl
        cases hl
      · exact .inr (.inr hrest)
    · rw [if_neg hiq]
      exact hcov

theorem Held.take (h : Held cfg clock t) (hc : t.calls[i]? = some c) (hp : c.phase = .asked)
    (hs : contains t.store c.challenge.nonce = false)
    (hfree : ∀ b ∈ t.calls, b.challenge.nonce = c.challenge.nonce →
      b.phase.holds = false ∧ b.phase.lost = false) :
    Held cfg clock (t.move i (.known false)) := by
  have hother : ∀ {j : ℕ} {b : Call}, t.calls[j]? = some b → b.phase.holds = true →
      b.challenge.nonce ≠ c.challenge.nonce := by
    intro j b hb hh hn
    rw [(hfree b (List.mem_of_getElem? hb) hn).1] at hh
    cases hh
  refine ⟨?_, ?_, ?_, ?_, ?_, h.once⟩
  · intro j k a b ha hb hha hhb hn
    obtain ⟨rfl, rfl⟩ | ⟨-, ha⟩ := move_cases hc ha
    · obtain ⟨rfl, rfl⟩ | ⟨-, hb⟩ := move_cases hc hb
      · rfl
      · exact absurd hn.symm (hother hb hhb)
    · obtain ⟨rfl, rfl⟩ | ⟨-, hb⟩ := move_cases hc hb
      · exact absurd hn (hother ha hha)
      · exact h.alone j k a b ha hb hha hhb hn
  · intro j a ha hh
    obtain ⟨rfl, rfl⟩ | ⟨-, ha⟩ := move_cases hc ha
    · exact hs
    · exact h.absent j a ha hh
  · intro j a ha hu
    obtain ⟨rfl, rfl⟩ | ⟨-, ha⟩ := move_cases hc ha
    · exact h.unpaid i c hc (by rw [hp]; rfl)
    · exact h.unpaid j a ha hu
  · intro q hq
    obtain ⟨ht, a, ha, hn, hcov⟩ := h.covered q hq
    refine ⟨ht, _, getElem?_move ha, ?_⟩
    have hiq : i ≠ q.call := (h.unpaid i c hc (by rw [hp]; rfl) q hq).symm
    rw [if_neg hiq]
    exact ⟨hn, hcov⟩
  · intro j a ha hh q hq hn
    obtain ⟨rfl, rfl⟩ | ⟨-, ha⟩ := move_cases hc ha
    · obtain ⟨-, b, hb, hbn, hcov⟩ := h.covered q hq
      have hb' := hfree b (List.mem_of_getElem? hb) (hbn.trans hn)
      obtain hh' | hl | ⟨e, he, hk, -⟩ | hx := hcov
      · rw [hb'.1] at hh'
        cases hh'
      · rw [hb'.2] at hl
        cases hl
      · exact absurd (hk.trans hn) (not_contains_iff.mp hs e he)
      · exact .inr hx
    · exact h.apart j a ha hh q hq hn

theorem Held.pay (h : Held cfg clock t) (hc : t.calls[i]? = some c) (hh : c.phase.holds = true)
    (hp : c.phase.unpaid = false) (hnone : ∀ q ∈ t.payments, q.call ≠ i) :
    Held cfg clock { t with payments := t.payments ++ [⟨i, c.challenge.nonce, clock⟩] } := by
  refine ⟨h.alone, h.absent, ?_, ?_, ?_, ?_⟩
  · intro j a ha hu
    refine List.forall_mem_append.mpr ⟨h.unpaid j a ha hu, List.forall_mem_singleton.mpr ?_⟩
    rintro rfl
    rw [hc, Option.some.injEq] at ha
    subst ha
    rw [hp] at hu
    cases hu
  · refine List.forall_mem_append.mpr ⟨h.covered, List.forall_mem_singleton.mpr ?_⟩
    exact ⟨le_rfl, c, hc, rfl, .inl hh⟩
  · intro j a ha hha
    refine List.forall_mem_append.mpr ⟨h.apart j a ha hha, List.forall_mem_singleton.mpr ?_⟩
    intro hn
    exact .inl (h.alone i j c a hc ha hh hha hn)
  · refine List.pairwise_append.mpr ⟨h.once, List.pairwise_singleton .., ?_⟩
    intro q hq r hr hn
    rw [List.mem_singleton.mp hr] at hn ⊢
    obtain hi | hx := h.apart i c hc hh q hq hn
    · exact absurd hi (hnone q hq)
    · exact hx

theorem Held.record (h : Held cfg clock t) (hc : t.calls[i]? = some c) {txHash : String}
    (hp : c.phase = .recording txHash) :
    Held cfg clock { t.move i (.recorded txHash) with
      store := insert t.store c.challenge.nonce clock } := by
  have hh : c.phase.holds = true := by
    rw [hp]
    rfl
  have habsent := h.absent i c hc hh
  apply h.replace hc (fun _ => hh) (by simp [Phase.unpaid])
  · intro j b hb hbh
    obtain ⟨rfl, rfl⟩ | ⟨hij, hb⟩ := move_cases hc hb
    · cases hbh
    · apply contains_insert_of_ne (h.absent j b hb hbh)
      intro hn
      exact hij (h.alone i j c b hc hb hh hbh hn)
  · intro q hq a ha hn ht hcov
    by_cases hiq : i = q.call
    · subst hiq
      rw [hc, Option.some.injEq] at ha
      subst ha
      rw [if_pos rfl]
      refine .inr (.inr (.inl ⟨⟨c.challenge.nonce, clock⟩, ?_, hn, ht⟩))
      rw [insert_of_absent habsent]
      exact List.mem_append_right _ (List.mem_singleton_self _)
    · rw [if_neg hiq]
      obtain hh | hl | ⟨e, he, hk, hle⟩ | hx := hcov
      · exact .inl hh
      · exact .inr (.inl hl)
      · exact .inr (.inr (.inl ⟨e, mem_insert_of_mem he, hk, hle⟩))
      · exact .inr (.inr (.inr hx))

theorem respond_held (h : Held su.cfg clock t) {raw : RawChallenge} {now now' pruned : ℤ}
    (hclock : clock ≤ pruned) : Held su.cfg pruned (step su t (.respond raw now now' pruned)) := by
  have hlater := h.later hclock
  simp only [step, admitted]
  split
  · rename_i e limiter _
    exact ⟨hlater.alone, hlater.absent, hlater.unpaid, hlater.covered, hlater.apart, hlater.once⟩
  · rename_i challenge limiter _
    exact hlater.expire.admitted limiter challenge

theorem effect_held {t' : Tool} (h : Held su.cfg clock t) (hc : t.calls[i]? = some c)
    (ha : target a = some i) (hclock : (clock :: readings a).Pairwise (· ≤ ·))
    (hgood : Exclusive su.cfg ⟨t, a, t'⟩) (he : Effect su t i c a t') :
    Held su.cfg ((readings a).getLastD clock) t' := by
  have hlater := h.later (le_getLastD hclock)
  cases he with
  | none => exact hlater
  | moved _ q hk => exact hlater.move hc hk
  | unused hp hs => exact hlater.take hc hp hs (hgood c hc hs)
  | submitted now rebuilt hp =>
    have hfirst : rebuilt = false := by
      have hne := hgood c hc
      rw [hp] at hne
      simpa using hne
    subst hfirst
    have hk : Keeps c.phase (.submitted false) := by
      rw [hp]
      apply keeps_of_unpaid rfl rfl
      simp [Phase.holds]
    have hmoved : (t.move i (.submitted false)).calls[i]? =
        some { c with phase := .submitted false } := by
      rw [getElem?_move hc, if_pos rfl]
    exact (hlater.move hc hk).pay (c := { c with phase := .submitted false }) hmoved rfl rfl
      (hlater.unpaid i c hc (by rw [hp]; rfl))
  | settled txHash pruned rebuilt hp =>
    apply hlater.expire.move hc
    rw [hp]
    exact keeps_held rfl rfl rfl rfl
  | recorded txHash now hp => exact hlater.record hc hp
  | finished txHash now pruneFails closedAt iso hp =>
    have hk : Keeps c.phase
        (.resolved (proof su.cfg su.publicKey c.challenge txHash closedAt iso)) := by
      rw [hp]
      apply keeps_of_paid rfl rfl
      · simp [Phase.holds]
      · simp [Phase.holds]
    cases pruneFails with
    | true => exact hlater.move hc hk
    | false =>
      have hold : ∀ e ∈ t.store, e.time < now - maxNonceTtlMs →
          e.time + su.cfg.nonceTtlMs < now := by
        intro e he hlt
        have hyoung := hgood rfl e he hlt
        rw [configuredTtlMs_eq] at hyoung
        omega
      exact (hlater.prune hold).move hc hk

theorem step_held (h : Held su.cfg clock t) (a : Action)
    (hclock : (clock :: readings a).Pairwise (· ≤ ·))
    (hgood : Exclusive su.cfg ⟨t, a, step su t a⟩) :
    Held su.cfg ((readings a).getLastD clock) (step su t a) := by
  by_cases ha : target a = none
  · cases a with
    | respond raw now now' pruned =>
      apply respond_held h
      simp only [readings, List.pairwise_cons, List.mem_cons] at hclock
      exact hclock.1 pruned (by simp)
    | _ => cases ha
  · obtain ⟨i, hi⟩ := Option.ne_none_iff_exists'.mp ha
    have hstep : step su t a = ((t.calls[i]?).map fun c => callStep su t i c a).getD t := by
      cases a with
      | respond raw now now' pruned => cases hi
      | _ =>
        simp only [step]
        rw [hi]
        rfl
    cases hc : t.calls[i]? with
    | none =>
      rw [hstep, hc]
      exact h.later (le_getLastD hclock)
    | some c =>
      rw [hstep, hc] at hgood ⊢
      exact effect_held h hc hi hclock hgood (callStep_effect hi)

theorem run_held (as : List Action) (h : Held su.cfg clock t)
    (hclock : (clock :: as.flatMap readings).Pairwise (· ≤ ·))
    (hgood : ∀ u ∈ trace (step su) t as, Exclusive su.cfg u) :
    ∃ clock', Held su.cfg clock' (run (step su) t as) :=
  (timed_invariant (fun a ht ha hu => step_held ht a ha hu) as h hclock hgood).2

theorem Held.onePerNonce (h : Held cfg clock t) : OnePerNonce cfg t := by
  intro nonce start
  have honce := h.once.sublist (List.filter_sublist (p := fun p =>
    p.nonce = nonce ∧ start ≤ p.time ∧ p.time ≤ start + configuredTtlMs cfg))
  cases hps : t.payments.filter fun p =>
      p.nonce = nonce ∧ start ≤ p.time ∧ p.time ≤ start + configuredTtlMs cfg with
  | nil => simp
  | cons p ps =>
    cases ps with
    | nil => simp
    | cons q qs =>
      have hin : ∀ r ∈ p :: q :: qs, r.nonce = nonce ∧ start ≤ r.time ∧
          r.time ≤ start + configuredTtlMs cfg := by
        intro r hr
        rw [← hps] at hr
        simpa using (List.mem_filter.mp hr).2
      rw [hps] at honce
      have hp := hin p (by simp)
      have hq := hin q (by simp)
      have hlt := (List.pairwise_cons.mp honce).1 q (by simp) (hp.1.trans hq.1.symm)
      rw [configuredTtlMs_eq] at hp hq
      omega

/-- At most one payment is submitted for a nonce within its lifetime, in every interleaving
in which no nonce is found unused that another call holds or has lost. -/
theorem one_payment_per_nonce (su : Setup) (limiter : Limiter) (store : NonceStore)
    (as : List Action) (hclock : Chronological as)
    (hgood : ∀ u ∈ trace (step su) (idle limiter store) as, Exclusive su.cfg u) :
    OnePerNonce su.cfg (run (step su) (idle limiter store) as) := by
  obtain ⟨clock, h⟩ := run_held as (idle_held su.cfg _ limiter store)
    (pairwise_headD_cons hclock 0) hgood
  exact h.onePerNonce

def sample : Setup := ⟨Sample.config, Sample.platform, Sample.sdk, "GAGENT"⟩

theorem one_payment_per_nonce_in_turn :
    OnePerNonce Sample.config (run (step sample) (idle ⟨0, 0⟩ [])
      [.respond Sample.challenge 0 0 0, .query 0, .pay 0, .submit 0 1, .settle 0 "hash" 5,
        .insert 0 6, .respond Sample.challenge 6 6 6, .query 1, .finish 0 7 false none "",
        .pay 1]) :=
  one_payment_per_nonce sample ⟨0, 0⟩ [] _ (by decide) (by decide +kernel)

/-- Two calls look the nonce up before either of them has recorded it. -/
theorem two_payments_per_nonce :
    let as : List Action := [.respond Sample.challenge 0 0 0, .respond Sample.challenge 0 0 0,
      .query 0, .query 1, .pay 0, .pay 1, .submit 0 1, .submit 1 1]
    Chronological as ∧ ¬ OnePerNonce Sample.config (run (step sample) (idle ⟨0, 0⟩ []) as) := by
  intro as
  refine ⟨by decide, fun h => absurd (h "550e8400-e29b-41d4-a716-446655440000" 0) ?_⟩
  decide +kernel

end PayFi.X402.Interleaving
