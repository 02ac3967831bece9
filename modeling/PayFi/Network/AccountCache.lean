import Mathlib.Data.Int.Notation
import Mathlib.Logic.Function.Basic
import PayFi.Library.Machine
import PayFi.Library.Parties

namespace PayFi.Network.AccountCache

open Library.Machine Library.Parties

variable {Key Account : Type}

structure CachedAccount (Account : Type) where
  account : Account
  expiresAt : ℤ

abbrev Cache (Key Account : Type) := Key → Option (CachedAccount Account)

def invalidateAccountCache [DecidableEq Key] (c : Cache Key Account) :
    Option Key → Cache Key Account
  | none => fun _ => none
  | some key => Function.update c key none

/-- The part of `loadAccount` before its request: the cached copy when one is
still fresh. -/
def lookup [DecidableEq Key] (ttl : ℕ) (c : Cache Key Account) (key : Key) (forceRefresh : Bool)
    (now : ℤ) : Option Account × Cache Key Account :=
  if forceRefresh then (none, Function.update c key none)
  else if 0 < ttl then
    match c key with
    | some cached =>
      if now < cached.expiresAt then (some cached.account, c)
      else (none, Function.update c key none)
    | none => (none, c)
  else (none, c)

/-- The part of `loadAccount` after its response. -/
def store [DecidableEq Key] (ttl : ℕ) (c : Cache Key Account) (key : Key) (account : Account)
    (now : ℤ) : Cache Key Account :=
  if 0 < ttl then Function.update c key (some ⟨account, now + ttl⟩) else c

/-- How far a call of `loadAccount` has come. An account record is known by the
time at which its Horizon request was issued. -/
inductive Status where
  | waiting
  | requested (request : ℕ)
  | answered (request : ℕ)
  | failed

structure Load (Key : Type) where
  key : Key
  started : ℕ
  status : Status

/-- A point after which no earlier record of the key, or of any key, may be served. -/
structure Invalidation (Key : Type) where
  key : Option Key
  time : ℕ

def Invalidation.Affects (p : Invalidation Key) (key : Key) : Prop :=
  p.key = none ∨ p.key = some key

instance [DecidableEq Key] (p : Invalidation Key) (key : Key) : Decidable (p.Affects key) :=
  inferInstanceAs (Decidable (_ ∨ _))

/-- The client, whose time is the number of steps taken so far. -/
structure Client (Key : Type) where
  time : ℕ
  cache : Cache Key ℕ
  loads : List (Load Key)
  invalidations : List (Invalidation Key)

/-- A load asks the cache, issues its request (again when it retries), and is
answered or fails. A submission counts when it returns or throws; an envelope
that fails `validateXDR` throws before there is anything to clear. -/
inductive Action (Key : Type) where
  | load (key : Key) (forceRefresh : Bool) (now : ℤ)
  | request (i : ℕ)
  | respond (i : ℕ) (now : ℤ)
  | fail (i : ℕ)
  | submitted (validXDR : Bool)
  | invalidate (key : Option Key)

def Load.request (time : ℕ) (l : Load Key) : Load Key :=
  match l.status with
  | .waiting | .requested _ => { l with status := .requested time }
  | _ => l

def Load.respond (l : Load Key) : Load Key :=
  match l.status with
  | .requested r => { l with status := .answered r }
  | _ => l

def Load.fail (l : Load Key) : Load Key :=
  match l.status with
  | .waiting | .requested _ => { l with status := .failed }
  | _ => l

def Load.request? (l : Load Key) : Option ℕ :=
  match l.status with
  | .requested r => some r
  | _ => none

def Load.answer? (l : Load Key) : Option ℕ :=
  match l.status with
  | .answered r => some r
  | _ => none

def Client.invalidate [DecidableEq Key] (s : Client Key) (key : Option Key) : Client Key :=
  { s with
    cache := invalidateAccountCache s.cache key
    invalidations := s.invalidations ++ [⟨key, s.time⟩] }

def written [DecidableEq Key] (ttl : ℕ) (s : Client Key) (i : ℕ) (now : ℤ) : Cache Key ℕ :=
  match s.loads[i]? with
  | some l =>
    match l.request? with
    | some r => store ttl s.cache l.key r now
    | none => s.cache
  | none => s.cache

def act [DecidableEq Key] (ttl : ℕ) (s : Client Key) : Action Key → Client Key
  | .load key forceRefresh now =>
    let (served, cache) := lookup ttl s.cache key forceRefresh now
    { s with
      cache := cache
      loads := s.loads ++ [⟨key, s.time, served.elim .waiting .answered⟩]
      invalidations := if forceRefresh then s.invalidations ++ [⟨some key, s.time⟩]
        else s.invalidations }
  | .request i => { s with loads := s.loads.modify i (Load.request s.time) }
  | .respond i now =>
    { s with cache := written ttl s i now, loads := s.loads.modify i Load.respond }
  | .fail i => { s with loads := s.loads.modify i Load.fail }
  | .submitted true => s.invalidate none
  | .submitted false => { s with invalidations := s.invalidations ++ [⟨none, s.time⟩] }
  | .invalidate key => s.invalidate key

def step [DecidableEq Key] (ttl : ℕ) (s : Client Key) (a : Action Key) : Client Key :=
  { act ttl s a with time := s.time + 1 }

def idle : Client Key := ⟨0, fun _ => none, [], []⟩

/-- The record was requested after every invalidation of its key before `time`. -/
def Current (s : Client Key) (key : Key) (request time : ℕ) : Prop :=
  ∀ p ∈ s.invalidations, p.Affects key → p.time < time → p.time ≤ request

/-- No load has been answered with a record requested before an invalidation that
was over when the load started. -/
def NoStale (s : Client Key) : Prop :=
  ∀ l ∈ s.loads, ∀ r ∈ l.answer?, Current s l.key r l.started

/-- No response from before an invalidation of its key is cached after it, and
every submitted envelope is well formed. -/
def Timely (ttl : ℕ) (u : Transition (Client Key) (Action Key)) : Prop :=
  match u.action with
  | .respond i _ => 0 < ttl → ∀ l ∈ u.before.loads[i]?, ∀ r ∈ l.request?,
      ∀ p ∈ u.before.invalidations, p.Affects l.key → p.time ≤ r
  | .submitted validXDR => validXDR = true
  | _ => True

instance [DecidableEq Key] (s : Client Key) (key : Key) (request time : ℕ) :
    Decidable (Current s key request time) :=
  inferInstanceAs (Decidable (∀ p ∈ s.invalidations, p.Affects key → p.time < time →
    p.time ≤ request))

instance [DecidableEq Key] (s : Client Key) : Decidable (NoStale s) :=
  inferInstanceAs (Decidable (∀ l ∈ s.loads, ∀ r ∈ l.answer?, Current s l.key r l.started))

instance [DecidableEq Key] (ttl : ℕ) :
    (u : Transition (Client Key) (Action Key)) → Decidable (Timely ttl u)
  | ⟨_, .respond _ _, _⟩ => inferInstanceAs (Decidable (0 < ttl → ∀ l ∈ _, _))
  | ⟨_, .submitted validXDR, _⟩ => inferInstanceAs (Decidable (validXDR = true))
  | ⟨_, .load _ _ _, _⟩ | ⟨_, .request _, _⟩ | ⟨_, .fail _, _⟩ | ⟨_, .invalidate _, _⟩ =>
    .isTrue trivial

structure Fresh (s : Client Key) : Prop where
  cached : ∀ key e, s.cache key = some e → ∀ p ∈ s.invalidations, p.Affects key →
    p.time ≤ e.account
  requested : ∀ l ∈ s.loads, ∀ r ∈ l.request?, l.started ≤ r
  answered : NoStale s
  past : ∀ p ∈ s.invalidations, p.time < s.time
  started : ∀ l ∈ s.loads, l.started < s.time

variable {ttl : ℕ} {s : Client Key} {cache : Cache Key ℕ}

theorem request?_started (key : Key) (t : ℕ) (served : Option ℕ) :
    (⟨key, t, served.elim .waiting .answered⟩ : Load Key).request? = none := by
  cases served <;> rfl

theorem answer?_started (key : Key) (t : ℕ) (served : Option ℕ) :
    (⟨key, t, served.elim .waiting .answered⟩ : Load Key).answer? = served := by
  cases served <;> rfl

theorem idle_fresh : Fresh (idle : Client Key) :=
  ⟨by simp [idle], by simp [idle], by simp [NoStale, idle], by simp [idle], by simp [idle]⟩

theorem Fresh.tick (h : Fresh s) (hc : ∀ k e, cache k = some e → s.cache k = some e) :
    Fresh ⟨s.time + 1, cache, s.loads, s.invalidations⟩ := by
  refine ⟨fun k e hk => h.cached k e (hc k e hk), h.requested, h.answered, fun p hp => ?_,
    fun l hl => ?_⟩
  · exact Nat.lt_succ_of_lt (h.past p hp)
  · exact Nat.lt_succ_of_lt (h.started l hl)

theorem Fresh.mark (h : Fresh s) {key : Option Key}
    (hc : ∀ k e, cache k = some e → s.cache k = some e ∧ ¬ Invalidation.Affects ⟨key, s.time⟩ k) :
    Fresh ⟨s.time + 1, cache, s.loads, s.invalidations ++ [⟨key, s.time⟩]⟩ := by
  refine ⟨fun k e hk => ?_, h.requested, fun l hl r hr => ?_, ?_, fun l hl => ?_⟩
  · obtain ⟨hold, hfree⟩ := hc k e hk
    exact forall_mem_concat (h.cached k e hold) fun ha => absurd ha hfree
  · refine forall_mem_concat (h.answered l hl r hr) fun _ hlt => ?_
    exact absurd hlt (Nat.lt_asymm (h.started l hl))
  · exact forall_mem_concat (fun p hp => Nat.lt_succ_of_lt (h.past p hp)) (Nat.lt_succ_self _)
  · exact Nat.lt_succ_of_lt (h.started l hl)

theorem Fresh.join (h : Fresh s) {l : Load Key} (hl : l.started < s.time)
    (hrequest : l.request? = none)
    (hr : ∀ r ∈ l.answer?, ∀ p ∈ s.invalidations, p.Affects l.key → p.time ≤ r) :
    Fresh { s with loads := s.loads ++ [l] } := by
  refine ⟨h.cached, ?_, ?_, h.past, forall_mem_concat h.started hl⟩
  · exact forall_mem_concat h.requested fun r hreq => by simp [hrequest] at hreq
  · exact forall_mem_concat h.answered fun r hstatus p hp ha _ => hr r hstatus p hp ha

theorem Fresh.move (h : Fresh s) {i : ℕ} {f : Load Key → Load Key}
    (hkey : ∀ l, (f l).key = l.key ∧ (f l).started = l.started)
    (hrequest : ∀ l, s.loads[i]? = some l → ∀ r ∈ (f l).request?, r ∈ l.request? ∨ l.started ≤ r)
    (hanswer : ∀ l, s.loads[i]? = some l → ∀ r ∈ (f l).answer?, r ∈ l.answer? ∨ r ∈ l.request?) :
    Fresh { s with loads := s.loads.modify i f } := by
  refine ⟨h.cached, ?_, ?_, h.past, ?_⟩
  · refine forall_mem_modify h.requested fun l hl hold r hr => ?_
    rw [(hkey l).2]
    obtain hr | hr := hrequest l hl r hr
    · exact hold r hr
    · exact hr
  · refine forall_mem_modify h.answered fun l hl hold r hr => ?_
    rw [(hkey l).1, (hkey l).2]
    obtain hr | hr := hanswer l hl r hr
    · exact hold r hr
    · -- a record requested after the load started is newer than what preceded the load
      intro p _ _ hlt
      exact Nat.le_trans (Nat.le_of_lt hlt) (h.requested l (List.mem_of_getElem? hl) r hr)
  · refine forall_mem_modify h.started fun l _ hold => ?_
    rw [(hkey l).2]
    exact hold

variable [DecidableEq Key]

theorem Fresh.write (h : Fresh s) {key : Key} {e : CachedAccount ℕ}
    (he : ∀ p ∈ s.invalidations, p.Affects key → p.time ≤ e.account) :
    Fresh { s with cache := Function.update s.cache key (some e) } := by
  refine ⟨fun k e' hk => ?_, h.requested, h.answered, h.past, h.started⟩
  by_cases hkey : k = key
  · subst hkey
    simp only [Function.update_self, Option.some.injEq] at hk
    exact hk ▸ he
  · simp only [Function.update_of_ne hkey] at hk
    exact h.cached k e' hk

theorem lookup_served {c : Cache Key Account} {key : Key} {forceRefresh : Bool} {now : ℤ}
    {a : Account} (h : (lookup ttl c key forceRefresh now).1 = some a) :
    forceRefresh = false ∧ 0 < ttl ∧ ∃ e, c key = some e ∧ e.account = a ∧ now < e.expiresAt := by
  cases forceRefresh with
  | true => cases h
  | false =>
    simp only [lookup, Bool.false_eq_true, if_false] at h
    split at h
    · rename_i httl
      cases hc : c key with
      | none => simp [hc] at h
      | some e =>
        simp only [hc] at h
        split at h
        · rename_i hnow
          exact ⟨rfl, httl, e, rfl, Option.some.inj h, hnow⟩
        · cases h
    · cases h

theorem eq_some_of_update_none {c : Cache Key Account} {key k : Key} {e : CachedAccount Account}
    (h : Function.update c key none k = some e) : c k = some e ∧ k ≠ key := by
  by_cases hkey : k = key
  · subst hkey
    simp at h
  · rw [Function.update_of_ne hkey] at h
    exact ⟨h, hkey⟩

theorem lookup_cache {c : Cache Key Account} {key : Key} {forceRefresh : Bool} {now : ℤ}
    {k : Key} {e : CachedAccount Account}
    (h : (lookup ttl c key forceRefresh now).2 k = some e) :
    c k = some e ∧ (forceRefresh = true → k ≠ key) := by
  cases forceRefresh with
  | true =>
    obtain ⟨hc, hkey⟩ := eq_some_of_update_none h
    exact ⟨hc, fun _ => hkey⟩
  | false =>
    refine ⟨?_, by simp⟩
    simp only [lookup, Bool.false_eq_true, if_false] at h
    split at h
    · cases hc : c key with
      | none => simpa [hc] using h
      | some cached =>
        simp only [hc] at h
        split at h
        · exact h
        · exact (eq_some_of_update_none h).1
    · exact h

theorem load_fresh (h : Fresh s) (key : Key) (forceRefresh : Bool) (now : ℤ) :
    Fresh (step ttl s (.load key forceRefresh now)) := by
  cases forceRefresh with
  | false =>
    have htick : Fresh ⟨s.time + 1, (lookup ttl s.cache key false now).2, s.loads,
        s.invalidations⟩ := h.tick fun k e hk => (lookup_cache hk).1
    refine htick.join (Nat.lt_succ_self _) (request?_started ..) fun r hr => ?_
    have hserved : (lookup ttl s.cache key false now).1 = some r := by
      rw [← answer?_started key s.time (lookup ttl s.cache key false now).1]
      exact hr
    obtain ⟨-, -, e, he, rfl, -⟩ := lookup_served hserved
    exact h.cached key e he
  | true =>
    have hmark : Fresh ⟨s.time + 1, Function.update s.cache key none, s.loads,
        s.invalidations ++ [⟨some key, s.time⟩]⟩ := by
      refine h.mark fun k e hk => ?_
      obtain ⟨hc, hne⟩ := eq_some_of_update_none hk
      exact ⟨hc, by simpa [Invalidation.Affects] using hne.symm⟩
    exact hmark.join (Nat.lt_succ_self _) rfl fun r hr => by cases hr

theorem invalidate_fresh (h : Fresh s) (key : Option Key) :
    Fresh { s.invalidate key with time := s.time + 1 } := by
  refine h.mark fun k e hk => ?_
  cases key with
  | none => cases hk
  | some key =>
    obtain ⟨hc, hne⟩ := eq_some_of_update_none hk
    exact ⟨hc, by simpa [Invalidation.Affects] using hne.symm⟩

theorem respond_fresh (h : Fresh s) (i : ℕ) (now : ℤ)
    (hgood : 0 < ttl → ∀ l ∈ s.loads[i]?, ∀ r ∈ l.request?,
      ∀ p ∈ s.invalidations, p.Affects l.key → p.time ≤ r) :
    Fresh (step ttl s (.respond i now)) := by
  have hwritten : Fresh ⟨s.time + 1, written ttl s i now, s.loads, s.invalidations⟩ := by
    have htick : Fresh ⟨s.time + 1, s.cache, s.loads, s.invalidations⟩ := h.tick fun _ _ hk => hk
    simp only [written]
    cases hl : s.loads[i]? with
    | none => exact htick
    | some l =>
      cases hr : l.request? with
      | none => simpa only [hr] using htick
      | some r =>
        simp only [hr, store]
        split
        · rename_i httl
          exact htick.write (hgood httl l hl r hr)
        · exact htick
  refine hwritten.move (fun l => ?_) (fun l _ r hr => ?_) fun l _ r hr => ?_
  · cases hs : l.status <;> simp [Load.respond, hs]
  · cases hs : l.status <;> simp [Load.respond, Load.request?, hs] at hr
  · cases hs : l.status <;> simp [Load.respond, Load.request?, Load.answer?, hs] at hr ⊢
    · exact hr
    · exact hr

theorem request_fresh (h : Fresh s) (i : ℕ) : Fresh (step ttl s (.request i)) := by
  have htick : Fresh ⟨s.time + 1, s.cache, s.loads, s.invalidations⟩ := h.tick fun _ _ hk => hk
  refine htick.move (fun l => ?_) (fun l hl r hr => ?_) fun l _ r hr => ?_
  · cases hs : l.status <;> simp [Load.request, hs]
  · -- a request is issued after its load has started
    have hstarted := h.started l (List.mem_of_getElem? hl)
    cases hs : l.status <;> simp [Load.request, Load.request?, hs] at hr ⊢
    · omega
    · omega
  · cases hs : l.status <;> simp [Load.request, Load.answer?, hs] at hr ⊢
    exact .inl hr

theorem fail_fresh (h : Fresh s) (i : ℕ) : Fresh (step ttl s (.fail i)) := by
  have htick : Fresh ⟨s.time + 1, s.cache, s.loads, s.invalidations⟩ := h.tick fun _ _ hk => hk
  refine htick.move (fun l => ?_) (fun l _ r hr => ?_) fun l _ r hr => ?_
  · cases hs : l.status <;> simp [Load.fail, hs]
  · cases hs : l.status <;> simp [Load.fail, Load.request?, hs] at hr
  · cases hs : l.status <;> simp [Load.fail, Load.answer?, hs] at hr ⊢
    exact .inl hr

theorem step_fresh (a : Action Key) (hgood : Timely ttl ⟨s, a, step ttl s a⟩) (h : Fresh s) :
    Fresh (step ttl s a) := by
  cases a with
  | load key forceRefresh now => exact load_fresh h key forceRefresh now
  | request i => exact request_fresh h i
  | respond i now => exact respond_fresh h i now hgood
  | fail i => exact fail_fresh h i
  | submitted validXDR =>
    cases validXDR with
    | true => exact invalidate_fresh h none
    | false => cases hgood
  | invalidate key => exact invalidate_fresh h key

/-- No load is answered with a record from before an invalidation that was over when it
started, in every run in which no response from before one is cached after it. -/
theorem no_stale_account (ttl : ℕ) (as : List (Action Key))
    (hgood : ∀ u ∈ trace (step ttl) idle as, Timely ttl u) : NoStale (run (step ttl) idle as) := by
  have hrun : Fresh (run (step ttl) idle as) :=
    run_invariant_of idle_fresh (fun _ a hu h => step_fresh a hu h) as hgood
  exact hrun.answered

theorem no_stale_account_after_submission :
    NoStale (run (step 30000) idle
      [.load "G" false 0, .request 0, .respond 0 1, .load "G" false 2, .submitted true,
        .load "G" false 3, .request 2, .respond 2 4, .load "G" false 5]) := by
  exact no_stale_account 30000 _ (by decide)

/-- A load started before a submission is answered after it: the next load is
served the sequence number from before the submission. -/
theorem stale_account_after_submission :
    ¬ NoStale (run (step 30000) idle
      [.load "G" false 0, .request 0, .submitted true, .respond 0 1, .load "G" false 2]) := by
  decide

end PayFi.Network.AccountCache
