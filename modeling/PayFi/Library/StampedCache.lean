import Mathlib.Data.Int.Notation
import Mathlib.Logic.Function.Basic
import PayFi.Library.Machine
import PayFi.Library.Parties

namespace PayFi.Library.StampedCache

open Machine Parties

variable {K V C : Type}

/-- What the users of a cache do with it; a lookup can be forced to find nothing. -/
structure Operations (K V C : Type) where
  empty : C
  lookup : C → K → Bool → ℤ → Option V
  store : C → K → ℤ → V → C
  clear : C → C

structure Keeps [DecidableEq K] (ops : Operations K V C) (ttl : ℤ)
    (held : C → K → Option (ℤ × V)) : Prop where
  empty : ∀ key, held ops.empty key = none
  lookup : ∀ c key forced now v, ops.lookup c key forced now = some v ↔
    forced = false ∧ ∃ asked, held c key = some (asked, v) ∧ now < asked + ttl
  store : ∀ c key asked v,
    held (ops.store c key asked v) = Function.update (held c) key (some (asked, v))
  clear : ∀ c key, held (ops.clear c) key = none

inductive Entry (K V : Type) where
  | served (key : K) (now : ℤ) (value : V)
  | asked (i : ℕ) (key : K) (forced : Bool) (now : ℤ)
  | answered (i : ℕ) (key : K) (asked : ℤ) (value : V)
  | failed (i : ℕ)
  | cleared

def Entry.asks : Entry K V → Option ℕ
  | .asked i _ _ _ => some i
  | _ => none

def Entry.settles : Entry K V → Option ℕ
  | .answered i _ _ _ => some i
  | .failed i => some i
  | _ => none

/-- The call that an entry comes from; what is served was not forced. -/
def Entry.called : Entry K V → Option (K × Bool × ℤ)
  | .served key now _ => some (key, false, now)
  | .asked _ key forced now => some (key, forced, now)
  | _ => none

/-- The cache, the requests under way, and what has happened. -/
structure State (K V C : Type) where
  cache : C
  pending : List (ℕ × K × ℤ)
  count : ℕ
  journal : List (Entry K V)

/-- Calls may overlap, and the source answers in any order. -/
inductive Action (K V : Type) where
  | call (key : K) (forced : Bool) (now : ℤ)
  | answer (i : ℕ) (value : V)
  | failure (i : ℕ)
  | clear

def Action.called : Action K V → Option (K × Bool × ℤ)
  | .call key forced now => some (key, forced, now)
  | _ => none

def State.log (s : State K V C) (e : Entry K V) : State K V C :=
  { s with journal := s.journal ++ [e] }

def State.settle (s : State K V C) (i : ℕ) : State K V C :=
  { s with pending := s.pending.filter fun p => p.1 ≠ i }

def step (ops : Operations K V C) (s : State K V C) : Action K V → State K V C
  | .call key forced now =>
    match ops.lookup s.cache key forced now with
    | some v => s.log (.served key now v)
    | none =>
      { s with pending := s.pending ++ [(s.count, key, now)], count := s.count + 1 }.log
        (.asked s.count key forced now)
  | .answer i v =>
    match s.pending.find? fun p => p.1 = i with
    | some (_, key, asked) =>
      ({ s with cache := ops.store s.cache key asked v }.settle i).log (.answered i key asked v)
    | none => s
  | .failure i =>
    match s.pending.find? fun p => p.1 = i with
    | some _ => (s.settle i).log (.failed i)
    | none => s
  | .clear => { s with cache := ops.clear s.cache }.log .cleared

def fresh (ops : Operations K V C) : State K V C := ⟨ops.empty, [], 0, []⟩

def State.request (s : State K V C) (key : K) (forced : Bool) (now : ℤ) : State K V C :=
  { s with pending := s.pending ++ [(s.count, key, now)], count := s.count + 1 }.log
    (.asked s.count key forced now)

def State.answer (ops : Operations K V C) (s : State K V C) (p : ℕ × K × ℤ) (v : V) :
    State K V C :=
  ({ s with cache := ops.store s.cache p.2.1 p.2.2 v }.settle p.1).log
    (.answered p.1 p.2.1 p.2.2 v)

inductive Effect (ops : Operations K V C) (s : State K V C) :
    Action K V → State K V C → Prop where
  | served {key : K} {forced : Bool} {now : ℤ} {v : V}
      (h : ops.lookup s.cache key forced now = some v) :
      Effect ops s (.call key forced now) (s.log (.served key now v))
  | asked {key : K} {forced : Bool} {now : ℤ} (h : ops.lookup s.cache key forced now = none) :
      Effect ops s (.call key forced now) (s.request key forced now)
  | answered {p : ℕ × K × ℤ} {v : V} (hp : p ∈ s.pending) :
      Effect ops s (.answer p.1 v) (s.answer ops p v)
  | failed {p : ℕ × K × ℤ} (hp : p ∈ s.pending) :
      Effect ops s (.failure p.1) ((s.settle p.1).log (.failed p.1))
  | unknown {a : Action K V} (h : a.called = none) : Effect ops s a s
  | cleared : Effect ops s .clear ({ s with cache := ops.clear s.cache }.log .cleared)

theorem step_effect (ops : Operations K V C) (s : State K V C) (a : Action K V) :
    Effect ops s a (step ops s a) := by
  cases a with
  | call key forced now =>
    rw [step]
    split
    · rename_i h
      exact .served h
    · rename_i h
      exact .asked h
  | answer i v =>
    rw [step]
    split
    · rename_i j key asked h
      obtain rfl : j = i := by simpa using List.find?_some h
      exact .answered (List.mem_of_find?_eq_some h)
    · exact .unknown rfl
  | failure i =>
    rw [step]
    split
    · rename_i p h
      obtain rfl : p.1 = i := by simpa using List.find?_some h
      exact .failed (List.mem_of_find?_eq_some h)
    · exact .unknown rfl
  | clear => exact .cleared

variable [DecidableEq K]

def note (key : K) (last : Option (ℤ × V)) : Entry K V → Option (ℤ × V)
  | .answered _ k asked v => if k = key then some (asked, v) else last
  | .cleared => none
  | _ => last

def latest (key : K) (journal : List (Entry K V)) : Option (ℤ × V) :=
  journal.foldl (note key) none

@[simp] theorem latest_concat (key : K) (journal : List (Entry K V)) (e : Entry K V) :
    latest key (journal ++ [e]) = note key (latest key journal) e := List.foldl_concat ..

/-- What a reader of the journal expects next: the last answer while it is fresh, and a request
otherwise; each request is settled once. -/
def Lawful (ttl : ℤ) (journal : List (Entry K V)) : Entry K V → Prop
  | .served key now v => ∃ asked, latest key journal = some (asked, v) ∧ now < asked + ttl
  | .asked i key forced now => (∀ e ∈ journal, e.asks ≠ some i) ∧
      (forced = true ∨ ∀ asked v, latest key journal = some (asked, v) → asked + ttl ≤ now)
  | .answered i key asked _ => (∃ forced, .asked i key forced asked ∈ journal) ∧
      ∀ e ∈ journal, e.settles ≠ some i
  | .failed i => (∃ e ∈ journal, e.asks = some i) ∧ ∀ e ∈ journal, e.settles ≠ some i
  | .cleared => True

variable {ops : Operations K V C} {ttl : ℤ} {held : C → K → Option (ℤ × V)} {s : State K V C}
  {key : K} {forced : Bool} {asked now : ℤ} {i : ℕ} {v : V} {p : ℕ × K × ℤ}

structure Accounted (ttl : ℤ) (held : C → K → Option (ℤ × V)) (s : State K V C) : Prop where
  cached : ∀ key, held s.cache key = latest key s.journal
  pending : ∀ p ∈ s.pending, ∃ forced, .asked p.1 p.2.1 forced p.2.2 ∈ s.journal
  unsettled : ∀ p ∈ s.pending, ∀ e ∈ s.journal, e.settles ≠ some p.1
  counted : ∀ e ∈ s.journal, ∀ i, e.asks = some i ∨ e.settles = some i → i < s.count
  lawful : Preceded (Lawful ttl) s.journal

omit [DecidableEq K] in
theorem mem_log {e : Entry K V} : e ∈ s.journal → ∀ e', e ∈ (s.log e').journal :=
  fun he _ => List.mem_append_left _ he

omit [DecidableEq K] in
theorem mem_settle (hp : p ∈ (s.settle i).pending) : p ∈ s.pending ∧ p.1 ≠ i := by
  obtain ⟨hmem, hne⟩ := List.mem_filter.mp hp
  exact ⟨hmem, of_decide_eq_true hne⟩

theorem Accounted.served (h : Accounted ttl held s) (hops : Keeps ops ttl held)
    (hlookup : ops.lookup s.cache key forced now = some v) :
    Accounted ttl held (s.log (.served key now v)) := by
  obtain ⟨-, asked, hheld, hnow⟩ := (hops.lookup ..).mp hlookup
  refine ⟨fun k => ?_, fun p hp => ?_, fun p hp => ?_, ?_, h.lawful.concat ?_⟩
  · rw [State.log, latest_concat]
    exact h.cached k
  · obtain ⟨forced, hasked⟩ := h.pending p hp
    exact ⟨forced, mem_log hasked _⟩
  · exact forall_mem_concat (h.unsettled p hp) nofun
  · exact forall_mem_concat h.counted fun i hi => by simp [Entry.asks, Entry.settles] at hi
  · exact ⟨asked, by rw [← h.cached, hheld], hnow⟩

theorem Accounted.request (h : Accounted ttl held s) (hops : Keeps ops ttl held)
    (hlookup : ops.lookup s.cache key forced now = none) :
    Accounted ttl held (s.request key forced now) := by
  have hfree : ∀ e ∈ s.journal, e.asks ≠ some s.count ∧ e.settles ≠ some s.count := by
    intro e he
    refine ⟨fun hi => ?_, fun hi => ?_⟩
    · exact absurd (h.counted e he _ (.inl hi)) (Nat.lt_irrefl _)
    · exact absurd (h.counted e he _ (.inr hi)) (Nat.lt_irrefl _)
  refine ⟨fun k => ?_, forall_mem_concat (fun p hp => ?_) ?_, forall_mem_concat (fun p hp => ?_) ?_,
    forall_mem_concat (fun e he i hi => ?_) ?_, h.lawful.concat ⟨fun e he => (hfree e he).1, ?_⟩⟩
  · rw [State.request, State.log, latest_concat]
    exact h.cached k
  · obtain ⟨forced, hasked⟩ := h.pending p hp
    exact ⟨forced, mem_log hasked _⟩
  · exact ⟨forced, List.mem_append_right _ (List.mem_singleton_self _)⟩
  · exact forall_mem_concat (h.unsettled p hp) nofun
  · exact forall_mem_concat (fun e he => (hfree e he).2) nofun
  · exact Nat.lt_succ_of_lt (h.counted e he i hi)
  · intro i hi
    obtain hi | hi := hi
    · obtain rfl := Option.some.inj hi
      exact Nat.lt_succ_self _
    · cases hi
  · cases forced with
    | true => exact .inl rfl
    | false =>
      refine .inr fun asked v hlatest => ?_
      rw [← h.cached] at hlatest
      by_contra hfresh
      have hserved := (hops.lookup s.cache key false now v).mpr
        ⟨rfl, asked, hlatest, Int.not_le.mp hfresh⟩
      rw [hlookup] at hserved
      cases hserved

theorem Accounted.settle (h : Accounted ttl held s) (hp : p ∈ s.pending) {e : Entry K V}
    (he : e.settles = some p.1) (hasks : e.asks = none) (c : C)
    (hcached : ∀ k, held c k = note k (latest k s.journal) e) (hlawful : Lawful ttl s.journal e) :
    Accounted ttl held (({ s with cache := c }.settle p.1).log e) := by
  refine ⟨fun k => ?_, fun q hq => ?_, fun q hq => ?_, ?_, h.lawful.concat hlawful⟩
  · rw [State.log, latest_concat]
    exact hcached k
  · obtain ⟨forced, hasked⟩ := h.pending q (mem_settle hq).1
    exact ⟨forced, mem_log hasked _⟩
  · obtain ⟨hmem, hne⟩ := mem_settle hq
    refine forall_mem_concat (h.unsettled q hmem) fun hsettles => hne ?_
    rw [he] at hsettles
    exact (Option.some.inj hsettles).symm
  · refine forall_mem_concat h.counted fun i hi => ?_
    obtain ⟨forced, hasked⟩ := h.pending p hp
    rw [hasks, he] at hi
    obtain hi | hi := hi
    · cases hi
    · obtain rfl := Option.some.inj hi
      exact h.counted _ hasked _ (.inl rfl)

theorem Accounted.next (h : Accounted ttl held s) (hops : Keeps ops ttl held) (a : Action K V) :
    Accounted ttl held (step ops s a) := by
  have heffect := step_effect ops s a
  generalize step ops s a = t at heffect ⊢
  cases heffect with
  | served hlookup => exact h.served hops hlookup
  | asked hlookup => exact h.request hops hlookup
  | @answered p v hp =>
    refine h.settle hp rfl rfl (ops.store s.cache p.2.1 p.2.2 v) (fun k => ?_)
      ⟨h.pending p hp, h.unsettled p hp⟩
    rw [hops.store, note]
    by_cases hk : p.2.1 = k
    · subst hk
      rw [Function.update_self, if_pos rfl]
    · rw [Function.update_of_ne (Ne.symm hk), if_neg hk, h.cached]
  | @failed p hp =>
    obtain ⟨forced, hasked⟩ := h.pending p hp
    exact h.settle hp rfl rfl s.cache h.cached ⟨⟨_, hasked, rfl⟩, h.unsettled p hp⟩
  | unknown => exact h
  | cleared =>
    refine ⟨fun k => ?_, fun p hp => ?_, fun p hp => ?_, ?_, h.lawful.concat trivial⟩
    · rw [State.log, latest_concat]
      exact hops.clear ..
    · obtain ⟨forced, hasked⟩ := h.pending p hp
      exact ⟨forced, mem_log hasked _⟩
    · exact forall_mem_concat (h.unsettled p hp) nofun
    · exact forall_mem_concat h.counted fun i hi => by simp [Entry.asks, Entry.settles] at hi

/-- When the answers for a key were asked for, in the order in which they came. -/
def starts (key : K) (journal : List (Entry K V)) : List ℤ :=
  journal.filterMap fun
    | .answered _ k asked _ => if k = key then some asked else none
    | _ => none

/-- Nothing is dropped or forced, and no call is made while a request is under way. -/
def Patient (u : Transition (State K V C) (Action K V)) : Prop :=
  match u.action with
  | .call _ forced _ => forced = false ∧ u.before.pending = []
  | .clear => False
  | _ => True

instance : (u : Transition (State K V C) (Action K V)) → Decidable (Patient u)
  | ⟨s, .call _ forced _, _⟩ => inferInstanceAs (Decidable (forced = false ∧ s.pending = []))
  | ⟨_, .clear, _⟩ => .isFalse id
  | ⟨_, .answer _ _, _⟩ | ⟨_, .failure _, _⟩ => .isTrue trivial

structure Paced (ttl : ℤ) (key : K) (s : State K V C) : Prop where
  spaced : (starts key s.journal).Pairwise (fun a b => a + ttl ≤ b)
  last : (starts key s.journal).getLast? = (latest key s.journal).map Prod.fst
  pending : ∀ p ∈ s.pending, p.2.1 = key → ∀ a ∈ starts key s.journal, a + ttl ≤ p.2.2
  single : s.pending.length ≤ 1

@[simp] theorem starts_concat (key : K) (journal : List (Entry K V)) (e : Entry K V) :
    starts key (journal ++ [e]) = starts key journal ++ starts key [e] := List.filterMap_append

theorem Paced.log (h : Paced ttl key s) {e : Entry K V} (hstarts : starts key [e] = [])
    (hnote : ∀ last, note key last e = last) : Paced ttl key (s.log e) := by
  have hsame : starts key (s.log e).journal = starts key s.journal := by
    rw [State.log, starts_concat, hstarts, List.append_nil]
  refine ⟨?_, ?_, ?_, h.single⟩
  · rw [hsame]
    exact h.spaced
  · rw [hsame, State.log, latest_concat, hnote]
    exact h.last
  · rw [hsame]
    exact h.pending

/-- A request that is not forced is made when the last answer has had its time, and so have those
before it. -/
theorem Paced.request (h : Paced ttl key s) (haccounted : Accounted ttl held s)
    (hops : Keeps ops ttl held) (httl : 0 ≤ ttl) (hnone : s.pending = []) {k : K}
    (hlookup : ops.lookup s.cache k false now = none) : Paced ttl key (s.request k false now) := by
  have hdue : k = key → ∀ a ∈ starts key s.journal, a + ttl ≤ now := by
    rintro rfl a ha
    have hlawful := (haccounted.request hops hlookup).lawful s.journal [] _ rfl
    obtain ⟨-, hforced | hold⟩ := hlawful
    · cases hforced
    obtain ⟨xs, b, hb⟩ := (starts k s.journal).eq_nil_or_concat.resolve_left
      (List.ne_nil_of_mem ha)
    have hlast := h.last
    have hspaced := h.spaced
    rw [hb, List.concat_eq_append] at ha hlast hspaced
    rw [List.getLast?_concat] at hlast
    obtain ⟨⟨b', v⟩, hlatest, rfl⟩ := Option.map_eq_some_iff.mp hlast.symm
    have hb := hold b' v hlatest
    obtain ha | ha := List.mem_append.mp ha
    · have hab := (List.pairwise_append.mp hspaced).2.2 a ha b' (List.mem_singleton_self b')
      omega
    · rw [List.mem_singleton.mp ha]
      exact hb
  have hquiet : Paced ttl key { s with pending := [(s.count, k, now)], count := s.count + 1 } := by
    refine ⟨h.spaced, h.last, fun p hp hk => ?_, Nat.le_refl 1⟩
    rw [List.mem_singleton.mp hp] at hk ⊢
    exact hdue hk
  rw [State.request, hnone]
  exact hquiet.log rfl fun _ => rfl

theorem Paced.settle (h : Paced ttl key s) (hp : p ∈ s.pending) : (s.settle p.1).pending = [] := by
  obtain ⟨q, hq⟩ : ∃ q, s.pending = [q] := by
    have hsingle := h.single
    cases hpending : s.pending with
    | nil =>
      rw [hpending] at hp
      cases hp
    | cons q rest =>
      rw [hpending, List.length_cons] at hsingle
      exact ⟨q, by rw [List.length_eq_zero_iff.mp (by omega : rest.length = 0)]⟩
  rw [hq] at hp
  rw [State.settle, hq, List.mem_singleton.mp hp]
  simp

theorem Paced.answer (h : Paced ttl key s) (hp : p ∈ s.pending) (v : V) :
    Paced ttl key (s.answer ops p v) := by
  have hnone : (s.answer ops p v).pending = [] := h.settle hp
  have hsingle : (s.answer ops p v).pending.length ≤ 1 := by
    rw [hnone]
    exact Nat.zero_le 1
  have hstarts : starts key (s.answer ops p v).journal =
      starts key s.journal ++ starts key [.answered p.1 p.2.1 p.2.2 v] := starts_concat ..
  have hlatest : latest key (s.answer ops p v).journal =
      note key (latest key s.journal) (.answered p.1 p.2.1 p.2.2 v) := latest_concat ..
  by_cases hk : p.2.1 = key
  · have hnew : starts key [.answered p.1 p.2.1 p.2.2 v] = [p.2.2] := by simp [starts, hk]
    rw [hnew] at hstarts
    rw [note, if_pos hk] at hlatest
    refine ⟨?_, ?_, ?_, hsingle⟩
    · rw [hstarts]
      exact pairwise_concat h.spaced (h.pending p hp hk)
    · rw [hstarts, hlatest, List.getLast?_concat]
      rfl
    · rw [hnone]
      exact nofun
  · have hnew : starts key [.answered p.1 p.2.1 p.2.2 v] = [] := by simp [starts, hk]
    rw [hnew, List.append_nil] at hstarts
    rw [note, if_neg hk] at hlatest
    refine ⟨?_, ?_, ?_, hsingle⟩
    · rw [hstarts]
      exact h.spaced
    · rw [hstarts, hlatest]
      exact h.last
    · rw [hnone]
      exact nofun

theorem Paced.next (h : Paced ttl key s) (haccounted : Accounted ttl held s)
    (hops : Keeps ops ttl held) (httl : 0 ≤ ttl) (a : Action K V)
    (ha : Patient ⟨s, a, step ops s a⟩) : Paced ttl key (step ops s a) := by
  have heffect := step_effect ops s a
  generalize step ops s a = t at heffect ha ⊢
  cases heffect with
  | served hlookup => exact h.log rfl fun _ => rfl
  | asked hlookup =>
    obtain ⟨rfl, hnone⟩ := ha
    exact h.request haccounted hops httl hnone hlookup
  | answered hp => exact h.answer hp _
  | failed hp =>
    have hquiet : Paced ttl key (s.settle _) := ⟨h.spaced, h.last, by
      rw [h.settle hp]
      exact nofun, by
      rw [h.settle hp]
      exact Nat.zero_le 1⟩
    exact hquiet.log rfl fun _ => rfl
  | unknown => exact h
  | cleared => cases ha

end PayFi.Library.StampedCache
