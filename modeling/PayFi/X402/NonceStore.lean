import Mathlib.Tactic.Linarith
import PayFi.Library.Clock
import PayFi.Library.Maps
import PayFi.X402.Challenge

namespace PayFi.X402.NonceStore

open Library.Numbers Library.Maps Library.Clock Library.ExpiringSet Challenge

inductive Op where
  | has (nonce : String)
  | add (nonce : String)
  | prune (ttlMs : Option Number)

/-- An operation with the time that the clock shows during it. -/
structure Call where
  op : Op
  now : ℤ

/-- `prune` without an argument takes the configured lifetime. -/
def cutoff (cfg : Config) (ttlMs : Option Number) (now : ℤ) : Number :=
  (Number.finite now).sub (ttlMs.getD (.finite (configuredTtlMs cfg)))

structure Row where
  nonce : String
  usedAtMs : ℤ
  deriving DecidableEq

/-- The rows of `x402_used_nonces` under its primary key. -/
structure Table where
  rows : List Row
  primaryKey : (rows.map Row.nonce).Nodup

def bound : Number → Option Number
  | .nan => none
  | n => some n

/-- `used_at_ms < ?`, which is not true for NULL. -/
def usedBefore (parameter : Option Number) (r : Row) : Bool :=
  parameter.any (Number.finite r.usedAtMs).lt

/-- `DELETE FROM x402_used_nonces WHERE used_at_ms < ?` -/
def Table.deleteUsedBefore (t : Table) (parameter : Option Number) : Table :=
  ⟨t.rows.filter fun r => !usedBefore parameter r,
    t.primaryKey.sublist (List.filter_sublist.map Row.nonce)⟩

/-- `SELECT 1 FROM x402_used_nonces WHERE nonce = ?` -/
def Table.selectOne (t : Table) (nonce : String) : Bool := t.rows.any fun r => r.nonce = nonce

/-- `INSERT OR IGNORE INTO x402_used_nonces (nonce, used_at_ms) VALUES (?, ?)` -/
def Table.insertOrIgnore (t : Table) (r : Row) : Table :=
  if h : r.nonce ∈ t.rows.map Row.nonce then t
  else
    ⟨t.rows ++ [r], by
      rw [List.map_append, List.map_singleton]
      exact List.nodup_append.mpr ⟨t.primaryKey, List.pairwise_singleton ..,
        fun n hn m hm hnm => h (by rwa [← List.mem_singleton.mp hm, ← hnm])⟩⟩

/-- The database, whose table is missing at first, and the store's `ready` flag. -/
structure SqliteNonceStore where
  table : Option Table
  ready : Bool
  created : ready = true → table.isSome = true

def SqliteNonceStore.ensureTable (s : SqliteNonceStore) : SqliteNonceStore :=
  if s.ready then s else ⟨some (s.table.getD ⟨[], List.nodup_nil⟩), true, fun _ => rfl⟩

def SqliteNonceStore.run (s : SqliteNonceStore) (f : Table → Table) : SqliteNonceStore :=
  ⟨s.table.map f, s.ready, fun h => by rw [Option.isSome_map, s.created h]⟩

variable (cfg : Config)

def SqliteNonceStore.prune (s : SqliteNonceStore) (ttlMs : Option Number) (now : ℤ) :
    SqliteNonceStore :=
  s.ensureTable.run fun t => t.deleteUsedBefore (bound (cutoff cfg ttlMs now))

def SqliteNonceStore.has (s : SqliteNonceStore) (nonce : String) (now : ℤ) :
    Bool × SqliteNonceStore :=
  let s := s.ensureTable.prune cfg none now
  (s.table.any fun t => t.selectOne nonce, s)

def SqliteNonceStore.add (s : SqliteNonceStore) (nonce : String) (now : ℤ) : SqliteNonceStore :=
  (s.ensureTable.prune cfg none now).run fun t => t.insertOrIgnore ⟨nonce, now⟩

def SqliteNonceStore.perform (s : SqliteNonceStore) (c : Call) : Option Bool × SqliteNonceStore :=
  match c.op with
  | .has nonce => (some (s.has cfg nonce c.now).1, (s.has cfg nonce c.now).2)
  | .add nonce => (none, s.add cfg nonce c.now)
  | .prune ttlMs => (none, s.prune cfg ttlMs c.now)

structure InMemoryNonceStore where
  nonces : OrderedMap String ℤ

def InMemoryNonceStore.prune (s : InMemoryNonceStore) (ttlMs : Option Number) (now : ℤ) :
    InMemoryNonceStore :=
  ⟨s.nonces.deleteWhere fun e => (Number.finite e.2).lt (cutoff cfg ttlMs now)⟩

def InMemoryNonceStore.has (s : InMemoryNonceStore) (nonce : String) (now : ℤ) :
    Bool × InMemoryNonceStore :=
  let s := s.prune cfg none now
  (s.nonces.has nonce, s)

def InMemoryNonceStore.add (s : InMemoryNonceStore) (nonce : String) (now : ℤ) :
    InMemoryNonceStore :=
  let s := s.prune cfg none now
  if !s.nonces.has nonce then ⟨s.nonces.insert nonce now⟩ else s

def InMemoryNonceStore.perform (s : InMemoryNonceStore) (c : Call) :
    Option Bool × InMemoryNonceStore :=
  match c.op with
  | .has nonce => (some (s.has cfg nonce c.now).1, (s.has cfg nonce c.now).2)
  | .add nonce => (none, s.add cfg nonce c.now)
  | .prune ttlMs => (none, s.prune cfg ttlMs c.now)

/-- What a sequence of calls answers. -/
def answers {Store : Type} (perform : Store → Call → Option Bool × Store) :
    Store → List Call → List (Option Bool)
  | _, [] => []
  | s, c :: cs => (perform s c).1 :: answers perform (perform s c).2 cs

def evict (cut : Number) (s : NonceStore) : NonceStore :=
  s.filter fun e => !(Number.finite e.time).lt cut

def perform (s : NonceStore) (c : Call) : Option Bool × NonceStore :=
  match c.op with
  | .has nonce => (some (contains (evict (cutoff cfg none c.now) s) nonce),
      evict (cutoff cfg none c.now) s)
  | .add nonce => (none, insert (evict (cutoff cfg none c.now) s) nonce c.now)
  | .prune ttlMs => (none, evict (cutoff cfg ttlMs c.now) s)

def Row.entry (r : Row) : Entry String ℤ := ⟨r.nonce, r.usedAtMs⟩

def Table.nonces (t : Table) : NonceStore := t.rows.map Row.entry

def SqliteNonceStore.nonces (s : SqliteNonceStore) : NonceStore := s.table.elim [] Table.nonces

def InMemoryNonceStore.set (s : InMemoryNonceStore) : NonceStore :=
  s.nonces.entries.map fun e => ⟨e.1, e.2⟩

variable {cfg}

theorem answers_of_view {Store View : Type} {f : Store → Call → Option Bool × Store}
    {g : View → Call → Option Bool × View} (view : Store → View)
    (h : ∀ s c, (f s c).1 = (g (view s) c).1 ∧ view (f s c).2 = (g (view s) c).2) (s : Store)
    (cs : List Call) : answers f s cs = answers g (view s) cs := by
  induction cs generalizing s with
  | nil => rfl
  | cons c cs ih =>
    obtain ⟨ha, hs⟩ := h s c
    rw [answers, answers, ha, ih, hs]

theorem usedBefore_bound (cut : Number) (r : Row) :
    usedBefore (bound cut) r = (Number.finite r.usedAtMs).lt cut := by
  cases cut <;> rfl

theorem nonces_deleteUsedBefore (t : Table) (cut : Number) :
    (t.deleteUsedBefore (bound cut)).nonces = evict cut t.nonces := by
  rw [Table.nonces, Table.deleteUsedBefore, evict, Table.nonces, List.filter_map]
  congr 1
  apply List.filter_congr
  intro r _
  rw [usedBefore_bound]
  rfl

theorem selectOne_eq (t : Table) (nonce : String) :
    t.selectOne nonce = contains t.nonces nonce := by
  rw [Table.selectOne, contains, Table.nonces, List.any_map]
  rfl

theorem nonces_insertOrIgnore (t : Table) (nonce : String) (now : ℤ) :
    (t.insertOrIgnore ⟨nonce, now⟩).nonces = insert t.nonces nonce now := by
  have hmem : nonce ∈ t.rows.map Row.nonce ↔ contains t.nonces nonce = true := by
    rw [contains_iff]
    simp [Table.nonces, Row.entry]
  rw [Table.insertOrIgnore, Library.ExpiringSet.insert]
  by_cases h : nonce ∈ t.rows.map Row.nonce
  · rw [dif_pos h, if_pos (hmem.mp h)]
  · rw [dif_neg h, if_neg (mt hmem.mpr h), Table.nonces, List.map_append]
    rfl

theorem ensureTable_spec (s : SqliteNonceStore) :
    ∃ t, s.ensureTable.table = some t ∧ t.nonces = s.nonces ∧ s.ensureTable.ready = true := by
  rw [SqliteNonceStore.ensureTable]
  split
  · rename_i h
    obtain ⟨t, ht⟩ := Option.isSome_iff_exists.mp (s.created h)
    refine ⟨t, ht, ?_, h⟩
    rw [SqliteNonceStore.nonces, ht]
    rfl
  · refine ⟨_, rfl, ?_, rfl⟩
    rw [SqliteNonceStore.nonces]
    cases s.table <;> rfl

theorem table_run (s : SqliteNonceStore) (f : Table → Table) : (s.run f).table = s.table.map f :=
  rfl

theorem nonces_run {s : SqliteNonceStore} {t : Table} (h : s.table = some t) (f : Table → Table) :
    (s.run f).nonces = (f t).nonces := by
  rw [SqliteNonceStore.nonces, table_run, h]
  rfl

theorem sqlite_prune (cfg : Config) (s : SqliteNonceStore) (ttlMs : Option Number) (now : ℤ) :
    ∃ t, (s.prune cfg ttlMs now).table = some t ∧
      t.nonces = evict (cutoff cfg ttlMs now) s.nonces := by
  obtain ⟨t, ht, hn, -⟩ := ensureTable_spec s
  refine ⟨t.deleteUsedBefore (bound (cutoff cfg ttlMs now)), ?_, ?_⟩
  · rw [SqliteNonceStore.prune, table_run, ht, Option.map_some]
  · rw [nonces_deleteUsedBefore, hn]

theorem nonces_of_table {s : SqliteNonceStore} {t : Table} (h : s.table = some t) :
    s.nonces = t.nonces := by
  rw [SqliteNonceStore.nonces, h]
  rfl

theorem nonces_ensureTable (s : SqliteNonceStore) : s.ensureTable.nonces = s.nonces := by
  obtain ⟨t, ht, hn, -⟩ := ensureTable_spec s
  rw [nonces_of_table ht, hn]

theorem sqlite_perform (s : SqliteNonceStore) (c : Call) :
    (s.perform cfg c).1 = (perform cfg s.nonces c).1 ∧
      (s.perform cfg c).2.nonces = (perform cfg s.nonces c).2 := by
  have hs := nonces_ensureTable s
  obtain ⟨op, now⟩ := c
  cases op with
  | has nonce =>
    obtain ⟨t, ht, hn⟩ := sqlite_prune cfg s.ensureTable none now
    rw [hs] at hn
    refine ⟨?_, (nonces_of_table ht).trans hn⟩
    simp only [SqliteNonceStore.perform, SqliteNonceStore.has, ht, Option.any_some, selectOne_eq,
      hn, perform]
  | add nonce =>
    obtain ⟨t, ht, hn⟩ := sqlite_prune cfg s.ensureTable none now
    rw [hs] at hn
    refine ⟨rfl, ?_⟩
    simp only [SqliteNonceStore.perform, SqliteNonceStore.add, nonces_run ht, nonces_insertOrIgnore,
      hn, perform]
  | prune ttlMs =>
    obtain ⟨t, ht, hn⟩ := sqlite_prune cfg s ttlMs now
    exact ⟨rfl, (nonces_of_table ht).trans hn⟩

theorem set_prune (cfg : Config) (s : InMemoryNonceStore) (ttlMs : Option Number) (now : ℤ) :
    (s.prune cfg ttlMs now).set = evict (cutoff cfg ttlMs now) s.set := by
  rw [InMemoryNonceStore.set, InMemoryNonceStore.prune, entries_deleteWhere, evict,
    InMemoryNonceStore.set, List.filter_map]
  rfl

theorem has_eq (s : InMemoryNonceStore) (nonce : String) :
    s.nonces.has nonce = contains s.set nonce := by
  rw [OrderedMap.has, contains, InMemoryNonceStore.set, List.any_map]
  rfl

theorem set_insert {s : InMemoryNonceStore} {nonce : String} (h : contains s.set nonce = false)
    (now : ℤ) : InMemoryNonceStore.set ⟨s.nonces.insert nonce now⟩ = s.set ++ [⟨nonce, now⟩] := by
  rw [InMemoryNonceStore.set, entries_insert_of_absent ((has_eq s nonce).trans h), List.map_append]
  rfl

theorem inMemory_perform (s : InMemoryNonceStore) (c : Call) :
    (s.perform cfg c).1 = (perform cfg s.set c).1 ∧
      (s.perform cfg c).2.set = (perform cfg s.set c).2 := by
  obtain ⟨op, now⟩ := c
  cases op with
  | has nonce =>
    simp only [InMemoryNonceStore.perform, InMemoryNonceStore.has, has_eq, set_prune, perform,
      and_self]
  | add nonce =>
    refine ⟨rfl, ?_⟩
    have hset := set_prune cfg s none now
    simp only [InMemoryNonceStore.perform, InMemoryNonceStore.add, has_eq, perform]
    rw [← hset]
    cases h : contains (s.prune cfg none now).set nonce with
    | true => simp only [Library.ExpiringSet.insert, h, Bool.not_true, Bool.false_eq_true,
        if_false, if_true]
    | false => simp only [insert_of_absent h, Bool.not_false, if_true, set_insert h]
  | prune ttlMs => exact ⟨rfl, set_prune cfg s ttlMs now⟩

def live (cfg : Config) (added : List (Entry String ℤ)) (nonce : String) (now : ℤ) : Bool :=
  added.any fun e => e.key = nonce ∧ e.time ≤ now ∧ now - e.time ≤ configuredTtlMs cfg

def note (cfg : Config) (added : List (Entry String ℤ)) (c : Call) : List (Entry String ℤ) :=
  match c.op with
  | .add nonce => if live cfg added nonce c.now then added else added ++ [⟨nonce, c.now⟩]
  | _ => added

def answer (cfg : Config) (added : List (Entry String ℤ)) (c : Call) : Option Bool :=
  match c.op with
  | .has nonce => some (live cfg added nonce c.now)
  | _ => none

def expected (cfg : Config) : List (Entry String ℤ) → List Call → List (Option Bool)
  | _, [] => []
  | added, c :: cs => answer cfg added c :: expected cfg (note cfg added c) cs

/-- An explicit pruning spares what is not older than the configured lifetime. -/
def Lenient (cfg : Config) (c : Call) : Prop :=
  ∀ ttl, c.op = .prune (some ttl) → ttl = .finite (configuredTtlMs cfg) ∨
    (Number.finite (configuredTtlMs cfg)).lt ttl = true

/-- The clock never goes back. -/
def Chronological (cs : List Call) : Prop := (cs.map Call.now).Pairwise (· ≤ ·)

structure Keeps (cfg : Config) (clock : ℤ) (added : List (Entry String ℤ)) (s : NonceStore) :
    Prop where
  past : ∀ e ∈ added, e.time ≤ clock
  effective : ∀ e ∈ s, e ∈ added
  kept : ∀ e ∈ added, clock - e.time ≤ configuredTtlMs cfg → e ∈ s

variable {added : List (Entry String ℤ)} {s : NonceStore} {clock now : ℤ} {nonce : String}

theorem mem_evict {cut : Number} {e : Entry String ℤ} :
    e ∈ evict cut s ↔ e ∈ s ∧ (Number.finite e.time).lt cut = false := by
  rw [evict, List.mem_filter, Bool.not_eq_true']

theorem evict_cutoff (ttlMs now : ℤ) (s : NonceStore) :
    evict (cutoff cfg (some (.finite ttlMs)) now) s = pruneNonces ttlMs now s := by
  apply List.filter_congr
  intro e _
  have hlt : (Number.finite e.time).lt (cutoff cfg (some (.finite ttlMs)) now) =
      decide (e.time < now - ttlMs) := by
    simp only [cutoff, Option.getD_some, Number.sub, Number.neg, Number.add, Number.lt]
    rw [decide_eq_decide, ← sub_eq_add_neg]
    exact_mod_cast Iff.rfl
  rw [hlt, ← decide_not, decide_eq_decide, not_lt]

theorem cutoff_none (cfg : Config) (now : ℤ) :
    cutoff cfg none now = cutoff cfg (some (.finite (configuredTtlMs cfg))) now := rfl

theorem lt_cutoff {ttl : Number} (hl : ttl = .finite (configuredTtlMs cfg) ∨
    (Number.finite (configuredTtlMs cfg)).lt ttl = true) {t : ℤ}
    (h : (Number.finite t).lt (cutoff cfg (some ttl) now) = true) :
    configuredTtlMs cfg < now - t := by
  simp only [cutoff, Option.getD_some, Number.sub] at h
  cases ttl with
  | nan => simp [Number.lt] at hl
  | infinity negative =>
    cases negative with
    | true => simp [Number.lt] at hl
    | false => simp [Number.neg, Number.add, Number.lt] at h
  | finite q =>
    simp only [Number.neg, Number.add, Number.lt, decide_eq_true_eq] at h hl
    have hq : (configuredTtlMs cfg : ℚ) ≤ q := by
      obtain hq | hq := hl
      · rw [Number.finite.inj hq]
      · exact hq.le
    have hlt : (configuredTtlMs cfg : ℚ) < now - t := by
      linarith
    exact_mod_cast hlt

theorem Keeps.pruned (h : Keeps cfg clock added s) (hc : clock ≤ now) {cut : Number}
    (hcut : ∀ t : ℤ, (Number.finite t).lt cut = true → configuredTtlMs cfg < now - t) :
    Keeps cfg now added (evict cut s) := by
  refine ⟨fun e he => (h.past e he).trans hc, fun e he => h.effective e (mem_evict.mp he).1, ?_⟩
  intro e he hyoung
  refine mem_evict.mpr ⟨h.kept e he (by omega), ?_⟩
  by_contra hlt
  rw [Bool.not_eq_false] at hlt
  have hold := hcut e.time hlt
  omega

theorem Keeps.expire (h : Keeps cfg clock added s) (hc : clock ≤ now) :
    Keeps cfg now added (evict (cutoff cfg none now) s) := by
  apply h.pruned hc
  intro t ht
  exact lt_cutoff (.inl rfl) ht

theorem Keeps.contains_eq (h : Keeps cfg clock added s) (hc : clock ≤ now) (nonce : String) :
    contains (evict (cutoff cfg none now) s) nonce = live cfg added nonce now := by
  have he := h.expire hc
  rw [Bool.eq_iff_iff, contains_iff, live, List.any_eq_true]
  constructor
  · rintro ⟨e, hmem, hk⟩
    rw [cutoff_none, evict_cutoff] at hmem
    obtain ⟨hs, hcut⟩ := mem_prune.mp hmem
    have hadded := h.effective e hs
    have hpast := h.past e hadded
    exact ⟨e, hadded, decide_eq_true ⟨hk, by omega, by omega⟩⟩
  · rintro ⟨e, hadded, hlive⟩
    obtain ⟨hk, -, hyoung⟩ := of_decide_eq_true hlive
    exact ⟨e, he.kept e hadded hyoung, hk⟩

theorem perform_keeps (h : Keeps cfg clock added s) (c : Call) (hc : clock ≤ c.now)
    (hl : Lenient cfg c) : (perform cfg s c).1 = answer cfg added c ∧
      Keeps cfg c.now (note cfg added c) (perform cfg s c).2 := by
  obtain ⟨op, now⟩ := c
  cases op with
  | has nonce => exact ⟨congrArg some (h.contains_eq hc nonce), h.expire hc⟩
  | add nonce =>
    have he := h.expire hc
    have hlive := h.contains_eq hc nonce
    refine ⟨rfl, ?_⟩
    simp only [perform, note]
    cases hn : live cfg added nonce now with
    | true =>
      rw [hn] at hlive
      rw [Library.ExpiringSet.insert, if_pos hlive, if_pos rfl]
      exact he
    | false =>
      rw [hn] at hlive
      rw [insert_of_absent hlive, if_neg Bool.false_ne_true]
      refine ⟨?_, ?_, ?_⟩
      · exact List.forall_mem_append.mpr ⟨he.past, List.forall_mem_singleton.mpr le_rfl⟩
      · intro e hmem
        exact List.mem_append.mpr ((List.mem_append.mp hmem).imp_left (he.effective e))
      · intro e hmem hyoung
        exact List.mem_append.mpr ((List.mem_append.mp hmem).imp_left fun hadded =>
          he.kept e hadded hyoung)
  | prune ttlMs =>
    refine ⟨rfl, ?_⟩
    cases ttlMs with
    | none => exact h.expire hc
    | some ttl =>
      apply h.pruned hc
      intro t ht
      exact lt_cutoff (hl ttl rfl) ht

theorem answers_expected (cs : List Call) (h : Keeps cfg clock added s)
    (hclock : (clock :: cs.map Call.now).Pairwise (· ≤ ·)) (hl : ∀ c ∈ cs, Lenient cfg c) :
    answers (perform cfg) s cs = expected cfg added cs := by
  induction cs generalizing clock added s with
  | nil => rfl
  | cons c cs ih =>
    rw [List.map_cons, List.pairwise_cons] at hclock
    have hc := hclock.1 c.now List.mem_cons_self
    obtain ⟨ha, hk⟩ := perform_keeps h c hc (hl c List.mem_cons_self)
    rw [answers, expected, ha, ih hk hclock.2 fun c hc => hl c (List.mem_cons_of_mem _ hc)]

def fresh : SqliteNonceStore := ⟨none, false, fun h => by cases h⟩

/-- Both stores answer alike, whatever the ages of the prunings. When these spare the
configured lifetime, a nonce is there exactly as long as one of its effective additions is
not older than that. -/
theorem stores_interchangeable (cfg : Config) (cs : List Call) :
    answers (SqliteNonceStore.perform cfg) fresh cs =
      answers (InMemoryNonceStore.perform cfg) ⟨.empty⟩ cs ∧
    (Chronological cs → (∀ c ∈ cs, Lenient cfg c) →
      answers (SqliteNonceStore.perform cfg) fresh cs = expected cfg [] cs) := by
  have hsqlite : answers (SqliteNonceStore.perform cfg) fresh cs = answers (perform cfg) [] cs :=
    answers_of_view SqliteNonceStore.nonces sqlite_perform fresh cs
  have hmemory : answers (InMemoryNonceStore.perform cfg) ⟨.empty⟩ cs =
      answers (perform cfg) [] cs :=
    answers_of_view InMemoryNonceStore.set inMemory_perform ⟨.empty⟩ cs
  refine ⟨hsqlite.trans hmemory.symm, fun hclock hl => ?_⟩
  rw [hsqlite]
  have hkeeps : ∀ clock, Keeps cfg clock [] [] := fun clock => ⟨by simp, by simp, by simp⟩
  exact answers_expected cs (hkeeps _) (pairwise_headD_cons hclock 0) hl

/-- A second addition does not extend the life of a nonce. -/
theorem stores_interchangeable_readded :
    let cs : List Call := [⟨.add "n", 0⟩, ⟨.add "n", 5000⟩, ⟨.prune (some (.infinity false)), 6000⟩,
      ⟨.has "n", 86400000⟩, ⟨.has "n", 86400001⟩]
    answers (SqliteNonceStore.perform Sample.config) fresh cs =
      answers (InMemoryNonceStore.perform Sample.config) ⟨.empty⟩ cs ∧
    answers (SqliteNonceStore.perform Sample.config) fresh cs =
      [none, none, none, some true, some false] := by
  intro cs
  obtain ⟨hsame, hexpected⟩ := stores_interchangeable Sample.config cs
  refine ⟨hsame, (hexpected (by simp [cs, Chronological]) ?_).trans (by decide +kernel)⟩
  intro c hc ttl hop
  simp only [cs, List.mem_cons, List.not_mem_nil, or_false] at hc
  obtain rfl | rfl | rfl | rfl | rfl := hc <;> cases hop
  exact .inr rfl

end PayFi.X402.NonceStore
