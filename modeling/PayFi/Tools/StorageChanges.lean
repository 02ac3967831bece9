import PayFi.Tools.StorageWatcher

namespace PayFi.Tools.StorageChanges

open Library.Machine Library.Maps StorageWatcher

abbrev State := String → Option String

def snapshot (entries : List LedgerEntryResult) : State := fun k =>
  ((currentMap entries).get? k).map Prod.snd

def initial (o : Options) : Option State :=
  o.initialState.map fun entries => (entries.foldl (fun m e => m.set e.1 e.2) .empty : Cache).get?

/-- A subscriber starts from the first snapshot, unless it has a state, and applies the changes. -/
def replay (state : Option State) : Event → Option State
  | .change e => state.map fun m => Function.update m e.keyXdr e.newValue
  | .poll _ entries => some (state.getD (snapshot entries))
  | _ => state

/-- The snapshot of the last successful poll. -/
def latest (state : Option State) : Event → Option State
  | .poll _ entries => some (snapshot entries)
  | _ => state

/-- A change has the value that a subscriber has for its key. -/
def Faithful (o : Options) (before : List Event) (x : Event) : Prop :=
  ∀ e, x = .change e → ∃ m, before.foldl replay (initial o) = some m ∧ e.oldValue = m e.keyXdr

def isChangeOf (k : String) : Event → Bool
  | .change e => e.keyXdr = k
  | _ => false

def changesOf (k : String) (journal : List Event) : ℕ := journal.countP (isChangeOf k)

/-- The server answers for watched keys. -/
def Watched (o : Options) : Action → Prop
  | .answer (.ok r) _ => ∀ entry ∈ r.entries.getD [], entry.key.toXDR ∈ o.keys
  | _ => True

instance (o : Options) : (a : Action) → Decidable (Watched o a)
  | .answer (.ok r) _ => inferInstanceAs (Decidable (∀ entry ∈ r.entries.getD [], _))
  | .answer (.error _) _ => .isTrue trivial
  | .tick _ => .isTrue trivial
  | .call _ => .isTrue trivial
  | .on _ => .isTrue trivial
  | .off _ => .isTrue trivial

variable {o : Options} {s t : Watcher} {k : String}

/-- A subscriber has what the cache has, and every change so far was faithful; the cache has
watched keys only. -/
structure Replayed (o : Options) (s : Watcher) : Prop where
  view : s.journal.foldl replay (initial o) = some s.stateCache.get?
  faithful : Preceded (Faithful o) s.journal
  keys : ∀ k, (s.stateCache.get? k).isSome = true → k ∈ o.keys

theorem changesOf_concat (k : String) (journal : List Event) (x : Event) :
    changesOf k (journal ++ [x]) = changesOf k journal + if isChangeOf k x then 1 else 0 := by
  rw [changesOf, changesOf, List.countP_append, List.countP_singleton]

theorem change_replayed (h : Replayed o s) {e : StorageChangeEvent} {cache : Cache}
    (hold : e.oldValue = s.stateCache.get? e.keyXdr)
    (hnew : cache.get? = Function.update s.stateCache.get? e.keyXdr e.newValue)
    (hkey : e.keyXdr ∈ o.keys) :
    Replayed o ({ s with stateCache := cache }.log (.change e)) := by
  constructor
  · rw [Watcher.log, List.foldl_append, h.view]
    exact congrArg some hnew.symm
  · apply h.faithful.concat
    rintro e' he
    cases he
    exact ⟨_, h.view, hold⟩
  · intro k hk
    change (cache.get? k).isSome = true at hk
    rw [hnew] at hk
    by_cases hek : k = e.keyXdr
    · rw [hek]
      exact hkey
    · rw [Function.update_of_ne hek] at hk
      exact h.keys k hk

variable {ledger : Option ℕ} {x : String × LedgerEntryResult × String}

theorem setModified_of_eq (h : s.stateCache.get? x.1 = some x.2.2) :
    setModified o ledger s x = s := by
  rw [setModified]
  exact if_neg (not_not_intro h)

theorem setModified_of_ne (h : s.stateCache.get? x.1 ≠ some x.2.2) :
    setModified o ledger s x =
      { s with stateCache := s.stateCache.set x.1 x.2.2 }.log (.change
        ⟨(watchedKey o x.1).getD x.2.1.key, x.1, s.stateCache.get? x.1, some x.2.2, some x.2.1,
          ledger⟩) := by
  rw [setModified]
  exact if_pos h

theorem get?_set_eq (m : Cache) (k v : String) :
    (m.set k v).get? = Function.update m.get? k (some v) := by
  funext k'
  rw [get?_set, Function.update_apply]

theorem setModified_get? (o : Options) (ledger : Option ℕ) (s : Watcher)
    (x : String × LedgerEntryResult × String) :
    (setModified o ledger s x).stateCache.get? =
      Function.update s.stateCache.get? x.1 (some x.2.2) := by
  by_cases h : s.stateCache.get? x.1 = some x.2.2
  · rw [setModified_of_eq h, ← h, Function.update_eq_self]
  · rw [setModified_of_ne h]
    exact get?_set_eq _ _ _

theorem setModified_changes (o : Options) (ledger : Option ℕ) (s : Watcher)
    (x : String × LedgerEntryResult × String) (k : String) :
    changesOf k (setModified o ledger s x).journal = changesOf k s.journal +
      if x.1 = k ∧ s.stateCache.get? k ≠ some x.2.2 then 1 else 0 := by
  by_cases h : s.stateCache.get? x.1 = some x.2.2
  · rw [setModified_of_eq h, if_neg]
    · rfl
    · rintro ⟨rfl, hne⟩
      exact hne h
  · rw [setModified_of_ne h, Watcher.log, changesOf_concat]
    by_cases hk : x.1 = k
    · subst hk
      simp [isChangeOf, h]
    · simp [isChangeOf, hk]

theorem setModified_replayed (h : Replayed o s) (hx : x.1 ∈ o.keys) :
    Replayed o (setModified o ledger s x) := by
  by_cases heq : s.stateCache.get? x.1 = some x.2.2
  · rw [setModified_of_eq heq]
    exact h
  · rw [setModified_of_ne heq]
    exact change_replayed h rfl (get?_set_eq _ _ _) hx

theorem lookup_of_not_mem {xs : List (String × LedgerEntryResult × String)}
    (h : k ∉ xs.map Prod.fst) : xs.lookup k = none := by
  rw [List.lookup_eq_none_iff]
  intro y hy
  apply bne_iff_ne.mpr
  exact fun heq => h (heq ▸ List.mem_map_of_mem hy)

theorem foldl_get? {f : Watcher → String × LedgerEntryResult × String → Watcher}
    (hf : ∀ s x, (f s x).stateCache.get? = Function.update s.stateCache.get? x.1 (some x.2.2))
    (s : Watcher) {xs : List (String × LedgerEntryResult × String)}
    (hnodup : (xs.map Prod.fst).Nodup) (k : String) :
    (xs.foldl f s).stateCache.get? k =
      (xs.lookup k).elim (s.stateCache.get? k) fun x => some x.2 := by
  induction xs generalizing s with
  | nil => rfl
  | cons x xs ih =>
    rw [List.map_cons, List.nodup_cons] at hnodup
    rw [List.foldl_cons, ih (f s x) hnodup.2, hf, List.lookup_cons]
    by_cases hk : k = x.1
    · subst hk
      rw [lookup_of_not_mem hnodup.1, Function.update_self, beq_self_eq_true]
      rfl
    · rw [beq_false_of_ne hk, Function.update_of_ne hk]

theorem setAll_changes (o : Options) (ledger : Option ℕ) (s : Watcher)
    {xs : List (String × LedgerEntryResult × String)} (hnodup : (xs.map Prod.fst).Nodup)
    (k : String) :
    changesOf k (xs.foldl (setModified o ledger) s).journal = changesOf k s.journal +
      (xs.lookup k).elim 0 fun x => if s.stateCache.get? k = some x.2 then 0 else 1 := by
  induction xs generalizing s with
  | nil => rfl
  | cons x xs ih =>
    rw [List.map_cons, List.nodup_cons] at hnodup
    rw [List.foldl_cons, ih (setModified o ledger s x) hnodup.2, setModified_get?,
      setModified_changes, List.lookup_cons]
    by_cases hk : k = x.1
    · subst hk
      rw [lookup_of_not_mem hnodup.1, beq_self_eq_true]
      by_cases heq : s.stateCache.get? x.1 = some x.2.2
      · simp [heq]
      · simp [heq]
    · rw [beq_false_of_ne hk, Function.update_of_ne hk, if_neg (fun h => hk h.1.symm),
        Nat.add_zero]

theorem setAll_isInitialized (o : Options) (ledger : Option ℕ) (s : Watcher)
    (xs : List (String × LedgerEntryResult × String)) :
    (xs.foldl (setModified o ledger) s).isInitialized = s.isInitialized := by
  induction xs generalizing s with
  | nil => rfl
  | cons x xs ih =>
    rw [List.foldl_cons, ih]
    by_cases heq : s.stateCache.get? x.1 = some x.2.2
    · rw [setModified_of_eq heq]
    · rw [setModified_of_ne heq]
      rfl

theorem setAll_replayed (h : Replayed o s) (ledger : Option ℕ)
    {xs : List (String × LedgerEntryResult × String)} (hxs : ∀ x ∈ xs, x.1 ∈ o.keys) :
    Replayed o (xs.foldl (setModified o ledger) s) := by
  induction xs generalizing s with
  | nil => exact h
  | cons x xs ih =>
    rw [List.forall_mem_cons] at hxs
    exact ih (setModified_replayed h hxs.1) hxs.2

def present (k : String) (m : Cache) : ℕ := if (m.get? k).isSome then 1 else 0

theorem get?_delete_eq (m : Cache) (k : String) :
    (m.delete k).get? = Function.update m.get? k none := by
  funext k'
  rw [get?_delete, Function.update_apply]

variable {current : OrderedMap String (LedgerEntryResult × String)}

theorem deleteMissing_spec (ledger : Option ℕ) (n i : ℕ) (h : Replayed o s) :
    ∃ t, deleteMissing o ledger current n i s = (t, .ok ()) ∧ Replayed o t ∧
      t.stateCache = s.stateCache.deleteFrom (fun e => !current.has e.1) n i ∧
      t.isInitialized = s.isInitialized ∧
      ∀ k, changesOf k t.journal + present k t.stateCache =
        changesOf k s.journal + present k s.stateCache := by
  induction n generalizing i s with
  | zero => exact ⟨s, rfl, h, rfl, rfl, fun _ => rfl⟩
  | succ n ih =>
    rw [deleteMissing, OrderedMap.deleteFrom]
    split
    · rename_i prevKeyXdr prevVal hslot
      rw [hslot]
      by_cases hhas : current.has prevKeyXdr = true
      · simp only [hhas, if_true, Bool.not_true, Bool.false_eq_true, if_false]
        exact ih (i + 1) h
      · have hval : s.stateCache.get? prevKeyXdr = some prevVal :=
          get?_eq_some.mpr (mem_entries.mpr ⟨i, hslot⟩)
        have hkey : prevKeyXdr ∈ o.keys := h.keys _ (by rw [hval]; rfl)
        have hwatched : watchedKey o prevKeyXdr = some (.xdr prevKeyXdr) := by
          rw [watchedKey, if_pos (List.contains_iff_mem.mpr hkey)]
        have h' := @change_replayed o s h
          ⟨.xdr prevKeyXdr, prevKeyXdr, some prevVal, none, none, ledger⟩ _ hval.symm
          (get?_delete_eq _ _) hkey
        obtain ⟨t, ht, hreplayed, hcache, hinit, hcount⟩ := ih (i + 1) h'
        simp only [hhas, hwatched, Option.elim_some, Bool.not_false, Bool.false_eq_true, if_true,
          if_false]
        refine ⟨t, ht, hreplayed, hcache, hinit, fun k => ?_⟩
        rw [hcount, Watcher.log, changesOf_concat]
        dsimp only
        rw [present, present, get?_delete]
        by_cases hk : k = prevKeyXdr
        · subst hk
          simp [isChangeOf, hval]
        · have hk' : prevKeyXdr ≠ k := fun heq => hk heq.symm
          simp [isChangeOf, hk, hk']
    · rename_i hslot
      obtain ⟨t, ht, hreplayed, hcache, hinit, hcount⟩ := ih (i + 1) h
      refine ⟨t, ht, hreplayed, ?_, hinit, hcount⟩
      rw [hcache]
      congr 1
      split
      · rename_i e hslot'
        exact absurd hslot' (hslot e.1 e.2)
      · rfl

theorem currentMap_keys {entries : List LedgerEntryResult}
    (h : ∀ entry ∈ entries, entry.key.toXDR ∈ o.keys) :
    ∀ x ∈ (currentMap entries).entries, x.1 ∈ o.keys :=
  forall_key_foldl_set .empty (List.forall_mem_nil _) h

/-- After the baseline, a poll takes the cache to the snapshot, with one change for each key in
which they differ. -/
theorem observe_initialized (h : Replayed o s) (hinit : s.isInitialized = true) {r : Response}
    (hr : ∀ entry ∈ r.entries.getD [], entry.key.toXDR ∈ o.keys) :
    ∃ t, observe o r s = (t, .ok ()) ∧ Replayed o t ∧ t.isInitialized = true ∧
      t.stateCache.get? = snapshot (r.entries.getD []) ∧
      ∀ k, changesOf k t.journal = changesOf k s.journal +
        if s.stateCache.get? k = snapshot (r.entries.getD []) k then 0 else 1 := by
  have hnodup := nodup_keys (currentMap (r.entries.getD []))
  have hset := setAll_replayed h r.latestLedger (currentMap_keys hr)
  have hlookup : ∀ k, (currentMap (r.entries.getD [])).entries.lookup k =
      (currentMap (r.entries.getD [])).get? k := fun _ => rfl
  obtain ⟨t, ht, hreplayed, hcache, hinit', hcount⟩ :=
    @deleteMissing_spec o _ (currentMap (r.entries.getD [])) r.latestLedger _ 0 hset
  have hget : ∀ k, t.stateCache.get? k = snapshot (r.entries.getD []) k := by
    intro k
    rw [hcache]
    change (OrderedMap.deleteWhere _ _).get? k = _
    rw [get?_deleteWhere, foldl_get? (setModified_get? o r.latestLedger) s hnodup, hlookup]
    simp only [has_eq_isSome, snapshot]
    cases (currentMap (r.entries.getD [])).get? k with
    | none => cases s.stateCache.get? k <;> rfl
    | some x => rfl
  refine ⟨t, ?_, hreplayed, ?_, funext hget, fun k => ?_⟩
  · rw [observe, hinit]
    exact ht
  · rw [hinit', setAll_isInitialized, hinit]
  · have hk := hcount k
    rw [present, present, hget, foldl_get? (setModified_get? o r.latestLedger) s hnodup,
      setAll_changes o _ s hnodup, hlookup] at hk
    simp only [snapshot] at hk ⊢
    obtain hc | ⟨x, hc⟩ := Option.eq_none_or_eq_some ((currentMap (r.entries.getD [])).get? k)
    · obtain hs | ⟨v, hs⟩ := Option.eq_none_or_eq_some (s.stateCache.get? k)
      · simpa [hc, hs] using hk
      · simpa [hc, hs] using hk
    · simpa [hc] using hk

theorem setBaseline_journal (s : Watcher) (xs : List (String × LedgerEntryResult × String)) :
    (xs.foldl setBaseline s).journal = s.journal := by
  induction xs generalizing s with
  | nil => rfl
  | cons x xs ih => exact ih (setBaseline s x)

theorem observe_baseline (hinit : s.isInitialized = false)
    (hempty : ∀ k, s.stateCache.get? k = none) (r : Response) :
    ∃ t, observe o r s = (t, .ok ()) ∧ t.isInitialized = true ∧ t.journal = s.journal ∧
      t.stateCache.get? = snapshot (r.entries.getD []) := by
  refine ⟨{ (currentMap (r.entries.getD [])).entries.foldl setBaseline s with
    isInitialized := true }, ?_, rfl, setBaseline_journal s _, funext fun k => ?_⟩
  · rw [observe, hinit]
    rfl
  change OrderedMap.get? (List.foldl setBaseline s _).stateCache k = _
  rw [foldl_get? (fun s x => get?_set_eq _ _ _) s (nodup_keys _), hempty]
  change (OrderedMap.get? _ k).elim none _ = _
  rw [snapshot]
  cases (currentMap (r.entries.getD [])).get? k <;> rfl

def view (s : Watcher) : Option State :=
  if s.isInitialized then some s.stateCache.get? else none

structure Synced (o : Options) (s : Watcher) : Prop where
  replayed : s.journal.foldl replay (initial o) = view s
  latest : s.journal.foldl latest (initial o) = view s
  faithful : Preceded (Faithful o) s.journal
  keys : ∀ k, (s.stateCache.get? k).isSome = true → k ∈ o.keys
  empty : s.isInitialized = false → ∀ k, s.stateCache.get? k = none

def isPlain : Event → Bool
  | .change _ => false
  | .poll _ _ => false
  | _ => true

structure Same (s t : Watcher) : Prop where
  cache : t.stateCache = s.stateCache
  initialized : t.isInitialized = s.isInitialized
  journal : ∃ es, t.journal = s.journal ++ es ∧ ∀ x ∈ es, isPlain x = true

theorem Same.refl (s : Watcher) : Same s s := ⟨rfl, rfl, [], by simp, by simp⟩

theorem Same.trans {u : Watcher} (h : Same s t) (h' : Same t u) : Same s u := by
  obtain ⟨es, hes, hplain⟩ := h.journal
  obtain ⟨es', hes', hplain'⟩ := h'.journal
  refine ⟨h'.cache.trans h.cache, h'.initialized.trans h.initialized, es ++ es', ?_, ?_⟩
  · rw [hes', hes, List.append_assoc]
  · exact List.forall_mem_append.mpr ⟨hplain, hplain'⟩

theorem log_same (s : Watcher) {x : Event} (hx : isPlain x = true) : Same s (s.log x) :=
  ⟨rfl, rfl, [x], rfl, List.forall_mem_singleton.mpr hx⟩

theorem foldl_plain {f : Option State → Event → Option State}
    (hf : ∀ m x, isPlain x = true → f m x = m) {es : List Event}
    (hes : ∀ x ∈ es, isPlain x = true) (m : Option State) : es.foldl f m = m := by
  induction es with
  | nil => rfl
  | cons x es ih =>
    rw [List.forall_mem_cons] at hes
    rw [List.foldl_cons, hf m x hes.1, ih hes.2]

theorem Same.foldl {f : Option State → Event → Option State}
    (hf : ∀ m x, isPlain x = true → f m x = m) (h : Same s t) (m : Option State) :
    t.journal.foldl f m = s.journal.foldl f m := by
  obtain ⟨es, hes, hplain⟩ := h.journal
  rw [hes, List.foldl_append, foldl_plain hf hplain]

theorem replay_plain (m : Option State) (x : Event) (hx : isPlain x = true) : replay m x = m := by
  cases x <;> first | rfl | cases hx

theorem latest_plain (m : Option State) (x : Event) (hx : isPlain x = true) : latest m x = m := by
  cases x <;> first | rfl | cases hx

theorem Same.changesOf (h : Same s t) (k : String) :
    changesOf k t.journal = changesOf k s.journal := by
  obtain ⟨es, hes, hplain⟩ := h.journal
  rw [hes, StorageChanges.changesOf, StorageChanges.changesOf, List.countP_append,
    Nat.add_eq_left, List.countP_eq_zero]
  intro x hx hchange
  have hx' := hplain x hx
  cases x with
  | change e => cases hx'
  | _ => cases hchange

theorem faithful_append {journal es : List Event} (h : Preceded (Faithful o) journal)
    (hes : ∀ x ∈ es, isPlain x = true) : Preceded (Faithful o) (journal ++ es) := by
  induction es using List.reverseRecOn with
  | nil => simpa using h
  | append_singleton es x ih =>
    rw [List.forall_mem_append, List.forall_mem_singleton] at hes
    rw [← List.append_assoc]
    apply (ih hes.1).concat
    rintro e rfl
    cases hes.2

theorem Same.faithful (hsame : Same s t) (h : Preceded (Faithful o) s.journal) :
    Preceded (Faithful o) t.journal := by
  obtain ⟨es, hes, hplain⟩ := hsame.journal
  rw [hes]
  exact faithful_append h hplain

theorem Same.synced (hsame : Same s t) (h : Synced o s) : Synced o t := by
  have hview : view t = view s := by rw [view, view, hsame.cache, hsame.initialized]
  refine ⟨?_, ?_, ?_, ?_, ?_⟩
  · rw [hsame.foldl replay_plain, h.replayed, hview]
  · rw [hsame.foldl latest_plain, h.latest, hview]
  · exact hsame.faithful h.faithful
  · rw [hsame.cache]
    exact h.keys
  · rw [hsame.cache, hsame.initialized]
    exact h.empty

theorem call_same (s : Watcher) (c : Call) : Same s (call s c) := by
  cases c with
  | stop => exact ⟨rfl, rfl, [.stop], rfl, by simp [isPlain]⟩
  | poll =>
    rw [call, poll]
    split
    · exact .refl s
    · exact ⟨rfl, rfl, [], by simp, by simp⟩

theorem calls_same (s : Watcher) (calls : List Call) : Same s (calls.foldl call s) := by
  induction calls generalizing s with
  | nil => exact .refl s
  | cons c calls ih => exact (call_same s c).trans (ih (call s c))

theorem conclude_same (o : Options) (s : Watcher) : Same s (conclude o s) := by
  rw [conclude]
  split
  · exact ⟨rfl, rfl, [.done s.pollCount], rfl, by simp [isPlain]⟩
  · split
    · exact .refl s
    · rename_i hs
      rw [scheduleNext, if_neg hs]
      exact ⟨rfl, rfl, [], by simp, by simp⟩

theorem caught_same (o : Options) (err : Network.Retries.Failure) (calls : List Call)
    (s : Watcher) : Same s (caught o err calls s) := by
  rw [caught]
  split
  · exact .refl s
  · split
    · exact .refl s
    · exact ((log_same s (by rfl)).trans (calls_same _ _)).trans (conclude_same _ _)

/-- The changes of a key that a snapshot asks for: one if it differs from the state before. -/
def expected (state : Option State) (entries : List LedgerEntryResult) (k : String) : ℕ :=
  state.elim 0 fun m => if m k = snapshot entries k then 0 else 1

/-- The try block has come to an end with the snapshot in the cache, and the subscriber will agree
with it once the poll is reported. -/
structure Observed (o : Options) (entries : List LedgerEntryResult) (t : Watcher) : Prop where
  initialized : t.isInitialized = true
  get : t.stateCache.get? = snapshot entries
  replayed : (t.journal.foldl replay (initial o)).getD (snapshot entries) = snapshot entries
  faithful : Preceded (Faithful o) t.journal
  keys : ∀ k, (t.stateCache.get? k).isSome = true → k ∈ o.keys

theorem observe_synced (h : Synced o s) {r : Response}
    (hr : ∀ entry ∈ r.entries.getD [], entry.key.toXDR ∈ o.keys) :
    ∃ t, observe o r s = (t, .ok ()) ∧ Observed o (r.entries.getD []) t ∧
      ∀ k, changesOf k t.journal = changesOf k s.journal +
        expected (view s) (r.entries.getD []) k := by
  by_cases hinit : s.isInitialized = true
  · have hview : view s = some s.stateCache.get? := if_pos hinit
    obtain ⟨t, ht, hreplayed, hinit', hget, hcount⟩ :=
      observe_initialized ⟨h.replayed.trans hview, h.faithful, h.keys⟩ hinit hr
    refine ⟨t, ht, ⟨hinit', hget, ?_, hreplayed.faithful, hreplayed.keys⟩, fun k => ?_⟩
    · rw [hreplayed.view, Option.getD_some, hget]
    · rw [hcount, hview]
      rfl
  · have hinit := Bool.eq_false_iff.mpr hinit
    have hview : view s = none := if_neg (by simp [hinit])
    obtain ⟨t, ht, hinit', hjournal, hget⟩ := @observe_baseline o s hinit (h.empty hinit) r
    refine ⟨t, ht, ⟨hinit', hget, ?_, ?_, fun k hk => ?_⟩, fun k => ?_⟩
    · rw [hjournal, h.replayed, hview, Option.getD_none]
    · rw [hjournal]
      exact h.faithful
    · rw [hget, snapshot, Option.isSome_map, Option.isSome_iff_exists] at hk
      obtain ⟨x, hx⟩ := hk
      exact currentMap_keys hr _ (get?_eq_some.mp hx)
    · rw [hjournal, hview]
      rfl

theorem Same.observed {entries : List LedgerEntryResult} (hsame : Same s t)
    (h : Observed o entries s) : Observed o entries t := by
  refine ⟨?_, ?_, ?_, ?_, ?_⟩
  · rw [hsame.initialized, h.initialized]
  · rw [hsame.cache, h.get]
  · rw [hsame.foldl replay_plain, h.replayed]
  · exact hsame.faithful h.faithful
  · rw [hsame.cache]
    exact h.keys

theorem poll_synced {entries : List LedgerEntryResult} (h : Observed o entries s)
    (pollCount : ℕ) :
    Synced o (s.log (.poll pollCount entries)) ∧
      view (s.log (.poll pollCount entries)) = some (snapshot entries) := by
  have hview : view (s.log (.poll pollCount entries)) = some (snapshot entries) := by
    rw [← h.get]
    exact if_pos h.initialized
  refine ⟨⟨?_, ?_, ?_, h.keys, fun hinit => ?_⟩, hview⟩
  · rw [hview, Watcher.log, List.foldl_append]
    exact congrArg some h.replayed
  · rw [hview, Watcher.log, List.foldl_append]
    rfl
  · apply h.faithful.concat
    rintro e he
    cases he
  · exact absurd h.initialized (by rw [show s.isInitialized = false from hinit]; decide)

theorem answered_synced (h : Synced o s) {r : Response}
    (hr : ∀ entry ∈ r.entries.getD [], entry.key.toXDR ∈ o.keys) (calls : Reactions) :
    Synced o (answered o (.ok r) calls s) ∧
      view (answered o (.ok r) calls s) = some (snapshot (r.entries.getD [])) ∧
      ∀ k, changesOf k (answered o (.ok r) calls s).journal = changesOf k s.journal +
        expected (view s) (r.entries.getD []) k := by
  obtain ⟨t, ht, hobserved, hcount⟩ := observe_synced h hr
  have hcalls := calls_same t (calls .change)
  obtain ⟨hsynced, hview⟩ :=
    poll_synced (hcalls.observed hobserved) ((calls .change).foldl call t).pollCount
  have hrest := (calls_same (((calls .change).foldl call t).log
    (.poll ((calls .change).foldl call t).pollCount (r.entries.getD []))) (calls .poll)).trans
      (conclude_same o _)
  simp only [answered, ht]
  refine ⟨hrest.synced hsynced, ?_, fun k => ?_⟩
  · rw [view, hrest.cache, hrest.initialized]
    exact hview
  · rw [hrest.changesOf, Watcher.log, changesOf_concat, hcalls.changesOf, hcount]
    rfl

theorem step_same (o : Options) (s : Watcher) (a : Action)
    (ha : ∀ r calls, a ≠ .answer (.ok r) calls) : Same s (step o s a) := by
  cases a with
  | tick id =>
    rw [step]
    split
    · have h := call_same { s with timers := s.timers.erase id } .poll
      exact ⟨h.cache, h.initialized, h.journal⟩
    · exact .refl s
  | call c => exact call_same s c
  | on name => exact ⟨rfl, rfl, [], by simp [step], by simp⟩
  | off name => exact ⟨rfl, rfl, [], by simp [step], by simp⟩
  | answer response calls =>
    cases response with
    | ok r => exact absurd rfl (ha r calls)
    | error err =>
      rw [step]
      split
      · exact .refl s
      · have h := caught_same o err (calls .error) (resume s)
        exact ⟨h.cache, h.initialized, h.journal⟩

theorem step_answer (h : Synced o s) {r : Response} (calls : Reactions)
    (hr : Watched o (.answer (.ok r) calls)) (hrunning : s.running ≠ 0) :
    Synced o (step o s (.answer (.ok r) calls)) ∧
      view (step o s (.answer (.ok r) calls)) = some (snapshot (r.entries.getD [])) ∧
      ∀ k, changesOf k (step o s (.answer (.ok r) calls)).journal = changesOf k s.journal +
        expected (view s) (r.entries.getD []) k := by
  have h' : Synced o (resume s) := ⟨h.replayed, h.latest, h.faithful, h.keys, h.empty⟩
  rw [step, if_neg hrunning]
  exact answered_synced h' hr calls

theorem step_synced (h : Synced o s) (a : Action) (hwatched : Watched o a) :
    Synced o (step o s a) := by
  by_cases ha : ∀ r calls, a ≠ .answer (.ok r) calls
  · exact (step_same o s a ha).synced h
  · simp only [ne_eq, not_forall, not_not] at ha
    obtain ⟨r, calls, rfl⟩ := ha
    by_cases hrunning : s.running = 0
    · rw [step, if_pos hrunning]
      exact h
    · exact (step_answer h calls hwatched hrunning).1

theorem watching_synced (listeners : Listeners)
    (hinitial : ∀ entries ∈ o.initialState, ∀ e ∈ entries, e.1 ∈ o.keys) :
    Synced o (watching o listeners) := by
  cases hstate : o.initialState with
  | none =>
    have hnone : ∀ k, (watching o listeners).stateCache.get? k = none := fun k => by
      simp only [watching, hstate]
      rfl
    have hview : initial o = view (watching o listeners) := by
      simp only [initial, view, watching, hstate]
      rfl
    exact ⟨hview, hview, Preceded.nil _, fun k hk => by simp [hnone] at hk, fun _ => hnone⟩
  | some entries =>
    have hview : initial o = view (watching o listeners) := by
      simp only [initial, view, watching, hstate]
      rfl
    refine ⟨hview, hview, Preceded.nil _, fun k hk => ?_, fun hinit => ?_⟩
    · obtain ⟨v, hv⟩ := Option.isSome_iff_exists.mp hk
      have hmem := get?_eq_some.mp hv
      simp only [watching, hstate] at hmem
      exact forall_key_foldl_set .empty (List.forall_mem_nil _) (hinitial entries hstate) _ hmem
    · simp only [watching, hstate] at hinit
      cases hinit

/-- What a step reports: a successful poll one change for each key whose value differs from the
snapshot before it and none for the others, and any other step nothing. -/
structure Reported (o : Options) (u : Transition Watcher Action) : Prop where
  success : ∀ r calls, u.action = .answer (.ok r) calls → u.before.running ≠ 0 →
    u.after.journal.foldl latest (initial o) = some (snapshot (r.entries.getD [])) ∧
      ∀ k, changesOf k u.after.journal = changesOf k u.before.journal +
        expected (u.before.journal.foldl latest (initial o)) (r.entries.getD []) k
  failure : (∀ r calls, u.action ≠ .answer (.ok r) calls) →
    u.after.stateCache = u.before.stateCache ∧
      ∀ k, changesOf k u.after.journal = changesOf k u.before.journal

theorem step_reported (h : Synced o s) (a : Action) (hwatched : Watched o a) :
    Reported o ⟨s, a, step o s a⟩ := by
  refine ⟨?_, fun ha => ?_⟩
  · rintro r calls rfl hrunning
    obtain ⟨hsynced, hview, hcount⟩ := step_answer h calls hwatched hrunning
    dsimp only
    rw [hsynced.latest, hview, h.latest]
    exact ⟨rfl, hcount⟩
  · have hsame := step_same o s a ha
    exact ⟨hsame.cache, hsame.changesOf⟩

/-- Over all sequences of polls: a subscriber who applies the changes always has the last
snapshot, every change has the value before it, and what is reported is exactly what differs. -/
theorem changes_replay (o : Options) (listeners : Listeners) (as : List Action)
    (hinitial : ∀ entries ∈ o.initialState, ∀ e ∈ entries, e.1 ∈ o.keys)
    (hserver : ∀ a ∈ as, Watched o a) :
    (run (step o) (watching o listeners) as).journal.foldl replay (initial o) =
        (run (step o) (watching o listeners) as).journal.foldl latest (initial o) ∧
      Preceded (Faithful o) (run (step o) (watching o listeners) as).journal ∧
      ∀ u ∈ trace (step o) (watching o listeners) as, Reported o u := by
  have hstart := watching_synced listeners hinitial
  have hstep : ∀ t a, Watched o a → Synced o t → Synced o (step o t a) :=
    fun _ a hwatched h => step_synced h a hwatched
  have hwatched : ∀ u ∈ trace (step o) (watching o listeners) as, Watched o u.action :=
    fun u hu => hserver _ (action_mem hu)
  have h := run_invariant_of (C := fun u => Watched o u.action) hstart hstep as hwatched
  refine ⟨h.replayed.trans h.latest.symm, h.faithful, ?_⟩
  refine trace_invariant_of (C := fun u => Watched o u.action) hstart hstep ?_ as hwatched
  intro _ a hgood h
  exact step_reported h a hgood

/-- Two keys of which one has a value at first: it is deleted and the other one set, and a failed
poll lies between. -/
theorem changes_replay_after_failure :
    let o : Options := ⟨["AAAA", "AAAB"], fun k => .ok (.string k), none, some [("AAAA", "AQ==")]⟩
    let as : List Action := [.tick 0, .answer (.error unavailable) silentReactions, .tick 1,
      .answer (.ok ⟨some [⟨.xdr "AAAB", .string "Ag=="⟩], some 7⟩) silentReactions]
    (run (step o) (watching o (.tool [.error])) as).journal.foldl replay (initial o) =
        (run (step o) (watching o (.tool [.error])) as).journal.foldl latest (initial o) ∧
      Preceded (Faithful o) (run (step o) (watching o (.tool [.error])) as).journal ∧
      ∀ u ∈ trace (step o) (watching o (.tool [.error])) as, Reported o u :=
  changes_replay _ _ _ (by decide) (by decide)

end PayFi.Tools.StorageChanges
