import Mathlib.Data.List.Basic
import Mathlib.Tactic.Common

namespace PayFi.Library.Maps

variable {Key Value : Type} [DecidableEq Key]

/-- A map in the order of its insertions. A deletion empties a slot and leaves the others in
their places, so that a loop over the slots can go on. -/
structure OrderedMap (Key Value : Type) where
  slots : List (Option (Key × Value))
  distinct : ∀ {i j : ℕ} {e e' : Key × Value}, slots[i]? = some (some e) →
    slots[j]? = some (some e') → e.1 = e'.1 → i = j

def OrderedMap.empty : OrderedMap Key Value := ⟨[], by simp⟩

def OrderedMap.entries (m : OrderedMap Key Value) : List (Key × Value) := m.slots.filterMap id

def OrderedMap.has (m : OrderedMap Key Value) (k : Key) : Bool := m.entries.any fun e => e.1 = k

omit [DecidableEq Key] in
theorem mem_entries {m : OrderedMap Key Value} {e : Key × Value} :
    e ∈ m.entries ↔ ∃ i : ℕ, m.slots[i]? = some (some e) := by
  rw [OrderedMap.entries, List.mem_filterMap]
  constructor
  · rintro ⟨s, hs, rfl⟩
    exact List.mem_iff_getElem?.mp hs
  · rintro ⟨i, hi⟩
    exact ⟨some e, List.mem_of_getElem? hi, rfl⟩

theorem has_iff {m : OrderedMap Key Value} {k : Key} :
    m.has k = true ↔ ∃ e ∈ m.entries, e.1 = k := by
  simp [OrderedMap.has]

/-- A new entry goes behind all others; the map is unchanged when the key is present. -/
def OrderedMap.insert (m : OrderedMap Key Value) (k : Key) (v : Value) : OrderedMap Key Value :=
  if h : m.has k = true then m
  else
    ⟨m.slots ++ [some (k, v)], by
      have hnew : ∀ {i : ℕ} {e : Key × Value}, m.slots[i]? = some (some e) → e.1 ≠ k :=
        fun hi hk => h (has_iff.mpr ⟨_, mem_entries.mpr ⟨_, hi⟩, hk⟩)
      have hslot : ∀ {i : ℕ} {e : Key × Value},
          (m.slots ++ [some (k, v)])[i]? = some (some e) →
            m.slots[i]? = some (some e) ∨ i = m.slots.length ∧ e = (k, v) := by
        intro i e hi
        rw [List.getElem?_append] at hi
        split at hi
        · exact .inl hi
        · obtain ⟨hlt, he⟩ := List.getElem?_eq_some_iff.mp hi
          rw [List.length_singleton] at hlt
          simp only [List.getElem_singleton, Option.some.injEq] at he
          exact .inr ⟨by omega, he.symm⟩
      intro i j e e' hi hj hk
      obtain hi | ⟨rfl, rfl⟩ := hslot hi
      · obtain hj | ⟨rfl, rfl⟩ := hslot hj
        · exact m.distinct hi hj hk
        · exact absurd hk (hnew hi)
      · obtain hj | ⟨rfl, rfl⟩ := hslot hj
        · exact absurd hk.symm (hnew hj)
        · rfl⟩

def OrderedMap.delete (m : OrderedMap Key Value) (k : Key) : OrderedMap Key Value :=
  ⟨m.slots.map (Option.filter fun e => e.1 ≠ k), by
    have hslot : ∀ {i : ℕ} {e : Key × Value},
        (m.slots.map (Option.filter fun e => e.1 ≠ k))[i]? = some (some e) →
          m.slots[i]? = some (some e) := by
      intro i e hi
      rw [List.getElem?_map, Option.map_eq_some_iff] at hi
      obtain ⟨s, hs, hf⟩ := hi
      rw [hs, (Option.filter_eq_some_iff.mp hf).1]
    intro i j e e' hi hj hk
    exact m.distinct (hslot hi) (hslot hj) hk⟩

/-- `n` rounds of a loop over the entries from slot `i` on that deletes those in which `p`
holds. Each round looks at its slot in the map as it is by then. -/
def OrderedMap.deleteFrom (p : Key × Value → Bool) :
    ℕ → ℕ → OrderedMap Key Value → OrderedMap Key Value
  | 0, _, m => m
  | n + 1, i, m =>
    OrderedMap.deleteFrom p n (i + 1)
      (match m.slots[i]? with
      | some (some e) => if p e then m.delete e.1 else m
      | _ => m)

def OrderedMap.deleteWhere (p : Key × Value → Bool) (m : OrderedMap Key Value) :
    OrderedMap Key Value :=
  OrderedMap.deleteFrom p m.slots.length 0 m

variable {m : OrderedMap Key Value} {k : Key} {v : Value} {p : Key × Value → Bool}

theorem entries_insert_of_absent (h : m.has k = false) :
    (m.insert k v).entries = m.entries ++ [(k, v)] := by
  have hn : ¬ m.has k = true := by simp [h]
  rw [OrderedMap.insert, dif_neg hn, OrderedMap.entries, List.filterMap_append]
  rfl

theorem round_slot (p : Key × Value → Bool) (m : OrderedMap Key Value) (i j : ℕ) :
    (match m.slots[i]? with
      | some (some e) => if p e then m.delete e.1 else m
      | _ => m).slots[j]? =
      if j = i then (m.slots[j]?).map (Option.filter fun e => !p e) else m.slots[j]? := by
  by_cases hji : j = i
  · subst hji
    rw [if_pos rfl]
    cases hj : m.slots[j]? with
    | none => simp [hj]
    | some s =>
      cases s with
      | none => simp [hj]
      | some e =>
        by_cases hp : p e = true
        · simp [OrderedMap.delete, hj, hp, Option.filter]
        · simp [hj, hp, Option.filter]
  · rw [if_neg hji]
    split
    · rename_i e hi
      split
      · cases hj : m.slots[j]? with
        | none => simp [OrderedMap.delete, hj]
        | some s =>
          cases s with
          | none => simp [OrderedMap.delete, hj]
          | some e' =>
            have hne : e'.1 ≠ e.1 := fun hk => hji (m.distinct hj hi hk)
            simp [OrderedMap.delete, hj, hne]
      · rfl
    · rfl

theorem deleteFrom_slot (p : Key × Value → Bool) (n i : ℕ) (m : OrderedMap Key Value) (j : ℕ) :
    (m.deleteFrom p n i).slots[j]? =
      if i ≤ j ∧ j < i + n then (m.slots[j]?).map (Option.filter fun e => !p e)
      else m.slots[j]? := by
  induction n generalizing i m with
  | zero =>
    rw [OrderedMap.deleteFrom, if_neg (by omega)]
  | succ n ih =>
    rw [OrderedMap.deleteFrom, ih, round_slot]
    by_cases hji : j = i
    · rw [if_neg (by omega), if_pos hji, if_pos (by omega)]
    · rw [if_neg hji]
      by_cases hr : i + 1 ≤ j ∧ j < i + 1 + n
      · rw [if_pos hr, if_pos (by omega)]
      · rw [if_neg hr, if_neg (by omega)]

theorem entries_deleteWhere (p : Key × Value → Bool) (m : OrderedMap Key Value) :
    (m.deleteWhere p).entries = m.entries.filter fun e => !p e := by
  have hslots : (m.deleteWhere p).slots = m.slots.map (Option.filter fun e => !p e) := by
    apply List.ext_getElem?
    intro j
    rw [OrderedMap.deleteWhere, deleteFrom_slot, List.getElem?_map]
    by_cases hj : j < m.slots.length
    · rw [if_pos (by omega)]
    · rw [if_neg (by omega), List.getElem?_eq_none (by omega), Option.map_none]
  rw [OrderedMap.entries, hslots, OrderedMap.entries, List.filterMap_map, List.filter_filterMap]
  rfl

def OrderedMap.get? (m : OrderedMap Key Value) (k : Key) : Option Value := m.entries.lookup k

omit [DecidableEq Key] in
theorem nodup_keys (m : OrderedMap Key Value) : (m.entries.map Prod.fst).Nodup := by
  have hslots : m.slots.Pairwise fun s s' => ∀ e ∈ s, ∀ e' ∈ s', e.1 ≠ e'.1 := by
    rw [List.pairwise_iff_getElem]
    intro i j hi hj hij e he e' he' hk
    have h := m.distinct (List.getElem?_eq_some_iff.mpr ⟨hi, he⟩)
      (List.getElem?_eq_some_iff.mpr ⟨hj, he'⟩) hk
    omega
  rw [List.Nodup, List.pairwise_map, OrderedMap.entries, List.pairwise_filterMap]
  exact hslots

theorem get?_eq_some : m.get? k = some v ↔ (k, v) ∈ m.entries := by
  have hnodup := nodup_keys m
  rw [OrderedMap.get?]
  generalize m.entries = es at hnodup ⊢
  induction es with
  | nil => simp
  | cons e es ih =>
    obtain ⟨k', v'⟩ := e
    rw [List.map_cons, List.nodup_cons] at hnodup
    rw [List.lookup_cons, List.mem_cons, Prod.mk.injEq]
    by_cases hk : k = k'
    · subst hk
      have habsent : (k, v) ∉ es := fun hmem => hnodup.1 (List.mem_map.mpr ⟨(k, v), hmem, rfl⟩)
      simp [habsent, eq_comm]
    · simp only [beq_false_of_ne hk, hk, false_and, false_or]
      exact ih hnodup.2

theorem has_eq_isSome : m.has k = (m.get? k).isSome := by
  rw [Bool.eq_iff_iff, has_iff, Option.isSome_iff_exists]
  constructor
  · rintro ⟨⟨k', v⟩, he, rfl⟩
    exact ⟨v, get?_eq_some.mpr he⟩
  · rintro ⟨v, hv⟩
    exact ⟨(k, v), get?_eq_some.mp hv, rfl⟩

def OrderedMap.set (m : OrderedMap Key Value) (k : Key) (v : Value) : OrderedMap Key Value :=
  if m.has k then
    ⟨m.slots.map (Option.map fun e => if e.1 = k then (k, v) else e), by
      have hslot : ∀ {i : ℕ} {e : Key × Value},
          (m.slots.map (Option.map fun e => if e.1 = k then (k, v) else e))[i]? = some (some e) →
            ∃ e', m.slots[i]? = some (some e') ∧ e'.1 = e.1 := by
        intro i e hi
        rw [List.getElem?_map, Option.map_eq_some_iff] at hi
        obtain ⟨s, hs, hmap⟩ := hi
        obtain ⟨e', rfl, rfl⟩ := Option.map_eq_some_iff.mp hmap
        refine ⟨e', hs, ?_⟩
        by_cases hk : e'.1 = k
        · rw [if_pos hk, hk]
        · rw [if_neg hk]
      intro i j e e' hi hj hk
      obtain ⟨f, hf, hfe⟩ := hslot hi
      obtain ⟨f', hf', hfe'⟩ := hslot hj
      exact m.distinct hf hf' (by rw [hfe, hfe', hk])⟩
  else m.insert k v

theorem get?_ext {o : Option Value} (h : ∀ v, (k, v) ∈ m.entries ↔ o = some v) : m.get? k = o :=
  Option.ext fun v => by rw [get?_eq_some, h v]

theorem mem_entries_set {k' : Key} {v' : Value} :
    (k', v') ∈ (m.set k v).entries ↔
      (k' = k ∧ v' = v) ∨ (k' ≠ k ∧ (k', v') ∈ m.entries) := by
  by_cases hhas : m.has k = true
  · have hentries : (m.set k v).entries =
        m.entries.map fun e => if e.1 = k then (k, v) else e := by
      rw [OrderedMap.set, if_pos hhas, OrderedMap.entries, List.filterMap_map, OrderedMap.entries,
        List.map_filterMap]
      rfl
    rw [hentries, List.mem_map]
    constructor
    · rintro ⟨e, he, heq⟩
      by_cases hk : e.1 = k
      · rw [if_pos hk] at heq
        cases heq
        exact .inl ⟨rfl, rfl⟩
      · rw [if_neg hk] at heq
        subst heq
        exact .inr ⟨hk, he⟩
    · rintro (⟨rfl, rfl⟩ | ⟨hk, he⟩)
      · obtain ⟨e, he, hk⟩ := has_iff.mp hhas
        exact ⟨e, he, if_pos hk⟩
      · exact ⟨(k', v'), he, if_neg hk⟩
  · rw [OrderedMap.set, if_neg hhas, entries_insert_of_absent (by simpa using hhas),
      List.mem_append, List.mem_singleton, Prod.mk.injEq]
    constructor
    · rintro (he | heq)
      · refine .inr ⟨fun hk => hhas ?_, he⟩
        exact has_iff.mpr ⟨(k', v'), he, hk⟩
      · exact .inl heq
    · rintro (heq | ⟨-, he⟩)
      · exact .inr heq
      · exact .inl he

theorem forall_key_foldl_set {β : Type} {K : Key → Prop} {key : β → Key} {value : β → Value}
    {xs : List β} (m : OrderedMap Key Value) (hm : ∀ e ∈ m.entries, K e.1)
    (h : ∀ x ∈ xs, K (key x)) :
    ∀ e ∈ (xs.foldl (fun m x => m.set (key x) (value x)) m).entries, K e.1 := by
  induction xs generalizing m with
  | nil => exact hm
  | cons x xs ih =>
    rw [List.forall_mem_cons] at h
    refine ih (m.set (key x) (value x)) ?_ h.2
    rintro ⟨k, v⟩ hx
    obtain ⟨rfl, -⟩ | ⟨-, hx⟩ := mem_entries_set.mp hx
    · exact h.1
    · exact hm _ hx

theorem get?_set (m : OrderedMap Key Value) (k : Key) (v : Value) (k' : Key) :
    (m.set k v).get? k' = if k' = k then some v else m.get? k' := by
  apply get?_ext
  intro v'
  rw [mem_entries_set]
  by_cases hk : k' = k
  · simp [hk, eq_comm]
  · simp [hk, get?_eq_some]

theorem get?_deleteWhere (p : Key × Value → Bool) (m : OrderedMap Key Value) (k : Key) :
    (m.deleteWhere p).get? k = (m.get? k).filter fun v => !p (k, v) := by
  apply get?_ext
  intro v
  rw [entries_deleteWhere, List.mem_filter, Option.filter_eq_some_iff, get?_eq_some]

theorem get?_delete (m : OrderedMap Key Value) (k k' : Key) :
    (m.delete k).get? k' = if k' = k then none else m.get? k' := by
  have hentries : (m.delete k).entries = m.entries.filter fun e => e.1 ≠ k := by
    rw [OrderedMap.entries, OrderedMap.delete, List.filterMap_map, OrderedMap.entries,
      List.filter_filterMap]
    rfl
  apply get?_ext
  intro v
  rw [hentries, List.mem_filter]
  by_cases hk : k' = k
  · simp [hk]
  · simp [hk, get?_eq_some]

end PayFi.Library.Maps
