import Mathlib.Data.List.Induction
import PayFi.Library.Numbers

namespace PayFi.Library.Objects

open Numbers

variable {Value : Type}

/-- An object by its own properties, in the order in which they are enumerated. -/
structure Object (Value : Type) where
  entries : List (String × Value)
  distinct : (entries.map Prod.fst).Nodup

def Object.empty : Object Value := ⟨[], List.nodup_nil⟩

def isIndex (key : String) : Bool :=
  let n := natOfDigits key.toList
  key.toList = Nat.toDigits 10 n && n < 2 ^ 32 - 1

/-- `{ ...base, ...later }`, with no index among the keys of `base`: a key of both stays in its
place and takes the value of `later`. -/
def spread (base later : List (String × Value)) : List (String × Value) :=
  later.filter (fun e => isIndex e.1) ++
    (base.map (fun e => (e.1, (later.lookup e.1).getD e.2)) ++
      later.filter fun e => !isIndex e.1 && (base.lookup e.1).isNone)

/-- `object[key] = value` for a key that is no index comes last when it is new, an index
between the others. -/
def assign (entries : List (String × Value)) (key : String) (value : Value) :
    List (String × Value) :=
  if (entries.map Prod.fst).contains key then
    entries.map fun e => if e.1 = key then (key, value) else e
  else if isIndex key then
    let before := fun e : String × Value =>
      isIndex e.1 && decide (natOfDigits e.1.toList < natOfDigits key.toList)
    entries.takeWhile before ++ (key, value) :: entries.dropWhile before
  else entries ++ [(key, value)]

def ofMembers (members : List (String × Value)) : List (String × Value) :=
  members.foldl (fun entries e => assign entries e.1 e.2) []

variable {base later entries : List (String × Value)} {key : String} {value : Value}
variable {P : String × Value → Prop}

theorem mem_of_lookup (h : entries.lookup key = some value) : (key, value) ∈ entries := by
  obtain ⟨front, back, rfl, -⟩ := List.lookup_eq_some_iff.mp h
  exact List.mem_append_right front List.mem_cons_self

theorem lookup_of_mem (hdistinct : (entries.map Prod.fst).Nodup) (h : (key, value) ∈ entries) :
    entries.lookup key = some value := by
  obtain ⟨front, back, rfl⟩ := List.append_of_mem h
  refine List.lookup_eq_some_iff.mpr ⟨front, back, rfl, fun e he => ?_⟩
  rw [List.map_append, List.map_cons] at hdistinct
  have hne := List.nodup_append.mp hdistinct |>.2.2 e.1 (List.mem_map_of_mem he) key
    List.mem_cons_self
  exact bne_iff_ne.mpr hne.symm

/-- What holds of an entry of the outcome, and of none of `base`, holds of one of `later`; and
the entries of `later` are all there. -/
theorem exists_mem_spread (hbase : ∀ e ∈ base, ¬P e) (hdistinct : (later.map Prod.fst).Nodup) :
    (∃ e ∈ spread base later, P e) ↔ ∃ e ∈ later, P e := by
  constructor
  · rintro ⟨e, he, hP⟩
    obtain hfront | he := List.mem_append.mp he
    · exact ⟨e, (List.mem_filter.mp hfront).1, hP⟩
    obtain hplace | hback := List.mem_append.mp he
    · obtain ⟨b, hb, rfl⟩ := List.mem_map.mp hplace
      cases hlookup : later.lookup b.1 with
      | none =>
        rw [hlookup] at hP
        exact absurd hP (hbase b hb)
      | some value =>
        rw [hlookup] at hP
        exact ⟨(b.1, value), mem_of_lookup hlookup, hP⟩
    · exact ⟨e, (List.mem_filter.mp hback).1, hP⟩
  · rintro ⟨e, he, hP⟩
    refine ⟨e, ?_, hP⟩
    cases hindex : isIndex e.1 with
    | true => exact List.mem_append_left _ (List.mem_filter.mpr ⟨he, hindex⟩)
    | false =>
      apply List.mem_append_right
      cases hlookup : base.lookup e.1 with
      | some value =>
        -- the key keeps the place it has in `base`
        apply List.mem_append_left
        refine List.mem_map.mpr ⟨(e.1, value), mem_of_lookup hlookup, ?_⟩
        rw [lookup_of_mem hdistinct he, Option.getD_some]
      | none =>
        apply List.mem_append_right
        refine List.mem_filter.mpr ⟨he, ?_⟩
        rw [hindex, hlookup]
        rfl

theorem lookup_filter_key (p : String → Bool) (entries : List (String × Value)) (key : String) :
    (entries.filter fun e => p e.1).lookup key = if p key then entries.lookup key else none := by
  induction entries with
  | nil => simp
  | cons e entries ih =>
    obtain ⟨k, v⟩ := e
    rw [List.filter_cons, List.lookup_cons]
    by_cases hk : key = k
    · subst hk
      by_cases hp : p key = true
      · simp [hp]
      · simp [hp, ih]
    · have hne : (key == k) = false := beq_eq_false_iff_ne.mpr hk
      rw [hne]
      split
      · rw [List.lookup_cons, hne, ih]
      · exact ih

theorem lookup_map_key {Other : Type} (f : String → Value → Other)
    (entries : List (String × Value)) (key : String) :
    (entries.map fun e => (e.1, f e.1 e.2)).lookup key = (entries.lookup key).map (f key) := by
  induction entries with
  | nil => rfl
  | cons e entries ih =>
    obtain ⟨k, v⟩ := e
    rw [List.map_cons, List.lookup_cons, List.lookup_cons]
    by_cases hk : key = k
    · subst hk
      simp
    · rw [beq_eq_false_iff_ne.mpr hk]
      exact ih

theorem lookup_spread (base later : List (String × Value)) (key : String) :
    (spread base later).lookup key = (later.lookup key).or (base.lookup key) := by
  have hplace := lookup_map_key (fun k v => (later.lookup k).getD v) base key
  have hback := lookup_filter_key (fun k => !isIndex k && (base.lookup k).isNone) later key
  rw [spread, List.lookup_append, List.lookup_append, lookup_filter_key, hplace, hback]
  cases isIndex key <;> cases later.lookup key <;> cases base.lookup key <;> rfl

def Before (key key' : String) : Prop :=
  isIndex key' = true →
    isIndex key = true ∧ natOfDigits key.toList < natOfDigits key'.toList

structure Enumerated (entries : List (String × Value)) : Prop where
  distinct : (entries.map Prod.fst).Nodup
  ordered : (entries.map Prod.fst).Pairwise Before

theorem isIndex_eq {key key' : String} (h : isIndex key = true) (h' : isIndex key' = true)
    (heq : natOfDigits key.toList = natOfDigits key'.toList) : key = key' := by
  simp only [isIndex, Bool.and_eq_true, decide_eq_true_eq] at h h'
  rw [← String.toList_inj, h.1, h'.1, heq]

theorem before_of_not_index {key key' : String} (h : isIndex key' = false) : Before key key' := by
  intro hindex
  rw [h] at hindex
  cases hindex

theorem enumerated_nil : Enumerated ([] : List (String × Value)) := ⟨List.nodup_nil, .nil⟩

theorem before_dropWhile (h : Enumerated entries) (hkey : isIndex key = true)
    (hnew : key ∉ entries.map Prod.fst) :
    ∀ e ∈ entries.dropWhile (fun e => isIndex e.1 &&
      decide (natOfDigits e.1.toList < natOfDigits key.toList)), Before key e.1 := by
  induction entries with
  | nil => exact nofun
  | cons e entries ih =>
    have hrest : Enumerated entries :=
      ⟨(List.nodup_cons.mp h.distinct).2, (List.pairwise_cons.mp h.ordered).2⟩
    rw [List.map_cons, List.mem_cons, not_or] at hnew
    rw [List.dropWhile_cons]
    split
    · exact ih hrest hnew.2
    · rename_i hstop
      have hhead : Before key e.1 := by
        intro hindex
        rw [hindex, Bool.true_and, decide_eq_true_eq, not_lt] at hstop
        refine ⟨hkey, lt_of_le_of_ne hstop fun heq => ?_⟩
        exact hnew.1 (isIndex_eq hkey hindex heq)
      intro f hf
      obtain rfl | hf := List.mem_cons.mp hf
      · exact hhead
      · intro hindex
        obtain ⟨he, hlt⟩ := (List.pairwise_cons.mp h.ordered).1 f.1 (List.mem_map_of_mem hf) hindex
        exact ⟨hkey, (hhead he).2.trans hlt⟩

theorem assign_enumerated (h : Enumerated entries) (key : String) (value : Value) :
    Enumerated (assign entries key value) := by
  unfold assign
  split
  · have hkeys : (entries.map fun e => if e.1 = key then (key, value) else e).map Prod.fst =
        entries.map Prod.fst := by
      rw [List.map_map]
      refine List.map_congr_left fun e _ => ?_
      rw [Function.comp_apply]
      split
      · rename_i heq
        exact heq.symm
      · rfl
    exact ⟨hkeys ▸ h.distinct, hkeys ▸ h.ordered⟩
  · rename_i hcontains
    have hnew : key ∉ entries.map Prod.fst := by simpa using hcontains
    split
    · rename_i hindex
      dsimp only
      generalize hbefore : (fun e : String × Value =>
        isIndex e.1 && decide (natOfDigits e.1.toList < natOfDigits key.toList)) = before
      have hsplit := List.takeWhile_append_dropWhile (p := before) (l := entries)
      have hafter := before_dropWhile h hindex hnew
      rw [hbefore] at hafter
      obtain ⟨hdistinct, hordered⟩ := h
      rw [← hsplit, List.map_append] at hdistinct hordered hnew
      obtain ⟨hfront, hback, hdisjoint⟩ := List.nodup_append.mp hdistinct
      obtain ⟨hfront', hback', hacross⟩ := List.pairwise_append.mp hordered
      rw [List.mem_append, not_or] at hnew
      refine ⟨?_, ?_⟩
      · rw [List.map_append, List.map_cons, List.nodup_append]
        refine ⟨hfront, List.nodup_cons.mpr ⟨hnew.2, hback⟩, fun k hk k' hk' => ?_⟩
        obtain rfl | hk' := List.mem_cons.mp hk'
        · rintro rfl
          exact hnew.1 hk
        · exact hdisjoint k hk k' hk'
      · rw [List.map_append, List.map_cons, List.pairwise_append]
        refine ⟨hfront', List.pairwise_cons.mpr ⟨fun k hk => ?_, hback'⟩, fun k hk k' hk' => ?_⟩
        · obtain ⟨e, he, rfl⟩ := List.mem_map.mp hk
          exact hafter e he
        · obtain rfl | hk' := List.mem_cons.mp hk'
          · obtain ⟨e, he, rfl⟩ := List.mem_map.mp hk
            have hsmall := List.mem_takeWhile_imp he
            rw [← hbefore, Bool.and_eq_true, decide_eq_true_eq] at hsmall
            exact fun _ => hsmall
          · exact hacross k hk k' hk'
    · rename_i hindex
      rw [Bool.not_eq_true] at hindex
      refine ⟨?_, ?_⟩
      · rw [List.map_append, List.nodup_append]
        refine ⟨h.distinct, List.pairwise_singleton .., fun k hk k' hk' => ?_⟩
        rw [List.mem_singleton.mp hk']
        rintro rfl
        exact hnew hk
      · rw [List.map_append, List.pairwise_append]
        refine ⟨h.ordered, List.pairwise_singleton .., fun k hk k' hk' => ?_⟩
        rw [List.mem_singleton.mp hk']
        exact before_of_not_index hindex

theorem mem_assign {e : String × Value} (h : e ∈ assign entries key value) :
    e ∈ entries ∨ e = (key, value) := by
  unfold assign at h
  split at h
  · obtain ⟨f, hf, rfl⟩ := List.mem_map.mp h
    split
    · exact .inr rfl
    · exact .inl hf
  · split at h
    · obtain h | h := List.mem_append.mp h
      · exact .inl ((List.takeWhile_sublist _).subset h)
      · obtain rfl | h := List.mem_cons.mp h
        · exact .inr rfl
        · exact .inl ((List.dropWhile_sublist _).subset h)
    · obtain h | h := List.mem_append.mp h
      · exact .inl h
      · exact .inr (List.mem_singleton.mp h)

theorem assign_concat (h : Enumerated (entries ++ [(key, value)])) :
    assign entries key value = entries ++ [(key, value)] := by
  obtain ⟨hdistinct, hordered⟩ := h
  rw [List.map_append] at hdistinct hordered
  have hnew : (entries.map Prod.fst).contains key = false := by
    rw [← Bool.not_eq_true, List.contains_iff_mem]
    intro hmem
    exact (List.nodup_append.mp hdistinct).2.2 key hmem key List.mem_cons_self rfl
  rw [assign, if_neg (by rw [hnew]; exact Bool.false_ne_true)]
  split
  · rename_i hindex
    have hall : ∀ e ∈ entries, (isIndex e.1 &&
        decide (natOfDigits e.1.toList < natOfDigits key.toList)) = true := by
      intro e he
      have hbefore := (List.pairwise_append.mp hordered).2.2 e.1 (List.mem_map_of_mem he) key
        List.mem_cons_self hindex
      rw [Bool.and_eq_true, decide_eq_true_eq]
      exact hbefore
    dsimp only
    rw [List.takeWhile_eq_self_iff.mpr hall, List.dropWhile_eq_nil_iff.mpr hall]
  · rfl

theorem lookup_eq_none (h : key ∉ entries.map Prod.fst) : entries.lookup key = none := by
  rw [List.lookup_eq_none_iff]
  intro e he
  rw [bne_iff_ne]
  rintro rfl
  exact h (List.mem_map_of_mem he)

theorem exists_lookup (h : key ∈ entries.map Prod.fst) : ∃ v, entries.lookup key = some v := by
  cases hlookup : entries.lookup key with
  | some v => exact ⟨v, rfl⟩
  | none =>
    obtain ⟨e, he, rfl⟩ := List.mem_map.mp h
    have hne := List.lookup_eq_none_iff.mp hlookup e he
    rw [bne_self_eq_false] at hne
    cases hne

theorem lookup_insert {front back : List (String × Value)}
    (hnew : key ∉ (front ++ back).map Prod.fst) (value : Value) (k : String) :
    (front ++ (key, value) :: back).lookup k =
      if k = key then some value else (front ++ back).lookup k := by
  rw [List.lookup_append, List.lookup_cons]
  by_cases hk : k = key
  · subst hk
    rw [List.map_append, List.mem_append, not_or] at hnew
    rw [lookup_eq_none hnew.1, if_pos rfl, beq_self_eq_true]
    rfl
  · rw [beq_eq_false_iff_ne.mpr hk, if_neg hk, List.lookup_append]

theorem lookup_replace (hold : key ∈ entries.map Prod.fst) (value : Value) (k : String) :
    (entries.map fun e => if e.1 = key then (key, value) else e).lookup k =
      if k = key then some value else entries.lookup k := by
  have hsame : (entries.map fun e => if e.1 = key then (key, value) else e) =
      entries.map fun e => (e.1, if e.1 = key then value else e.2) := by
    refine List.map_congr_left fun e _ => ?_
    by_cases he : e.1 = key
    · simp [he]
    · simp [he]
  rw [hsame, lookup_map_key (fun k' v => if k' = key then value else v)]
  by_cases hk : k = key
  · subst hk
    obtain ⟨v, hv⟩ := exists_lookup hold
    simp [hv]
  · simp [hk]

theorem lookup_assign (entries : List (String × Value)) (key : String) (value : Value)
    (k : String) : (assign entries key value).lookup k =
      if k = key then some value else entries.lookup k := by
  rw [assign]
  by_cases hold : key ∈ entries.map Prod.fst
  · rw [if_pos (List.contains_iff_mem.mpr hold)]
    exact lookup_replace hold value k
  · rw [if_neg (fun h => hold (List.contains_iff_mem.mp h))]
    split
    · dsimp only
      generalize (fun e : String × Value =>
        isIndex e.1 && decide (natOfDigits e.1.toList < natOfDigits key.toList)) = before
      have hsplit := List.takeWhile_append_dropWhile (p := before) (l := entries)
      rw [← hsplit] at hold
      rw [lookup_insert hold, hsplit]
    · rw [← List.append_nil entries] at hold
      rw [lookup_insert hold, List.append_nil]

theorem ofMembers_concat (members : List (String × Value)) (e : String × Value) :
    ofMembers (members ++ [e]) = assign (ofMembers members) e.1 e.2 := List.foldl_concat ..

theorem ofMembers_enumerated (members : List (String × Value)) :
    Enumerated (ofMembers members) := by
  induction members using List.reverseRecOn with
  | nil => exact enumerated_nil
  | append_singleton members e ih =>
    rw [ofMembers_concat]
    exact assign_enumerated ih e.1 e.2

theorem mem_ofMembers {members : List (String × Value)} {e : String × Value}
    (h : e ∈ ofMembers members) : e ∈ members := by
  induction members using List.reverseRecOn with
  | nil => exact h
  | append_singleton members f ih =>
    rw [ofMembers_concat] at h
    rw [List.mem_append, List.mem_singleton]
    exact (mem_assign h).imp_left ih

theorem lookup_ofMembers (members : List (String × Value)) (key : String) :
    (ofMembers members).lookup key = members.reverse.lookup key := by
  induction members using List.reverseRecOn with
  | nil => rfl
  | append_singleton members e ih =>
    rw [ofMembers_concat, lookup_assign, ih, List.reverse_append, List.reverse_singleton,
      List.singleton_append]
    obtain ⟨k, v⟩ := e
    rw [List.lookup_cons]
    by_cases hk : key = k
    · rw [if_pos hk, hk, beq_self_eq_true]
    · rw [if_neg hk, beq_eq_false_iff_ne.mpr hk]

end PayFi.Library.Objects
