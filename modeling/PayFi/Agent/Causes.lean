import Mathlib.Data.List.Forall2
import PayFi.Agent.Errors
import PayFi.Library.Results

namespace PayFi.Agent.Causes

open Library.Results Errors

def isPrimitive : Value → Bool
  | .undefined => true
  | .null => true
  | .boolean _ => true
  | .number _ => true
  | .string _ => true
  | .bigint => true
  | _ => false

/-- A JSON-like tree: primitives, arrays, and objects with different keys and no `__proto__`. -/
inductive Tree : Value → Prop
  | primitive {v : Value} (h : isPrimitive v = true) : Tree v
  | array {vs : List Value} (h : ∀ v ∈ vs, Tree v) : Tree (.array vs)
  | object {entries : List (String × Value)} (distinct : (entries.map Prod.fst).Nodup)
    (proto : "__proto__" ∉ entries.map Prod.fst) (h : ∀ e ∈ entries, Tree e.2) :
    Tree (.object entries)

inductive Step where
  | key (k : String)
  | index (i : ℕ)

def enter : Step → Value → Option Value
  | .key k, .object entries => entries.lookup k
  | .index i, .array vs => vs[i]?
  | _, _ => none

/-- Where a path leads. -/
def follow : List Step → Value → Option Value
  | [], v => some v
  | s :: path, v => (enter s v).bind (follow path)

def isSensitive (key : String) : Bool := sensitiveCauseKeys.contains key

def Step.isSafe : Step → Bool
  | .key k => !isSensitive k
  | .index _ => true

/-- No step of the path is a sensitive key. -/
def Safe (path : List Step) : Prop := ∀ s ∈ path, s.isSafe = true

/-- What is seen at the end of a path: a primitive, or the kind of a container with its length
or its keys in order. -/
inductive Shape where
  | leaf (v : Value)
  | array (length : ℕ)
  | object (keys : List String)

def shape : Value → Shape
  | .array vs => .array vs.length
  | .object entries => .object (entries.map Prod.fst)
  | v => .leaf v

def Shape.cleaned : Shape → Shape
  | .object keys => .object (keys.filter fun key => !isSensitive key)
  | s => s

def Cleans (v w : Value) : Prop := sanitizeCause v = .ok w

def CleansEntry (e f : String × Value) : Prop := f.1 = e.1 ∧ Cleans e.2 f.2

def kept (entries : List (String × Value)) : List (String × Value) :=
  entries.filter fun e => !isSensitive e.1

variable {v w : Value} {vs ws : List Value} {es fs : List (String × Value)} {k : String}

theorem sanitizeAll_iff : sanitizeAll vs = .ok ws ↔ List.Forall₂ Cleans vs ws := by
  induction vs generalizing ws with
  | nil =>
    rw [sanitizeAll, List.forall₂_nil_left_iff, Except.ok.injEq, eq_comm]
  | cons v vs ih =>
    simp only [sanitizeAll, bind_eq_ok, ih, List.forall₂_cons_left_iff]
    constructor
    · rintro ⟨w, hw, us, hus, heq⟩
      cases heq
      exact ⟨w, us, hw, hus, rfl⟩
    · rintro ⟨w, us, hw, hus, rfl⟩
      exact ⟨w, hw, us, hus, rfl⟩

theorem sanitizeEntries_iff (proto : "__proto__" ∉ es.map Prod.fst) :
    sanitizeEntries es = .ok fs ↔ List.Forall₂ CleansEntry (kept es) fs := by
  induction es generalizing fs with
  | nil =>
    rw [sanitizeEntries, kept, List.filter_nil, List.forall₂_nil_left_iff, Except.ok.injEq,
      eq_comm]
  | cons e es ih =>
    obtain ⟨key, v⟩ := e
    rw [List.map_cons, List.mem_cons, not_or] at proto
    have hkey : key ≠ "__proto__" := fun h => proto.1 h.symm
    rw [sanitizeEntries, kept, List.filter_cons, show sensitiveCauseKeys.contains key =
      isSensitive key from rfl]
    by_cases hsensitive : isSensitive key = true
    · rw [if_pos hsensitive, if_neg (by simp [hsensitive]), ih proto.2, kept]
    · rw [if_neg hsensitive, if_pos (by simp [hsensitive])]
      simp only [bind_eq_ok, ih proto.2, if_neg hkey, List.forall₂_cons_left_iff, kept]
      constructor
      · rintro ⟨w, hw, us, hus, heq⟩
        cases heq
        exact ⟨(key, w), us, ⟨rfl, hw⟩, hus, rfl⟩
      · rintro ⟨⟨key', w⟩, us, ⟨rfl, hw⟩, hus, rfl⟩
        exact ⟨w, hw, us, hus, rfl⟩

theorem finiteAll_iff : finiteAll vs = true ↔ ∀ v ∈ vs, v.finite = true := by
  induction vs with
  | nil => simp [finiteAll]
  | cons v vs ih => rw [finiteAll, Bool.and_eq_true, ih, List.forall_mem_cons]

theorem finiteEntries_iff : finiteEntries es = true ↔ ∀ e ∈ es, e.2.finite = true := by
  induction es with
  | nil => simp [finiteEntries]
  | cons e es ih => rw [finiteEntries, Bool.and_eq_true, ih, List.forall_mem_cons]

theorem Tree.finite (h : Tree v) : v.finite = true := by
  induction h with
  | @primitive v h => cases v <;> first | rfl | cases h
  | array _ ih => rw [Value.finite, finiteAll_iff]; exact ih
  | object _ _ _ ih => rw [Value.finite, finiteEntries_iff]; exact ih

theorem cleans_primitive (h : isPrimitive v = true) : Cleans v w ↔ w = v := by
  cases v with
  | function => cases h
  | array => cases h
  | object => cases h
  | throwing => cases h
  | cyclic => cases h
  | _ => rw [Cleans, sanitizeCause, Except.ok.injEq, eq_comm]; all_goals simp

theorem cleans_array : Cleans (.array vs) w ↔ ∃ ws, w = .array ws ∧ List.Forall₂ Cleans vs ws := by
  rw [Cleans, sanitizeCause, bind_eq_ok]
  simp only [sanitizeAll_iff]
  constructor
  · rintro ⟨ws, hws, heq⟩
    cases heq
    exact ⟨ws, rfl, hws⟩
  · rintro ⟨ws, rfl, hws⟩
    exact ⟨ws, hws, rfl⟩

theorem cleans_object (h : Tree (.object es)) :
    Cleans (.object es) w ↔ ∃ fs, w = .object fs ∧ List.Forall₂ CleansEntry (kept es) fs := by
  have hfinite := h.finite
  rw [Value.finite] at hfinite
  cases h with
  | primitive h => cases h
  | object distinct proto h =>
    rw [Cleans, sanitizeCause, entriesReadable_of_finite hfinite, bind_eq_ok]
    simp only [bind_eq_ok, sanitizeEntries_iff proto]
    constructor
    · rintro ⟨-, -, fs, hfs, heq⟩
      cases heq
      exact ⟨fs, rfl, hfs⟩
    · rintro ⟨fs, rfl, hfs⟩
      exact ⟨(), trivial, fs, hfs, rfl⟩

theorem keys_eq (h : List.Forall₂ CleansEntry es fs) : fs.map Prod.fst = es.map Prod.fst := by
  induction h with
  | nil => rfl
  | cons h _ ih => rw [List.map_cons, List.map_cons, ih, h.1]

theorem keys_cleaned (h : List.Forall₂ CleansEntry (kept es) fs) :
    fs.map Prod.fst = (es.map Prod.fst).filter fun key => !isSensitive key := by
  rw [keys_eq h, kept, List.filter_map]
  rfl

theorem exists_left {α : Type} {R : α → α → Prop} {xs ys : List α} {y : α}
    (h : List.Forall₂ R xs ys) (hy : y ∈ ys) : ∃ x ∈ xs, R x y := by
  induction h with
  | nil => cases hy
  | cons hr _ ih =>
    obtain rfl | hy := List.mem_cons.mp hy
    · exact ⟨_, List.mem_cons_self, hr⟩
    · obtain ⟨x, hx, hxy⟩ := ih hy
      exact ⟨x, List.mem_cons_of_mem _ hx, hxy⟩

theorem Tree.cleaned (h : Tree v) (hw : Cleans v w) : Tree w := by
  induction h generalizing w with
  | primitive h =>
    obtain rfl := (cleans_primitive h).mp hw
    exact .primitive h
  | array _ ih =>
    obtain ⟨ws, rfl, hws⟩ := cleans_array.mp hw
    refine .array fun w hw => ?_
    obtain ⟨v, hv, hvw⟩ := exists_left hws hw
    exact ih v hv hvw
  | object distinct proto h ih =>
    obtain ⟨fs, rfl, hfs⟩ := (cleans_object (.object distinct proto h)).mp hw
    refine .object ?_ ?_ fun f hf => ?_
    · rw [keys_cleaned hfs]
      exact distinct.filter _
    · rw [keys_cleaned hfs]
      exact fun hmem => proto (List.mem_of_mem_filter hmem)
    · obtain ⟨e, he, hef⟩ := exists_left hfs hf
      exact ih e (List.mem_of_mem_filter he) hef.2

theorem kept_cleaned (h : List.Forall₂ CleansEntry (kept es) fs) : kept fs = fs := by
  rw [kept, List.filter_eq_self]
  intro f hf
  have hkey := List.mem_map_of_mem hf (f := Prod.fst)
  rw [keys_cleaned h] at hkey
  exact (List.mem_filter.mp hkey).2

theorem cleans_cleaned (h : Tree v) (hw : Cleans v w) : Cleans w w := by
  induction h generalizing w with
  | primitive h =>
    obtain rfl := (cleans_primitive h).mp hw
    exact hw
  | array _ ih =>
    obtain ⟨ws, rfl, hws⟩ := cleans_array.mp hw
    refine cleans_array.mpr ⟨ws, rfl, List.forall₂_same.mpr fun w hw => ?_⟩
    obtain ⟨v, hv, hvw⟩ := exists_left hws hw
    exact ih v hv hvw
  | object distinct proto h ih =>
    have htree := (Tree.object distinct proto h).cleaned hw
    obtain ⟨fs, rfl, hfs⟩ := (cleans_object (.object distinct proto h)).mp hw
    refine (cleans_object htree).mpr ⟨fs, rfl, ?_⟩
    rw [kept_cleaned hfs]
    refine List.forall₂_same.mpr fun f hf => ⟨rfl, ?_⟩
    obtain ⟨e, he, hef⟩ := exists_left hfs hf
    exact ih e (List.mem_of_mem_filter he) hef.2

theorem shape_cleaned (h : Tree v) (hw : Cleans v w) : shape w = (shape v).cleaned := by
  cases h with
  | primitive h =>
    obtain rfl := (cleans_primitive h).mp hw
    cases w <;> first | rfl | cases h
  | array h =>
    obtain ⟨ws, rfl, hws⟩ := cleans_array.mp hw
    simp only [shape, Shape.cleaned, hws.length_eq]
  | object distinct proto h =>
    obtain ⟨fs, rfl, hfs⟩ := (cleans_object (.object distinct proto h)).mp hw
    simp only [shape, Shape.cleaned, keys_cleaned hfs]

theorem getElem?_rel {R : Value → Value → Prop} (h : List.Forall₂ R vs ws) (i : ℕ) :
    Option.Rel R vs[i]? ws[i]? := by
  induction h generalizing i with
  | nil => exact .none
  | cons hr _ ih =>
    cases i with
    | zero => exact .some hr
    | succ i => exact ih i

theorem lookup_rel (h : List.Forall₂ CleansEntry es fs) (k : String) :
    Option.Rel Cleans (es.lookup k) (fs.lookup k) := by
  induction h with
  | nil => exact .none
  | @cons e f _ _ hr _ ih =>
    rw [List.lookup_cons, List.lookup_cons, hr.1]
    cases k == e.1 with
    | true => exact .some hr.2
    | false => exact ih

theorem lookup_kept (es : List (String × Value)) (k : String) :
    (kept es).lookup k = if isSensitive k then none else es.lookup k := by
  induction es with
  | nil => simp [kept]
  | cons e es ih =>
    obtain ⟨key, u⟩ := e
    rw [kept, List.filter_cons]
    rw [kept] at ih
    by_cases hk : k = key
    · subst hk
      cases hsensitive : isSensitive k with
      | true => simpa [hsensitive] using ih
      | false => simp
    · have hne : (k == key) = false := beq_false_of_ne hk
      split
      · rw [List.lookup_cons, List.lookup_cons, hne, ih]
      · rw [List.lookup_cons, hne, ih]

theorem eq_none_of_rel {R : Value → Value → Prop} {y : Option Value}
    (h : Option.Rel R none y) : y = none := by
  cases h
  rfl

theorem exists_of_rel {R : Value → Value → Prop} {x : Value} {y : Option Value}
    (h : Option.Rel R (some x) y) : ∃ z, y = some z ∧ R x z := by
  cases h with
  | some hr => exact ⟨_, rfl, hr⟩

theorem enter_primitive (h : isPrimitive v = true) (s : Step) : enter s v = none := by
  cases v <;> cases s <;> first | rfl | cases h

theorem enter_sensitive (h : Tree v) (hw : Cleans v w) (hk : isSensitive k = true) :
    enter (.key k) w = none := by
  cases h with
  | primitive h =>
    obtain rfl := (cleans_primitive h).mp hw
    exact enter_primitive h _
  | array h =>
    obtain ⟨ws, rfl, -⟩ := cleans_array.mp hw
    rfl
  | object distinct proto h =>
    obtain ⟨fs, rfl, hfs⟩ := (cleans_object (.object distinct proto h)).mp hw
    have hrel := lookup_rel hfs k
    rw [lookup_kept, if_pos hk] at hrel
    exact eq_none_of_rel hrel

theorem enter_safe (h : Tree v) (hw : Cleans v w) {s : Step} (hs : s.isSafe = true) :
    Option.Rel Cleans (enter s v) (enter s w) := by
  cases h with
  | primitive h =>
    obtain rfl := (cleans_primitive h).mp hw
    rw [enter_primitive h]
    exact .none
  | array h =>
    obtain ⟨ws, rfl, hws⟩ := cleans_array.mp hw
    cases s with
    | key k => exact .none
    | index i => exact getElem?_rel hws i
  | object distinct proto h =>
    obtain ⟨fs, rfl, hfs⟩ := (cleans_object (.object distinct proto h)).mp hw
    cases s with
    | index i => exact .none
    | key k =>
      have hrel := lookup_rel hfs k
      rw [Step.isSafe, Bool.not_eq_true'] at hs
      rw [lookup_kept, if_neg (by simp [hs])] at hrel
      exact hrel

theorem Tree.enter (h : Tree v) {s : Step} {u : Value} (hu : enter s v = some u) : Tree u := by
  cases h with
  | primitive h =>
    rw [enter_primitive h] at hu
    cases hu
  | array h =>
    cases s with
    | key k => cases hu
    | index i => exact h u (List.mem_of_getElem? hu)
  | object distinct proto h =>
    cases s with
    | index i => cases hu
    | key k =>
      rw [Causes.enter, List.lookup_eq_some_iff] at hu
      obtain ⟨xs, ys, rfl, -⟩ := hu
      exact h (k, u) (by simp)

theorem follow_sensitive (h : Tree v) (hw : Cleans v w) {path : List Step} (hpath : ¬ Safe path) :
    follow path w = none := by
  induction path generalizing v w with
  | nil => exact absurd (by simp [Safe]) hpath
  | cons s path ih =>
    rw [Safe, List.forall_mem_cons, not_and] at hpath
    rw [follow]
    by_cases hs : s.isSafe = true
    · have hrel := enter_safe h hw hs
      cases hv : Causes.enter s v with
      | none =>
        rw [hv] at hrel
        rw [eq_none_of_rel hrel]
        rfl
      | some u =>
        rw [hv] at hrel
        obtain ⟨x, hx, hux⟩ := exists_of_rel hrel
        rw [hx]
        exact ih (h.enter hv) hux (hpath hs)
    · cases s with
      | index i => exact absurd rfl hs
      | key k =>
        rw [Step.isSafe, Bool.not_eq_true', Bool.not_eq_false] at hs
        rw [enter_sensitive h hw hs]
        rfl

theorem follow_safe (h : Tree v) (hw : Cleans v w) {path : List Step} (hpath : Safe path) :
    (follow path w).map shape = (follow path v).map fun u => (shape u).cleaned := by
  induction path generalizing v w with
  | nil => simp only [follow, Option.map_some, shape_cleaned h hw]
  | cons s path ih =>
    rw [Safe, List.forall_mem_cons] at hpath
    have hrel := enter_safe h hw hpath.1
    rw [follow, follow]
    cases hv : Causes.enter s v with
    | none =>
      rw [hv] at hrel
      rw [eq_none_of_rel hrel]
      rfl
    | some u =>
      rw [hv] at hrel
      obtain ⟨x, hx, hux⟩ := exists_of_rel hrel
      rw [hx]
      exact ih (h.enter hv) hux hpath.2

theorem not_mem_cleaned {s : Shape} {keys : List String} (h : s.cleaned = .object keys)
    (hk : isSensitive k = true) : k ∉ keys := by
  cases s with
  | leaf => cases h
  | array => cases h
  | object all =>
    cases h
    rw [List.mem_filter, hk]
    exact fun hmem => Bool.false_ne_true hmem.2

/-- A tree comes back without its sensitive keys. What the other paths lead to is still there,
and there is nothing else. -/
theorem sanitizeCause_spec (h : Tree v) :
    ∃ w, sanitizeCause v = .ok w ∧ Tree w ∧
      (∀ path keys, (follow path w).map shape = some (.object keys) →
        ∀ k ∈ sensitiveCauseKeys, k ∉ keys) ∧
      (∀ path, Safe path → (follow path w).map shape =
        (follow path v).map fun u => (shape u).cleaned) ∧
      (∀ path, ¬ Safe path → follow path w = none) ∧ sanitizeCause w = .ok w := by
  obtain ⟨w, hw⟩ := sanitizeCause_of_finite h.finite
  refine ⟨w, hw, h.cleaned hw, fun path keys hkeys k hk hmem => ?_, fun path => follow_safe h hw,
    fun path => follow_sensitive h hw, cleans_cleaned h hw⟩
  by_cases hpath : Safe path
  · rw [follow_safe h hw hpath, Option.map_eq_some_iff] at hkeys
    obtain ⟨u, -, hu⟩ := hkeys
    exact not_mem_cleaned hu (List.contains_iff_mem.mpr hk) hmem
  · rw [follow_sensitive h hw hpath] at hkeys
    cases hkeys

/-- A failed request with the key that has signed it, and the keys of a list of signers. -/
def leaky : Value :=
  .object [("status", .number (some "400")), ("secretKey", .string "SABC"),
    ("signers", .array [.object [("seed", .array [.null]), ("weight", .number (some "1"))]])]

theorem leaky_tree : Tree leaky := by
  refine .object (by decide) (by decide) ?_
  rw [List.forall_mem_cons, List.forall_mem_cons, List.forall_mem_singleton]
  refine ⟨.primitive rfl, .primitive rfl, .array ?_⟩
  rw [List.forall_mem_singleton]
  refine .object (by decide) (by decide) ?_
  rw [List.forall_mem_cons, List.forall_mem_singleton]
  refine ⟨.array ?_, .primitive rfl⟩
  rw [List.forall_mem_singleton]
  exact .primitive rfl

theorem sanitizeCause_spec_leaky :
    ∃ w, sanitizeCause leaky = .ok w ∧ Tree w ∧
      (∀ path keys, (follow path w).map shape = some (.object keys) →
        ∀ k ∈ sensitiveCauseKeys, k ∉ keys) ∧
      (∀ path, Safe path → (follow path w).map shape =
        (follow path leaky).map fun u => (shape u).cleaned) ∧
      (∀ path, ¬ Safe path → follow path w = none) ∧ sanitizeCause w = .ok w :=
  sanitizeCause_spec leaky_tree

end PayFi.Agent.Causes
