import Mathlib.Data.List.Nodup
import Mathlib.Data.Nat.Basic
import Mathlib.Order.Basic

namespace PayFi.Library.Pages

section Page

variable {α T : Type} [DecidableEq T] (token : α → T) {xs before rest : List α} {x : α}
  {limit : ℕ} {t : T}

def after (xs : List α) : Option T → List α
  | none => xs
  | some t => (xs.dropWhile fun x => token x ≠ t).tail

def page (limit : ℕ) (xs : List α) (cursor : Option T) : List α :=
  (after token xs cursor).take limit

/-- The cursor to the page that follows; a page that is not full is the last one. -/
def next (limit : ℕ) (p : List α) : Option T :=
  if p.length = limit then p.getLast?.map token else none

theorem after_token (hdistinct : (xs.map token).Nodup) (hxs : xs = before ++ x :: rest) :
    after token xs (some (token x)) = rest := by
  have hbefore : ∀ y ∈ before, decide (token y ≠ token x) = true := by
    intro y hy
    apply decide_eq_true
    rw [hxs, List.map_append, List.map_cons] at hdistinct
    intro heq
    have hdisjoint := (List.nodup_append.mp hdistinct).2.2
    exact hdisjoint (token y) (List.mem_map_of_mem hy) (token x) List.mem_cons_self heq
  rw [after, hxs, List.dropWhile_append_of_pos hbefore, List.dropWhile_cons_of_neg]
  · rfl
  · simp

theorem next_full (hdistinct : (xs.map token).Nodup) (hsuffix : rest <:+ xs)
    (hlimit : 0 < limit) (hfull : limit ≤ rest.length) :
    ∃ t, next token limit (rest.take limit) = some t ∧ t ∈ xs.map token ∧
      after token xs (some t) = rest.drop limit := by
  obtain ⟨before, hxs⟩ := hsuffix
  have hne : rest.take limit ≠ [] := by
    intro h
    have hlength := congrArg List.length h
    rw [List.length_take, List.length_nil] at hlength
    omega
  obtain ⟨x, hx⟩ := List.getLast?_isSome.mpr hne |> Option.isSome_iff_exists.mp
  obtain ⟨front, hfront⟩ := List.getLast?_eq_some_iff.mp hx
  have hcut : xs = before ++ front ++ x :: rest.drop limit := by
    rw [← hxs, List.append_assoc]
    apply congrArg (before ++ ·)
    have h := List.take_append_drop limit rest
    rw [hfront, List.append_assoc] at h
    exact h.symm
  refine ⟨token x, ?_, ?_, after_token token hdistinct hcut⟩
  · rw [next, if_pos (by rw [List.length_take]; omega), hx]
    rfl
  · rw [hcut]
    exact List.mem_map_of_mem (List.mem_append_right _ List.mem_cons_self)

omit [DecidableEq T] in
theorem next_short (h : rest.length < limit) : next token limit (rest.take limit) = none := by
  rw [next, if_neg (by rw [List.length_take]; omega)]

end Page

section Follow

variable {α β T E : Type} {fetch : Option T → Except E (List β × Option T)}
  {cursor : Option T} {records rest : List β} {t : T} {fuel : ℕ}

/-- The records of all pages from a cursor on; `none` when `fuel` fetches do not reach the
last one. -/
def follow (fetch : Option T → Except E (List β × Option T)) :
    ℕ → Option T → Except E (Option (List β))
  | 0, _ => return none
  | fuel + 1, cursor => do
    let (records, nextCursor) ← fetch cursor
    match nextCursor with
    | none => return some records
    | some t => return (← follow fetch fuel (some t)).map (records ++ ·)

theorem follow_last (h : fetch cursor = .ok (records, none)) :
    follow fetch (fuel + 1) cursor = .ok (some records) := by
  rw [follow, h]
  rfl

theorem follow_more (h : fetch cursor = .ok (records, some t))
    (hrest : follow fetch fuel (some t) = .ok (some rest)) :
    follow fetch (fuel + 1) cursor = .ok (some (records ++ rest)) := by
  rw [follow, h]
  change (do return (← follow fetch fuel (some t)).map (records ++ ·)) = _
  rw [hrest]
  rfl

theorem follow_stuck (hto : fetch cursor = .ok (records, some t))
    (hself : fetch (some t) = .ok (rest, some t)) : follow fetch fuel cursor = .ok none := by
  induction fuel generalizing cursor records with
  | zero => rfl
  | succ fuel ih =>
    have hih : follow fetch fuel (some t) = .ok none := ih hself
    rw [follow, hto]
    change (do return (← follow fetch fuel (some t)).map (records ++ ·)) = _
    rw [hih]
    rfl

variable [DecidableEq T] {token : α → T} {xs left : List α} {limit : ℕ}
  {f : α → Option β}

theorem follow_after (hdistinct : (xs.map token).Nodup) (hlimit : 0 < limit)
    (hfetch : ∀ cursor, (∀ t ∈ cursor, t ∈ xs.map token) → fetch cursor =
      .ok ((page token limit xs cursor).filterMap f, next token limit (page token limit xs cursor)))
    (hcursor : ∀ t ∈ cursor, t ∈ xs.map token) (hsuffix : left <:+ xs)
    (hafter : after token xs cursor = left) (hfuel : left.length / limit < fuel) :
    follow fetch fuel cursor = .ok (some (left.filterMap f)) := by
  -- each full page leaves `limit` records less, and takes one unit of fuel
  induction fuel generalizing cursor left with
  | zero => exact absurd hfuel (Nat.not_lt_zero _)
  | succ fuel ih =>
    have hpage := hfetch cursor hcursor
    rw [page, hafter] at hpage
    by_cases hfull : limit ≤ left.length
    · obtain ⟨t, hnext, hmem, hrest⟩ := next_full token hdistinct hsuffix hlimit hfull
      rw [hnext] at hpage
      have hless : (left.drop limit).length / limit < fuel := by
        rw [Nat.div_eq_sub_div hlimit hfull] at hfuel
        rw [List.length_drop]
        omega
      have hmem : ∀ s ∈ some t, s ∈ xs.map token := by
        rintro s ⟨⟩
        exact hmem
      have hih : follow fetch fuel (some t) = .ok (some ((left.drop limit).filterMap f)) :=
        ih hmem ((List.drop_suffix limit left).trans hsuffix) hrest hless
      rw [follow_more hpage hih, ← List.filterMap_append, List.take_append_drop]
    · rw [next_short token (by omega), List.take_of_length_le (by omega)] at hpage
      exact follow_last hpage

/-- All records are read, each once and in their order, and one more page than there are full
ones is enough. -/
theorem follow_pages (hdistinct : (xs.map token).Nodup) (hlimit : 0 < limit)
    (hfetch : ∀ cursor, (∀ t ∈ cursor, t ∈ xs.map token) → fetch cursor =
      .ok ((page token limit xs cursor).filterMap f, next token limit (page token limit xs cursor)))
    (hfuel : xs.length / limit < fuel) :
    follow fetch fuel none = .ok (some (xs.filterMap f)) := by
  apply follow_after hdistinct hlimit hfetch
  · intro t ht
    cases ht
  · exact List.suffix_rfl
  · rfl
  · exact hfuel

end Follow

end PayFi.Library.Pages
