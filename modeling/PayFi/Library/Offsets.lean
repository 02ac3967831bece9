import Mathlib.Data.List.Basic
import Mathlib.Tactic.Common

namespace PayFi.Library.Offsets

variable {α : Type} (limit : ℕ)

def page (offset : ℕ) (xs : List α) : List α := (xs.drop offset).take limit

/-- Read page after page up to one that is not full. Before each page, `new` has come in front;
`none` if the last page is still full. -/
def follow : List α → ℕ → List (List α) → Option (List (List α))
  | _, _, [] => none
  | xs, offset, new :: news =>
    let p := page limit offset (new ++ xs)
    if p.length < limit then some [p]
    else (follow (new ++ xs) (offset + p.length) news).map (p :: ·)

variable {limit} {xs : List α} {offset : ℕ} {new : List α} {news ps : List (List α)}

theorem page_append_drop (offset : ℕ) (xs : List α) :
    page limit offset xs ++ xs.drop (offset + (page limit offset xs).length) = xs.drop offset := by
  rw [page, ← List.drop_drop, List.length_take]
  rcases Nat.le_total limit (xs.drop offset).length with h | h
  · rw [Nat.min_eq_left h, List.take_append_drop]
  · rw [Nat.min_eq_right h, List.take_of_length_le h, List.drop_length, List.append_nil]

theorem page_short (h : (page limit offset xs).length < limit) :
    page limit offset xs = xs.drop offset := by
  rw [page, List.length_take] at h
  exact List.take_of_length_le (by omega)

theorem drop_sublist (offset : ℕ) (new xs : List α) :
    (xs.drop offset).Sublist ((new ++ xs).drop offset) := by
  have hdrop : (new ++ xs).drop (new.length + offset) = xs.drop offset :=
    List.drop_length_add_append ..
  rw [← hdrop, Nat.add_comm, ← List.drop_drop]
  exact List.drop_sublist _ _

theorem page_length_le (hoffset : offset ≤ xs.length) :
    offset + (page limit offset xs).length ≤ xs.length := by
  rw [page, List.length_take, List.length_drop]
  omega

theorem follow_cons (h : follow limit xs offset (new :: news) = some ps) :
    let p := page limit offset (new ++ xs)
    p.length < limit ∧ ps = [p] ∨
      ∃ rest, follow limit (new ++ xs) (offset + p.length) news = some rest ∧ ps = p :: rest := by
  intro p
  simp only [follow] at h
  split at h
  · rename_i hshort
    exact .inl ⟨hshort, (Option.some.inj h).symm⟩
  · obtain ⟨rest, hrest, hps⟩ := Option.map_eq_some_iff.mp h
    exact .inr ⟨rest, hrest, hps.symm⟩

theorem follow_sublist (h : follow limit xs offset news = some ps) :
    (xs.drop offset).Sublist ps.flatten := by
  induction news generalizing xs offset ps with
  | nil => cases h
  | cons new news ih =>
    have hgrown := drop_sublist offset new xs
    obtain ⟨hshort, rfl⟩ | ⟨rest, hrest, rfl⟩ := follow_cons h
    · rw [List.flatten_singleton, page_short hshort]
      exact hgrown
    · rw [← page_append_drop offset (new ++ xs)] at hgrown
      rw [List.flatten_cons]
      exact hgrown.trans ((ih hrest).append_left _)

theorem follow_length (hoffset : offset ≤ xs.length)
    (h : follow limit xs offset news = some ps) :
    offset + ps.flatten.length = xs.length + (news.take ps.length).flatten.length := by
  induction news generalizing xs offset ps with
  | nil => cases h
  | cons new news ih =>
    have hle : offset ≤ (new ++ xs).length := by
      rw [List.length_append]
      omega
    obtain ⟨hshort, rfl⟩ | ⟨rest, hrest, rfl⟩ := follow_cons h
    · rw [List.flatten_singleton, page_short hshort, List.length_drop, List.length_singleton,
        List.take_one, List.head?_cons, Option.toList_some, List.flatten_singleton,
        List.length_append] at *
      omega
    · have hrec := ih (page_length_le hle) hrest
      rw [List.length_append] at hrec
      rw [List.flatten_cons, List.length_append, List.length_cons, List.take_succ_cons,
        List.flatten_cons, List.length_append]
      omega

theorem follow_getElem (h : follow limit xs offset news = some ps) (i : ℕ) (hi : i < ps.length) :
    ps[i] = page limit (offset + (ps.take i).flatten.length)
      ((news.take (i + 1)).reverse.flatten ++ xs) := by
  induction news generalizing xs offset ps i with
  | nil => cases h
  | cons new news ih =>
    obtain ⟨-, rfl⟩ | ⟨rest, hrest, rfl⟩ := follow_cons h
    · obtain rfl : i = 0 := by simpa using hi
      simp
    · cases i with
      | zero => simp
      | succ i =>
        have hpage := ih hrest i (by simpa using hi)
        rw [List.getElem_cons_succ, hpage, List.take_succ_cons, List.flatten_cons,
          List.length_append, Nat.add_assoc, List.take_succ_cons, List.reverse_cons,
          List.flatten_append, List.flatten_singleton, List.append_assoc]

theorem follow_isSome (hoffset : offset ≤ xs.length)
    (h : xs.length + news.flatten.length < offset + news.length * limit) :
    (follow limit xs offset news).isSome := by
  induction news generalizing xs offset with
  | nil =>
    rw [List.flatten_nil, List.length_nil, List.length_nil, Nat.zero_mul] at h
    omega
  | cons new news ih =>
    simp only [follow]
    split
    · rfl
    · rename_i hfull
      have hle : offset ≤ (new ++ xs).length := by
        rw [List.length_append]
        omega
      rw [Option.isSome_map]
      refine ih (page_length_le hle) ?_
      rw [List.flatten_cons, List.length_append, List.length_cons, Nat.succ_mul] at h
      rw [List.length_append]
      omega

end PayFi.Library.Offsets
