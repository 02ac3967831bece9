import Mathlib.Data.Int.Order.Basic
import Mathlib.Data.List.Infix
import Mathlib.Data.List.Pairwise
import Mathlib.Tactic.Common
import PayFi.Library.Parties

namespace PayFi.Library.FixedWindows

open Parties

variable {width : ℤ}

/-- Times by fixed windows: one is open for `width` from its start on, and the next starts with
the first time that finds it over. -/
def windows (width start : ℤ) (current : List ℤ) : List ℤ → List (List ℤ)
  | [] => [current]
  | t :: ts =>
    if width ≤ t - start then current :: windows width t [t] ts
    else windows width start (current ++ [t]) ts

/-- The first `max` times of each window. -/
def admitted (width : ℤ) (max : ℕ) (start : ℤ) (current ts : List ℤ) : List (List ℤ) :=
  (windows width start current ts).map (List.take max)

def within (width start : ℤ) (ts : List ℤ) : List ℤ :=
  ts.filter fun t => start ≤ t ∧ t < start + width

/-- No window of the width, wherever it starts, has more than `max` of the times. -/
def Sliding (width : ℤ) (max : ℕ) (ts : List ℤ) : Prop :=
  ∀ start, (within width start ts).length ≤ max

/-- Each time of a window still has room beside the young ones of the window before. -/
def Spaced (width : ℤ) (max : ℕ) (ws : List (List ℤ)) : Prop :=
  ∀ earlier later, [earlier, later] <:+: ws → ∀ k (h : k < later.length),
    (earlier.filter fun t => later[k] - width < t).length + k < max

/-- Windows as they come: each in its own interval, and those two apart with one in between. -/
structure Apart (width : ℤ) (ws : List (List ℤ)) : Prop where
  sorted : ws.flatten.Pairwise (· ≤ ·)
  span : ∀ w ∈ ws, ∀ t ∈ w, ∀ t' ∈ w, t' < t + width
  between : ∀ w w' rest, w :: w' :: rest <:+ ws → ∀ t ∈ w, ∀ t' ∈ rest.flatten, t + width ≤ t'

variable {max : ℕ} {start : ℤ} {current ts ts' w : List ℤ} {ws : List (List ℤ)}

theorem windows_flatten (width start : ℤ) (current ts : List ℤ) :
    (windows width start current ts).flatten = current ++ ts := by
  induction ts generalizing start current with
  | nil => simp [windows]
  | cons t ts ih =>
    rw [windows]
    split
    · rw [List.flatten_cons, ih]
      rfl
    · rw [ih, List.append_assoc]
      rfl

theorem windows_span (hcurrent : ∀ t ∈ current, start ≤ t ∧ t < start + width)
    (hsorted : (start :: ts).Pairwise (· ≤ ·)) (hwidth : 0 < width) :
    ∀ w ∈ windows width start current ts, ∃ s, ∀ t ∈ w, s ≤ t ∧ t < s + width := by
  induction ts generalizing start current with
  | nil =>
    rw [windows, List.forall_mem_singleton]
    exact ⟨start, hcurrent⟩
  | cons t ts ih =>
    obtain ⟨hstart, hrest⟩ := List.pairwise_cons.mp hsorted
    have ht := hstart t List.mem_cons_self
    rw [windows]
    split
    · refine List.forall_mem_cons.mpr ⟨⟨start, hcurrent⟩, ih ?_ hrest⟩
      rw [List.forall_mem_singleton]
      omega
    · refine ih (forall_mem_concat hcurrent ⟨ht, by omega⟩) ?_
      exact hsorted.sublist ((List.sublist_cons_self t ts).cons_cons start)

theorem windows_tail (hsorted : (start :: ts).Pairwise (· ≤ ·)) :
    ∀ t ∈ (windows width start current ts).tail.flatten, start + width ≤ t := by
  induction ts generalizing current with
  | nil => simp [windows]
  | cons t ts ih =>
    obtain ⟨hstart, hrest⟩ := List.pairwise_cons.mp hsorted
    rw [windows]
    split
    · rw [List.tail_cons, windows_flatten]
      intro t' ht'
      obtain rfl | ht' := List.mem_cons.mp ht'
      · omega
      · have hle := (List.pairwise_cons.mp hrest).1 t' ht'
        omega
    · exact ih (hsorted.sublist ((List.sublist_cons_self t ts).cons_cons start))

theorem windows_between (hcurrent : ∀ t ∈ current, t < start + width)
    (hsorted : (start :: ts).Pairwise (· ≤ ·)) (hwidth : 0 < width) :
    ∀ w w' rest, w :: w' :: rest <:+ windows width start current ts →
      ∀ t ∈ w, ∀ t' ∈ rest.flatten, t + width ≤ t' := by
  induction ts generalizing start current with
  | nil =>
    intro w w' rest hsuffix
    have hle := hsuffix.length_le
    simp [windows] at hle
  | cons t ts ih =>
    obtain ⟨hstart, hrest⟩ := List.pairwise_cons.mp hsorted
    rw [windows]
    split
    · intro w w' rest hsuffix
      obtain heq | hsuffix := List.suffix_cons_iff.mp hsuffix
      · obtain ⟨rfl, hnext⟩ := List.cons.inj heq
        intro t' ht' t'' ht''
        have hlt := hcurrent t' ht'
        have hmem : t'' ∈ (windows width t [t] ts).tail.flatten := by
          rw [← hnext]
          exact ht''
        have hle := windows_tail hrest t'' hmem
        omega
      · refine ih ?_ hrest w w' rest hsuffix
        rw [List.forall_mem_singleton]
        omega
    · refine ih (forall_mem_concat hcurrent (by omega)) ?_
      exact hsorted.sublist ((List.sublist_cons_self t ts).cons_cons start)

theorem flatten_take_sublist (n : ℕ) (ws : List (List ℤ)) :
    (ws.map (List.take n)).flatten.Sublist ws.flatten := by
  induction ws with
  | nil => exact .refl _
  | cons w ws ih => exact (List.take_sublist n w).append ih

theorem admitted_apart (max : ℕ) (hcurrent : ∀ t ∈ current, start ≤ t ∧ t < start + width)
    (hsorted : (current ++ ts).Pairwise (· ≤ ·)) (hstart : (start :: ts).Pairwise (· ≤ ·))
    (hwidth : 0 < width) : Apart width (admitted width max start current ts) := by
  have hspan := windows_span hcurrent hstart hwidth
  have hbetween := windows_between (fun t ht => (hcurrent t ht).2) hstart hwidth
  refine ⟨?_, ?_, ?_⟩
  · refine List.Pairwise.sublist (flatten_take_sublist max _) ?_
    rwa [windows_flatten]
  · refine List.forall_mem_map.mpr fun w hw t ht t' ht' => ?_
    obtain ⟨s, hs⟩ := hspan w hw
    have hfirst := hs t (List.mem_of_mem_take ht)
    have hsecond := hs t' (List.mem_of_mem_take ht')
    omega
  · intro w w' rest hsuffix t ht t' ht'
    obtain ⟨us, hwindows, hmap⟩ := List.suffix_map_iff.mp hsuffix
    obtain ⟨u, us, rfl, rfl, hnext⟩ := List.map_eq_cons_iff.mp hmap.symm
    obtain ⟨u', us', rfl, -, rfl⟩ := List.map_eq_cons_iff.mp hnext
    exact hbetween u u' us' hwindows t (List.mem_of_mem_take ht) t'
      ((flatten_take_sublist max us').subset ht')

theorem within_append (width start : ℤ) (ts ts' : List ℤ) :
    within width start (ts ++ ts') = within width start ts ++ within width start ts' :=
  List.filter_append ..

theorem Apart.tail (h : Apart width (w :: ws)) : Apart width ws where
  sorted := h.sorted.sublist (List.sublist_append_right _ _)
  span := fun u hu => h.span u (List.mem_cons_of_mem _ hu)
  between := fun u u' rest hsuffix => h.between u u' rest (hsuffix.trans (List.suffix_cons w ws))

theorem Spaced.tail (h : Spaced width max (w :: ws)) : Spaced width max ws :=
  fun earlier later hadjacent => h earlier later (hadjacent.trans (List.suffix_cons w ws).isInfix)

/-- Two neighbouring windows that are spaced share a sliding one: the last time of the later
that is inside had room beside all of the earlier that are inside too. -/
theorem within_pair {earlier later : List ℤ}
    (hspaced : ∀ k (h : k < later.length),
      (earlier.filter fun t => later[k] - width < t).length + k < max)
    (hearlier : earlier.length ≤ max) :
    (within width start earlier).length + (within width start later).length ≤ max := by
  induction later using List.reverseRecOn with
  | nil => exact (List.length_filter_le ..).trans hearlier
  | append_singleton later t ih =>
    rw [within_append, List.length_append]
    by_cases hin : start ≤ t ∧ t < start + width
    · have hroom := hspaced later.length (by simp)
      rw [List.getElem_concat_length rfl] at hroom
      have hyoung : (within width start earlier).length ≤
          (earlier.filter fun t' => t - width < t').length := by
        apply List.Sublist.length_le
        apply List.monotone_filter_right
        intro t' ht'
        rw [decide_eq_true_eq] at ht' ⊢
        omega
      have hlater : (within width start later).length ≤ later.length := List.length_filter_le ..
      have hone : (within width start [t]).length ≤ 1 := List.length_filter_le ..
      omega
    · have hout : within width start [t] = [] := by
        rw [within, List.filter_cons_of_neg (by simpa using hin), List.filter_nil]
      rw [hout]
      refine ih fun k hk => ?_
      have hroom := hspaced k (by rw [List.length_append]; omega)
      rwa [List.getElem_append_left hk] at hroom

/-- A time of a window, those of it before, and the young ones of the window before are all
within one sliding window. -/
theorem Apart.young_within {earlier later : List ℤ} (h : Apart width ws)
    (hadjacent : [earlier, later] <:+: ws) {k : ℕ} (hk : k < later.length) :
    (earlier.filter fun t => later[k] - width < t).length + (k + 1) ≤
      (within width (later[k] - width + 1) ws.flatten).length := by
  have hmem : later ∈ ws := hadjacent.subset (by simp)
  have hsub : (earlier ++ later).Sublist ws.flatten := by
    obtain ⟨before, after, rfl⟩ := hadjacent
    simp only [List.flatten_append, List.flatten_cons, List.flatten_nil, List.append_nil]
    exact (List.sublist_append_right ..).trans (List.sublist_append_left ..)
  have hsorted := h.sorted.sublist hsub
  have hlater := hsorted.sublist (List.sublist_append_right earlier later)
  have hlast : ∀ t ∈ later.take (k + 1), t ≤ later[k] := by
    intro t ht
    obtain ⟨i, hi, rfl⟩ := List.mem_take_iff_getElem.mp ht
    exact hlater.rel_get_of_le (a := ⟨i, by omega⟩) (b := ⟨k, hk⟩) (by simp; omega)
  have hall : ∀ t ∈ (earlier.filter fun t => later[k] - width < t) ++ later.take (k + 1),
      later[k] - width + 1 ≤ t ∧ t < later[k] - width + 1 + width := by
    refine List.forall_mem_append.mpr ⟨fun t ht => ?_, fun t ht => ?_⟩
    · obtain ⟨ht, hyoung⟩ := List.mem_filter.mp ht
      have hle := (List.pairwise_append.mp hsorted).2.2 t ht later[k] (List.getElem_mem hk)
      have hlt := of_decide_eq_true hyoung
      omega
    · have hle := hlast t ht
      have hlt := h.span later hmem t (List.mem_of_mem_take ht) later[k] (List.getElem_mem hk)
      omega
  have hyoung : ((earlier.filter fun t => later[k] - width < t) ++ later.take (k + 1)).Sublist
      ws.flatten := (List.filter_sublist.append (List.take_sublist (k + 1) later)).trans hsub
  have hinside := (hyoung.filter fun t => later[k] - width + 1 ≤ t ∧
    t < later[k] - width + 1 + width).length_le
  rwa [List.filter_eq_self.mpr fun t ht => decide_eq_true (hall t ht), List.length_append,
    List.length_take_of_le (by omega)] at hinside

theorem Apart.sliding_iff (h : Apart width ws) (hle : ∀ w ∈ ws, w.length ≤ max) :
    Sliding width max ws.flatten ↔ Spaced width max ws := by
  constructor
  · intro hsliding earlier later hadjacent k hk
    have hyoung := h.young_within hadjacent hk
    have hbound := hsliding (later[k] - width + 1)
    omega
  · intro hspaced start
    induction ws with
    | nil => exact Nat.zero_le _
    | cons w ws ih =>
      have hnext := ih h.tail (fun u hu => hle u (List.mem_cons_of_mem _ hu)) hspaced.tail
      have hfirst : w.length ≤ max := hle w List.mem_cons_self
      rw [List.flatten_cons, within_append, List.length_append]
      by_cases hin : ∃ t ∈ w, start ≤ t ∧ t < start + width
      · obtain ⟨t, ht, hstart, -⟩ := hin
        cases ws with
        | nil => exact (List.length_filter_le ..).trans hfirst
        | cons w' rest =>
          -- what comes after the next window is over when this one is not
          have hrest : within width start rest.flatten = [] := by
            apply List.filter_eq_nil_iff.mpr
            intro t' ht'
            have hle := h.between w w' rest (List.suffix_refl _) t ht t' ht'
            rw [decide_eq_true_eq]
            omega
          rw [List.flatten_cons, within_append, hrest, List.append_nil]
          exact within_pair (hspaced w w' ⟨[], rest, rfl⟩) hfirst
      · have hout : within width start w = [] := by
          apply List.filter_eq_nil_iff.mpr
          intro t ht hdecide
          exact hin ⟨t, ht, of_decide_eq_true hdecide⟩
        rw [hout, List.length_nil, Nat.zero_add]
        exact hnext

end PayFi.Library.FixedWindows
