import Mathlib.Order.Lattice
import Mathlib.Tactic.Common

namespace PayFi.Library.Window

variable {Entry Time : Type} [LinearOrder Time]

def since (time : Entry → Time) (cutoff : Time) (xs : List Entry) : List Entry :=
  xs.filter fun x => cutoff ≤ time x

def expire (time : Entry → Time) (cutoff : Time) (xs : List Entry) : List Entry :=
  xs.dropWhile fun x => time x < cutoff

def Ordered (time : Entry → Time) (xs : List Entry) : Prop :=
  xs.Pairwise fun x y => time x ≤ time y

structure Mirrors (time : Entry → Time) (cutoff : Time) (history xs : List Entry) : Prop where
  ordered : Ordered time xs
  agrees : since time cutoff xs = since time cutoff history

variable {time : Entry → Time} {c c' : Time} {xs ys : List Entry}

theorem since_append (c : Time) (xs ys : List Entry) :
    since time c (xs ++ ys) = since time c xs ++ since time c ys := List.filter_append ..

theorem since_of_forall_le (h : ∀ x ∈ xs, c ≤ time x) : since time c xs = xs := by
  rw [since, List.filter_eq_self]
  intro x hx
  exact decide_eq_true (h x hx)

theorem since_since (h : c ≤ c') (xs : List Entry) :
    since time c' (since time c xs) = since time c' xs := by
  rw [since, since, List.filter_filter]
  refine List.filter_congr fun x _ => ?_
  by_cases hx : c' ≤ time x
  · simp [hx, le_trans h hx]
  · simp [hx]

theorem since_expire (h : c ≤ c') (xs : List Entry) :
    since time c' (expire time c xs) = since time c' xs := by
  induction xs with
  | nil => rfl
  | cons x xs ih =>
    by_cases hx : time x < c
    · have hstep : expire time c (x :: xs) = expire time c xs :=
        List.dropWhile_cons_of_pos (decide_eq_true hx)
      rw [hstep, ih, since, since, List.filter_cons_of_neg]
      simp [lt_of_lt_of_le hx h]
    · have hstep : expire time c (x :: xs) = x :: xs :=
        List.dropWhile_cons_of_neg (by simpa using hx)
      rw [hstep]

theorem since_concat_eq_iff {x : Entry} : since time c (xs ++ [x]) = since time c xs ↔
    time x < c := by
  rw [since_append, List.append_right_eq_self, since, List.filter_eq_nil_iff]
  simp

theorem since_map {Source : Type} (f : Source → Entry) (c : Time) (xs : List Source) :
    since time c (xs.map f) = (since (fun x => time (f x)) c xs).map f := List.filter_map

theorem expire_eq_since (h : Ordered time xs) (c : Time) :
    expire time c xs = since time c xs := by
  induction xs with
  | nil => rfl
  | cons x xs ih =>
    obtain ⟨hx, hxs⟩ := List.pairwise_cons.mp h
    by_cases hc : time x < c
    · have hstep : expire time c (x :: xs) = expire time c xs :=
        List.dropWhile_cons_of_pos (decide_eq_true hc)
      rw [hstep, ih hxs, since, since, List.filter_cons_of_neg]
      simp [hc]
    · have hle := not_lt.mp hc
      have hstep : expire time c (x :: xs) = x :: xs := List.dropWhile_cons_of_neg (by simp [hle])
      rw [hstep, since_of_forall_le]
      intro y hy
      obtain rfl | hy := List.mem_cons.mp hy
      · exact hle
      · exact le_trans hle (hx y hy)

theorem Ordered.since (h : Ordered time xs) (c : Time) : Ordered time (since time c xs) :=
  List.Pairwise.sublist List.filter_sublist h

theorem Ordered.concat (h : Ordered time xs) {x : Entry} (hx : ∀ y ∈ xs, time y ≤ time x) :
    Ordered time (xs ++ [x]) := by
  refine List.pairwise_append.mpr ⟨h, List.pairwise_singleton .., fun y hy z hz => ?_⟩
  rw [List.mem_singleton.mp hz]
  exact hx y hy

theorem Mirrors.refl (h : Ordered time xs) (c : Time) : Mirrors time c xs xs := ⟨h, rfl⟩

theorem Mirrors.later (h : Mirrors time c xs ys) (hc : c ≤ c') : Mirrors time c' xs ys := by
  refine ⟨h.ordered, ?_⟩
  rw [← since_since hc ys, h.agrees, since_since hc]

theorem Mirrors.since (h : Mirrors time c xs ys) (hc : c ≤ c') :
    Mirrors time c' xs (since time c' ys) := by
  refine ⟨h.ordered.since c', ?_⟩
  rw [since_since le_rfl]
  exact (h.later hc).agrees

theorem Mirrors.expire (h : Mirrors time c xs ys) (hc : c ≤ c') :
    Mirrors time c' xs (expire time c' ys) := by
  rw [expire_eq_since h.ordered]
  exact h.since hc

theorem Mirrors.expire_eq (h : Mirrors time c xs ys) (hc : c ≤ c') :
    Window.expire time c' ys = Window.since time c' xs := by
  rw [expire_eq_since h.ordered]
  exact (h.later hc).agrees

theorem Mirrors.concat (h : Mirrors time c xs ys) {x : Entry} (hx : ∀ y ∈ ys, time y ≤ time x) :
    Mirrors time c (xs ++ [x]) (ys ++ [x]) := by
  refine ⟨h.ordered.concat hx, ?_⟩
  rw [since_append, since_append, h.agrees]

end PayFi.Library.Window
