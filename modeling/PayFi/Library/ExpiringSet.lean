import Mathlib.Data.List.Basic
import Mathlib.Order.Lattice
import Mathlib.Tactic.Common

namespace PayFi.Library.ExpiringSet

variable {Key Time : Type}

/-- A key with the time of its insertion. -/
structure Entry (Key Time : Type) where
  key : Key
  time : Time
  deriving DecidableEq

def contains [DecidableEq Key] (s : List (Entry Key Time)) (k : Key) : Bool :=
  s.any fun e => e.key = k

def insert [DecidableEq Key] (s : List (Entry Key Time)) (k : Key) (now : Time) :
    List (Entry Key Time) :=
  if contains s k then s else s ++ [⟨k, now⟩]

def prune [LinearOrder Time] (cutoff : Time) (s : List (Entry Key Time)) :
    List (Entry Key Time) :=
  s.filter fun e => cutoff ≤ e.time

variable {s : List (Entry Key Time)} {k k' : Key} {e : Entry Key Time} {now : Time}

theorem mem_prune [LinearOrder Time] {cutoff : Time} :
    e ∈ prune cutoff s ↔ e ∈ s ∧ cutoff ≤ e.time := by
  rw [prune, List.mem_filter, decide_eq_true_eq]

variable [DecidableEq Key]

theorem contains_iff : contains s k = true ↔ ∃ e ∈ s, e.key = k := by
  simp [contains]

theorem not_contains_iff : contains s k = false ↔ ∀ e ∈ s, e.key ≠ k := by
  simp [contains]

theorem mem_insert_of_mem (h : e ∈ s) : e ∈ insert s k now := by
  rw [insert]
  split
  · exact h
  · exact List.mem_append_left _ h

theorem insert_of_absent (h : contains s k = false) : insert s k now = s ++ [⟨k, now⟩] := by
  rw [insert, h]
  rfl

theorem mem_insert (h : e ∈ insert s k now) : e ∈ s ∨ e = ⟨k, now⟩ := by
  rw [insert] at h
  split at h
  · exact .inl h
  · simpa using h

theorem contains_insert_of_ne (h : contains s k' = false) (hne : k ≠ k') :
    contains (insert s k now) k' = false := by
  rw [not_contains_iff] at h ⊢
  intro e he
  obtain he | rfl := mem_insert he
  · exact h e he
  · exact hne

theorem contains_prune [LinearOrder Time] (h : contains s k = false) (cutoff : Time) :
    contains (prune cutoff s) k = false := by
  rw [not_contains_iff] at h ⊢
  intro e he
  exact h e (mem_prune.mp he).1

end PayFi.Library.ExpiringSet
