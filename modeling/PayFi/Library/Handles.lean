import Mathlib.Data.List.Basic
import Mathlib.Data.List.Nodup
import Mathlib.Data.List.Range
import Mathlib.Tactic.Common

namespace PayFi.Library.Handles

inductive Use where
  | opened (i : ℕ)
  | closed (i : ℕ)
  deriving DecidableEq

structure Slot where
  held : Option ℕ
  count : ℕ

def empty : Slot := ⟨none, 0⟩

def Slot.close (s : Slot) : Slot × List Use :=
  match s.held with
  | none => (s, [])
  | some i => (⟨none, s.count⟩, [.closed i])

def Slot.take (s : Slot) : Slot × List Use := (⟨some s.count, s.count + 1⟩, [.opened s.count])

def Slot.keep (s : Slot) : Slot × List Use :=
  match s.held with
  | none => s.take
  | some _ => (s, [])

def Slot.replace (s : Slot) : Slot × List Use :=
  (s.close.1.take.1, s.close.2 ++ s.close.1.take.2)

/-- Each of `n` resources opened and closed before the next. -/
def rounds (n : ℕ) : List Use := (List.range n).flatMap fun i => [.opened i, .closed i]

structure InTurn (uses : List Use) (s : Slot) : Prop where
  rounded : uses ++ (s.held.map Use.closed).toList = rounds s.count
  last : ∀ i ∈ s.held, i + 1 = s.count

variable {uses : List Use} {s : Slot} {n i : ℕ}

theorem rounds_succ (n : ℕ) : rounds (n + 1) = rounds n ++ [.opened n, .closed n] := by
  rw [rounds, List.range_succ, List.flatMap_append]
  rfl

theorem opened_mem_rounds : .opened i ∈ rounds n ↔ i < n := by
  simp [rounds]

theorem closed_mem_rounds : .closed i ∈ rounds n ↔ i < n := by
  simp [rounds]

theorem nodup_rounds (n : ℕ) : (rounds n).Nodup := by
  induction n with
  | zero => exact List.nodup_nil
  | succ n ih =>
    rw [rounds_succ, List.nodup_append]
    refine ⟨ih, by simp, fun a ha b hb => ?_⟩
    rintro rfl
    rw [List.mem_cons, List.mem_singleton] at hb
    obtain rfl | rfl := hb
    · exact absurd (opened_mem_rounds.mp ha) (Nat.lt_irrefl n)
    · exact absurd (closed_mem_rounds.mp ha) (Nat.lt_irrefl n)

theorem empty_inTurn : InTurn [] empty := ⟨rfl, nofun⟩

theorem InTurn.close (h : InTurn uses s) : InTurn (uses ++ s.close.2) s.close.1 := by
  obtain ⟨hrounds, -⟩ := h
  obtain ⟨held, count⟩ := s
  cases held with
  | none =>
    refine ⟨?_, nofun⟩
    rw [Slot.close, List.append_nil]
    exact hrounds
  | some i =>
    refine ⟨?_, nofun⟩
    rw [Slot.close, Option.map_none, Option.toList_none, List.append_nil]
    exact hrounds

theorem held_close (s : Slot) : s.close.1.held = none := by
  obtain ⟨held, count⟩ := s
  cases held <;> rfl

theorem held_keep (s : Slot) : s.keep.1.held = some (s.held.getD s.count) := by
  obtain ⟨held, count⟩ := s
  cases held <;> rfl

theorem held_replace (s : Slot) : s.replace.1.held = some s.count := by
  obtain ⟨held, count⟩ := s
  cases held <;> rfl

theorem held_keep_close (s : Slot) : s.close.1.keep.1.held = some s.count := by
  obtain ⟨held, count⟩ := s
  cases held <;> rfl

theorem InTurn.take (h : InTurn uses s) (hnone : s.held = none) :
    InTurn (uses ++ s.take.2) s.take.1 := by
  have hrounds := h.rounded
  rw [hnone, Option.map_none, Option.toList_none, List.append_nil] at hrounds
  refine ⟨?_, fun i hi => ?_⟩
  · rw [Slot.take, rounds_succ, List.append_assoc, hrounds]
    rfl
  · rw [Slot.take, Option.mem_def, Option.some.injEq] at hi
    rw [← hi]
    rfl

theorem InTurn.keep (h : InTurn uses s) : InTurn (uses ++ s.keep.2) s.keep.1 := by
  unfold Slot.keep
  split
  · rename_i hnone
    exact h.take hnone
  · rw [List.append_nil]
    exact h

theorem InTurn.replace (h : InTurn uses s) : InTurn (uses ++ s.replace.2) s.replace.1 := by
  have htaken := h.close.take (held_close s)
  rw [List.append_assoc] at htaken
  exact htaken

theorem InTurn.nodup (h : InTurn uses s) : uses.Nodup := by
  have hnodup := nodup_rounds s.count
  rw [← h.rounded] at hnodup
  exact hnodup.of_append_left

theorem InTurn.opened_iff (h : InTurn uses s) : .opened i ∈ uses ↔ i < s.count := by
  have hmem := @opened_mem_rounds s.count i
  rw [← h.rounded, List.mem_append] at hmem
  rw [← hmem]
  refine ⟨.inl, fun h => h.resolve_right fun hpending => ?_⟩
  rw [Option.mem_toList, Option.map_eq_some_iff] at hpending
  obtain ⟨j, -, hj⟩ := hpending
  cases hj

theorem InTurn.held_iff (h : InTurn uses s) :
    s.held = some i ↔ .opened i ∈ uses ∧ .closed i ∉ uses := by
  have hnodup := nodup_rounds s.count
  rw [← h.rounded] at hnodup
  refine ⟨fun hheld => ?_, fun ⟨hopened, hclosed⟩ => ?_⟩
  · refine ⟨h.opened_iff.mpr ?_, fun hclosed => ?_⟩
    · rw [← h.last i hheld]
      exact Nat.lt_succ_self i
    · rw [hheld, Option.map_some, Option.toList_some] at hnodup
      exact (List.nodup_append.mp hnodup).2.2 _ hclosed _ List.mem_cons_self rfl
  · have hmem : .closed i ∈ rounds s.count := closed_mem_rounds.mpr (h.opened_iff.mp hopened)
    rw [← h.rounded, List.mem_append] at hmem
    have hheld := hmem.resolve_left hclosed
    rw [Option.mem_toList, Option.map_eq_some_iff] at hheld
    obtain ⟨j, hj, hij⟩ := hheld
    rw [hj, Use.closed.inj hij]

end PayFi.Library.Handles
