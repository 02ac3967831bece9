import Mathlib.Data.List.Basic
import Mathlib.Tactic.Common

namespace PayFi.Library.Regex

variable {Out : Type}

/-- Patterns without alternatives, whose repetitions are of single characters. `few` is the
lazy repetition `*?`, `many` the greedy `*`. -/
inductive Pattern where
  | one (p : Char → Bool)
  | opt (p : Char → Bool)
  | few (p : Char → Bool)
  | many (p : Char → Bool)
  | times (n : ℕ) (p : Char → Bool)
  | seq (r s : Pattern)

abbrev Continuation (Out : Type) : Type := List Char → List Char → Option Out

def execOne (p : Char → Bool) (cs : List Char) (k : Continuation Out) : Option Out :=
  match cs with
  | [] => none
  | c :: cs => if p c then k [c] cs else none

def execFew (p : Char → Bool) : List Char → Continuation Out → Option Out
  | [], k => k [] []
  | c :: cs, k =>
    (k [] (c :: cs)).or (if p c then execFew p cs fun a rest => k (c :: a) rest else none)

def execMany (p : Char → Bool) : List Char → Continuation Out → Option Out
  | [], k => k [] []
  | c :: cs, k =>
    (if p c then execMany p cs fun a rest => k (c :: a) rest else none).or (k [] (c :: cs))

def execTimes (p : Char → Bool) : ℕ → List Char → Continuation Out → Option Out
  | 0, cs, k => k [] cs
  | _ + 1, [], _ => none
  | n + 1, c :: cs, k => if p c then execTimes p n cs fun a rest => k (c :: a) rest else none

/-- Matching with backtracking: the first way in which the pattern consumes a part of the
text such that the rest matches. -/
def exec : Pattern → List Char → Continuation Out → Option Out
  | .one p, cs, k => execOne p cs k
  | .opt p, cs, k => (execOne p cs k).or (k [] cs)
  | .few p, cs, k => execFew p cs k
  | .many p, cs, k => execMany p cs k
  | .times n p, cs, k => execTimes p n cs k
  | .seq r s, cs, k => exec r cs fun a rest => exec s rest fun b rest' => k (a ++ b) rest'

def Accepts : Pattern → List Char → Prop
  | .one p, a => ∃ c, a = [c] ∧ p c = true
  | .opt p, a => a = [] ∨ ∃ c, a = [c] ∧ p c = true
  | .few p, a => ∀ c ∈ a, p c = true
  | .many p, a => ∀ c ∈ a, p c = true
  | .times n p, a => a.length = n ∧ ∀ c ∈ a, p c = true
  | .seq r s, a => ∃ x y, a = x ++ y ∧ Accepts r x ∧ Accepts s y

/-- The ways to consume a text that leave `k` nothing: a pattern fails on these. -/
def Fails (P : List Char → Prop) (cs : List Char) (k : Continuation Out) : Prop :=
  ∀ a rest, cs = a ++ rest → P a → k a rest = none

/-- One of the ways to consume a text with the outcome `b`. -/
def Yields (P : List Char → Prop) (cs : List Char) (k : Continuation Out) (b : Out) : Prop :=
  ∃ a rest, cs = a ++ rest ∧ P a ∧ k a rest = some b

variable {p : Char → Bool} {cs : List Char} {k : Continuation Out} {b : Out} {r : Pattern}

theorem execOne_none : execOne p cs k = none ↔ Fails (fun a => ∃ c, a = [c] ∧ p c = true) cs k := by
  cases cs with
  | nil => simp [execOne, Fails]
  | cons c cs =>
    constructor
    · rintro h a rest hcs ⟨c', rfl, hp⟩
      obtain ⟨rfl, rfl⟩ := List.cons.inj hcs
      rwa [execOne, if_pos hp] at h
    · intro h
      by_cases hp : p c = true
      · rw [execOne, if_pos hp]
        exact h [c] cs rfl ⟨c, rfl, hp⟩
      · rw [execOne, if_neg hp]

theorem execOne_some (h : execOne p cs k = some b) :
    Yields (fun a => ∃ c, a = [c] ∧ p c = true) cs k b := by
  cases cs with
  | nil => cases h
  | cons c cs =>
    by_cases hp : p c = true
    · rw [execOne, if_pos hp] at h
      exact ⟨[c], cs, rfl, ⟨c, rfl, hp⟩, h⟩
    · rw [execOne, if_neg hp] at h
      cases h

theorem fails_repeat {c : Char} {cs : List Char} :
    Fails (fun a => ∀ c ∈ a, p c = true) (c :: cs) k ↔ k [] (c :: cs) = none ∧
      (p c = true → Fails (fun a => ∀ c ∈ a, p c = true) cs fun a rest => k (c :: a) rest) := by
  constructor
  · intro h
    refine ⟨h [] _ rfl (List.forall_mem_nil _), fun hp a rest hcs ha => ?_⟩
    exact h (c :: a) rest (congrArg (c :: ·) hcs) (List.forall_mem_cons.mpr ⟨hp, ha⟩)
  · rintro ⟨hnil, hcons⟩ a rest hcs ha
    cases a with
    | nil =>
      cases hcs
      exact hnil
    | cons c' a =>
      obtain ⟨rfl, rfl⟩ := List.cons.inj hcs
      obtain ⟨hp, ha⟩ := List.forall_mem_cons.mp ha
      exact hcons hp a rest rfl ha

theorem execFew_none : execFew p cs k = none ↔ Fails (fun a => ∀ c ∈ a, p c = true) cs k := by
  induction cs generalizing k with
  | nil => simp [execFew, Fails]
  | cons c cs ih =>
    rw [execFew, Option.or_eq_none_iff, fails_repeat]
    by_cases hp : p c = true
    · rw [if_pos hp, ih]
      simp [hp]
    · simp [hp]

theorem execMany_none : execMany p cs k = none ↔ Fails (fun a => ∀ c ∈ a, p c = true) cs k := by
  induction cs generalizing k with
  | nil => simp [execMany, Fails]
  | cons c cs ih =>
    rw [execMany, Option.or_eq_none_iff, fails_repeat, and_comm]
    by_cases hp : p c = true
    · rw [if_pos hp, ih]
      simp [hp]
    · simp [hp]

theorem execFew_some (h : execFew p cs k = some b) :
    ∃ a rest, cs = a ++ rest ∧ (∀ c ∈ a, p c = true) ∧ k a rest = some b ∧
      ∀ a' rest', cs = a' ++ rest' → a'.length < a.length → k a' rest' = none := by
  induction cs generalizing k with
  | nil => exact ⟨[], [], rfl, List.forall_mem_nil _, h, fun _ _ _ hlt => by simp at hlt⟩
  | cons c cs ih =>
    rw [execFew] at h
    cases hk : k [] (c :: cs) with
    | some b' =>
      rw [hk, Option.some_or] at h
      exact ⟨[], _, rfl, List.forall_mem_nil _, hk.trans h, fun _ _ _ hlt => by simp at hlt⟩
    | none =>
      rw [hk, Option.none_or] at h
      by_cases hp : p c = true
      · rw [if_pos hp] at h
        obtain ⟨a, rest, hcs, ha, hb, hfirst⟩ := ih h
        refine ⟨c :: a, rest, congrArg (c :: ·) hcs, List.forall_mem_cons.mpr ⟨hp, ha⟩, hb, ?_⟩
        intro a' rest' hcs' hlt
        cases a' with
        | nil =>
          cases hcs'
          exact hk
        | cons c' a' =>
          obtain ⟨rfl, htail⟩ := List.cons.inj hcs'
          exact hfirst a' rest' htail (Nat.lt_of_succ_lt_succ hlt)
      · rw [if_neg hp] at h
        cases h

theorem execMany_some (h : execMany p cs k = some b) :
    Yields (fun a => ∀ c ∈ a, p c = true) cs k b := by
  induction cs generalizing k with
  | nil => exact ⟨[], [], rfl, List.forall_mem_nil _, h⟩
  | cons c cs ih =>
    rw [execMany, Option.or_eq_some_iff] at h
    obtain h | ⟨-, h⟩ := h
    · by_cases hp : p c = true
      · rw [if_pos hp] at h
        obtain ⟨a, rest, hcs, ha, hb⟩ := ih h
        exact ⟨c :: a, rest, congrArg (c :: ·) hcs, List.forall_mem_cons.mpr ⟨hp, ha⟩, hb⟩
      · rw [if_neg hp] at h
        cases h
    · exact ⟨[], _, rfl, List.forall_mem_nil _, h⟩

theorem execTimes_none {n : ℕ} : execTimes p n cs k = none ↔
    Fails (fun a => a.length = n ∧ ∀ c ∈ a, p c = true) cs k := by
  induction n generalizing cs k with
  | zero =>
    rw [execTimes]
    constructor
    · rintro h a rest hcs ⟨hlen, -⟩
      rw [List.length_eq_zero_iff] at hlen
      subst hlen
      cases hcs
      exact h
    · intro h
      exact h [] cs rfl ⟨rfl, List.forall_mem_nil _⟩
  | succ n ih =>
    cases cs with
    | nil =>
      refine iff_of_true rfl fun a rest hcs ha => ?_
      rw [(List.append_eq_nil_iff.mp hcs.symm).1] at ha
      exact absurd ha.1 (Nat.succ_ne_zero n).symm
    | cons c cs =>
      rw [execTimes]
      constructor
      · rintro h a rest hcs ⟨hlen, ha⟩
        cases a with
        | nil => exact absurd hlen (Nat.succ_ne_zero n).symm
        | cons c' a =>
          obtain ⟨rfl, htail⟩ := List.cons.inj hcs
          obtain ⟨hp, ha⟩ := List.forall_mem_cons.mp ha
          rw [if_pos hp] at h
          exact ih.mp h a rest htail ⟨Nat.succ.inj hlen, ha⟩
      · intro h
        by_cases hp : p c = true
        · rw [if_pos hp]
          refine ih.mpr fun a rest hcs ha => h (c :: a) rest (congrArg (c :: ·) hcs) ?_
          exact ⟨congrArg Nat.succ ha.1, List.forall_mem_cons.mpr ⟨hp, ha.2⟩⟩
        · exact if_neg hp

theorem execTimes_some {n : ℕ} (h : execTimes p n cs k = some b) :
    Yields (fun a => a.length = n ∧ ∀ c ∈ a, p c = true) cs k b := by
  induction n generalizing cs k with
  | zero => exact ⟨[], cs, rfl, ⟨rfl, List.forall_mem_nil _⟩, h⟩
  | succ n ih =>
    cases cs with
    | nil => cases h
    | cons c cs =>
      rw [execTimes] at h
      by_cases hp : p c = true
      · rw [if_pos hp] at h
        obtain ⟨a, rest, hcs, ha, hb⟩ := ih h
        exact ⟨c :: a, rest, congrArg (c :: ·) hcs,
          ⟨congrArg Nat.succ ha.1, List.forall_mem_cons.mpr ⟨hp, ha.2⟩⟩, hb⟩
      · rw [if_neg hp] at h
        cases h

theorem exec_none : exec r cs k = none ↔ Fails (Accepts r) cs k := by
  induction r generalizing cs k with
  | one p => exact execOne_none
  | few p => exact execFew_none
  | many p => exact execMany_none
  | times n p => exact execTimes_none
  | opt p =>
    rw [exec, Option.or_eq_none_iff, execOne_none]
    constructor
    · rintro ⟨hone, hnil⟩ a rest hcs (rfl | ha)
      · cases hcs
        exact hnil
      · exact hone a rest hcs ha
    · intro h
      exact ⟨fun a rest hcs ha => h a rest hcs (.inr ha), h [] cs rfl (.inl rfl)⟩
  | seq r s ihr ihs =>
    rw [exec, ihr]
    constructor
    · rintro h a rest rfl ⟨x, y, rfl, hx, hy⟩
      exact ihs.mp (h x (y ++ rest) (List.append_assoc ..) hx) y rest rfl hy
    · rintro h x rest rfl hx
      refine ihs.mpr fun y rest' hrest hy => ?_
      subst hrest
      exact h (x ++ y) rest' (List.append_assoc ..).symm ⟨x, y, rfl, hx, hy⟩

theorem exec_some (h : exec r cs k = some b) : Yields (Accepts r) cs k b := by
  induction r generalizing cs k with
  | one p => exact execOne_some h
  | few p =>
    obtain ⟨a, rest, hcs, ha, hb, -⟩ := execFew_some h
    exact ⟨a, rest, hcs, ha, hb⟩
  | many p => exact execMany_some h
  | times n p => exact execTimes_some h
  | opt p =>
    rw [exec, Option.or_eq_some_iff] at h
    obtain h | ⟨-, h⟩ := h
    · obtain ⟨a, rest, hcs, ha, hb⟩ := execOne_some h
      exact ⟨a, rest, hcs, .inr ha, hb⟩
    · exact ⟨[], cs, rfl, .inl rfl, h⟩
  | seq r s ihr ihs =>
    rw [exec] at h
    obtain ⟨x, rest, rfl, hx, h⟩ := ihr h
    obtain ⟨y, rest', rfl, hy, hb⟩ := ihs h
    exact ⟨x ++ y, rest', (List.append_assoc ..).symm, ⟨x, y, rfl, hx, hy⟩, hb⟩

end PayFi.Library.Regex
