import Mathlib.Data.List.Basic
import Mathlib.Tactic.Common

namespace PayFi.Library.Retry

variable {σ α ε : Type}

inductive Outcome (α ε : Type) where
  | done (a : α)
  | fatal (e : ε)
  | exhausted (last : Option ε)
  deriving DecidableEq

/-- Up to `n` attempts, the next one being number `k`. The loop stops at the first
success and at the first fatal error; of any other error it keeps a note. -/
def retry (fatal : ε → Bool) (note : ε → ε) (f : ℕ → σ → Except ε α × σ) :
    ℕ → ℕ → Option ε → σ → Outcome α ε × σ
  | 0, _, last, s => (.exhausted last, s)
  | n + 1, k, _, s =>
    match f k s with
    | (.ok a, s) => (.done a, s)
    | (.error e, s) =>
      if fatal e then (.fatal e, s) else retry fatal note f n (k + 1) (some (note e)) s

variable {fatal : ε → Bool} {note : ε → ε} {f : ℕ → σ → Except ε α × σ} {n k : ℕ}
  {last : Option ε} {s : σ}

theorem retry_done {a : α} {s' : σ} (h : retry fatal note f n k last s = (.done a, s')) :
    ∃ j t, f j t = (.ok a, s') := by
  induction n generalizing k last s with
  | zero => cases h
  | succ n ih =>
    rw [retry] at h
    obtain ⟨out, t, hf⟩ : ∃ out t, f k s = (out, t) := ⟨_, _, rfl⟩
    rw [hf] at h
    cases out with
    | ok b =>
      cases h
      exact ⟨k, s, hf⟩
    | error e =>
      by_cases he : fatal e = true
      · simp [he] at h
      · simp only [he] at h
        exact ih h

/-- The state after the first `n` attempts, which are numbered from 1. -/
def states (f : ℕ → σ → Except ε α × σ) (s : σ) : ℕ → σ
  | 0 => s
  | n + 1 => (f (n + 1) (states f s n)).2

/-- What the attempt after the first `n` answers. -/
def answer (f : ℕ → σ → Except ε α × σ) (s : σ) (n : ℕ) : Except ε α := (f (n + 1) (states f s n)).1

def lastAnswer (f : ℕ → σ → Except ε α × σ) (s : σ) : ℕ → Option (Except ε α)
  | 0 => none
  | n + 1 => some (answer f s n)

def GoesOn (fatal : ε → Bool) (out : Except ε α) : Prop := ∃ e, out = .error e ∧ fatal e = false

/-- Of the attempts allowed, `n` are made. -/
structure Made (fatal : ε → Bool) (f : ℕ → σ → Except ε α × σ) (s : σ) (allowed n : ℕ) : Prop where
  le : n ≤ allowed
  before : ∀ i, i + 1 < n → GoesOn fatal (answer f s i)
  last : n < allowed → ∃ i, n = i + 1 ∧ ¬GoesOn fatal (answer f s i)

def conclude (fatal : ε → Bool) (note : ε → ε) : Option (Except ε α) → Outcome α ε
  | none => .exhausted none
  | some (.ok a) => .done a
  | some (.error e) => if fatal e then .fatal e else .exhausted (some (note e))

theorem Made.unique {m : ℕ} (h : Made fatal f s n m) {m' : ℕ} (h' : Made fatal f s n m') :
    m = m' := by
  have hle : ∀ {m m' : ℕ}, Made fatal f s n m → Made fatal f s n m' → m ≤ m' := by
    intro m m' h h'
    by_contra hlt
    obtain ⟨i, rfl, hends⟩ := h'.last (by have := h.le; omega)
    exact hends (h.before i (by omega))
  exact Nat.le_antisymm (hle h h') (hle h' h)

theorem retry_from {j : ℕ} (hbefore : ∀ i < j, GoesOn fatal (answer f s i))
    (hlast : conclude fatal note (lastAnswer f s j) = .exhausted last) :
    ∃ m, Made fatal f s (j + n) m ∧ retry fatal note f n (j + 1) last (states f s j) =
      (conclude fatal note (lastAnswer f s m), states f s m) := by
  induction n generalizing j last with
  | zero =>
    refine ⟨j, ⟨Nat.le_refl _, fun i hi => hbefore i (by omega), fun hlt => ?_⟩, ?_⟩
    · exact absurd hlt (Nat.lt_irrefl _)
    · rw [hlast]
      rfl
  | succ n ih =>
    have hf : f (j + 1) (states f s j) = (answer f s j, states f s (j + 1)) := rfl
    have hmade : ¬GoesOn fatal (answer f s j) → Made fatal f s (j + (n + 1)) (j + 1) := fun hends =>
      ⟨by omega, fun i hi => hbefore i (by omega), fun _ => ⟨j, rfl, hends⟩⟩
    rw [retry, hf]
    cases hanswer : answer f s j with
    | ok a =>
      refine ⟨j + 1, hmade (by rintro ⟨e, he, -⟩; rw [hanswer] at he; cases he), ?_⟩
      simp only [lastAnswer, hanswer, conclude]
    | error e =>
      cases hfatal : fatal e with
      | true =>
        refine ⟨j + 1, hmade ?_, ?_⟩
        · rintro ⟨e', he, hnot⟩
          rw [hanswer] at he
          cases he
          rw [hfatal] at hnot
          cases hnot
        · simp only [lastAnswer, hanswer, conclude, hfatal, if_true]
      | false =>
        have hnext : conclude fatal note (lastAnswer f s (j + 1)) = .exhausted (some (note e)) := by
          simp only [lastAnswer, hanswer, conclude, hfatal, Bool.false_eq_true, if_false]
        obtain ⟨m, hm, hretry⟩ := ih (j := j + 1) (fun i hi => by
          obtain hlt | rfl := Nat.lt_succ_iff_lt_or_eq.mp hi
          · exact hbefore i hlt
          · exact ⟨e, hanswer, hfatal⟩) hnext
        rw [Nat.succ_add_eq_add_succ] at hm
        refine ⟨m, hm, ?_⟩
        simpa only [hfatal, Bool.false_eq_true, if_false] using hretry

theorem retry_spec (fatal : ε → Bool) (note : ε → ε) (f : ℕ → σ → Except ε α × σ) (n : ℕ)
    (s : σ) : ∃ m, Made fatal f s n m ∧ retry fatal note f n 1 none s =
      (conclude fatal note (lastAnswer f s m), states f s m) := by
  have h : ∃ m, Made fatal f s (0 + n) m ∧ retry fatal note f n 1 none s =
      (conclude fatal note (lastAnswer f s m), states f s m) :=
    retry_from (fun i hi => absurd hi (Nat.not_lt_zero i)) rfl
  rwa [Nat.zero_add] at h

end PayFi.Library.Retry
