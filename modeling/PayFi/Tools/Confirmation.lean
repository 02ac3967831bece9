import Mathlib.Data.List.Basic
import Mathlib.Tactic.Common

namespace PayFi.Tools.Confirmation

variable {ε : Type}

/-- What `getTransaction` finds. A failure comes with the text of its result, if there is one. -/
inductive Status where
  | success
  | failed (resultXdr : Option String)
  | notFound
  deriving DecidableEq

/-- What is thrown: an error with a message, or what a request was rejected with. -/
inductive Thrown (ε : Type) where
  | error (message : String)
  | rejected (err : ε)

def failedOnChain (hash : String) (resultXdr : Option String) : String :=
  "Soroban transaction failed on-chain: " ++ hash ++ " — " ++ resultXdr.getD "no XDR"

def notConfirmed (hash : String) : String :=
  "Soroban transaction not confirmed within polling window: " ++ hash

/-- The last `n` rounds of the loop, from attempt `i` on. -/
def loop (hash : String) (getTransaction : ℕ → Except ε Status) :
    ℕ → ℕ → Except (Thrown ε) String
  | 0, _ => .error (.error (notConfirmed hash))
  | n + 1, i =>
    match getTransaction i with
    | .error err => .error (.rejected err)
    | .ok .success => .ok hash
    | .ok (.failed resultXdr) => .error (.error (failedOnChain hash resultXdr))
    | .ok .notFound => loop hash getTransaction n (i + 1)

def pollForConfirmation (hash : String) (getTransaction : ℕ → Except ε Status)
    (maxAttempts : ℕ) : Except (Thrown ε) String :=
  loop hash getTransaction maxAttempts 0

def isTerminal : Except ε Status → Bool
  | .ok .success => true
  | .ok (.failed _) => true
  | _ => false

def outcome (hash : String) : Except ε Status → Option (Except (Thrown ε) String)
  | .ok .success => some (.ok hash)
  | .ok (.failed resultXdr) => some (.error (.error (failedOnChain hash resultXdr)))
  | _ => none

/-- The first terminal answer of `n` from `i` on decides, and without one the polls run out. -/
def reported (hash : String) (getTransaction : ℕ → Except ε Status) (n i : ℕ) :
    Except (Thrown ε) String :=
  ((List.range' i n).findSome? fun j => outcome hash (getTransaction j)).getD
    (.error (.error (notConfirmed hash)))

variable {hash : String} {getTransaction : ℕ → Except ε Status} {n i : ℕ}

def Undisturbed (getTransaction : ℕ → Except ε Status) (n i : ℕ) : Prop :=
  ∀ j, i ≤ j → j < i + n → (∃ err, getTransaction j = .error err) →
    ∃ k, i ≤ k ∧ k < j ∧ isTerminal (getTransaction k) = true

theorem reported_succ : reported hash getTransaction (n + 1) i =
    (outcome hash (getTransaction i)).getD (reported hash getTransaction n (i + 1)) := by
  rw [reported, reported, List.range'_succ, List.findSome?_cons]
  cases outcome hash (getTransaction i) <;> rfl

theorem reported_ne_rejected (hash : String) (getTransaction : ℕ → Except ε Status) (n i : ℕ)
    (err : ε) : reported hash getTransaction n i ≠ .error (.rejected err) := by
  induction n generalizing i with
  | zero =>
    intro h
    cases h
  | succ n ih =>
    rw [reported_succ]
    cases getTransaction i with
    | error err' => exact ih (i + 1)
    | ok status =>
      cases status with
      | notFound => exact ih (i + 1)
      | success =>
        intro h
        cases h
      | failed resultXdr =>
        intro h
        cases h

theorem undisturbed_of_terminal (h : isTerminal (getTransaction i) = true) :
    Undisturbed getTransaction n i := by
  rintro j hij - ⟨err, herr⟩
  refine ⟨i, Nat.le_refl i, Nat.lt_of_le_of_ne hij ?_, h⟩
  rintro rfl
  rw [herr] at h
  cases h

theorem not_undisturbed_of_rejected {err : ε} (h : getTransaction i = .error err) :
    ¬ Undisturbed getTransaction (n + 1) i := by
  intro hall
  obtain ⟨k, hik, hki, -⟩ := hall i (Nat.le_refl i) (by omega) ⟨err, h⟩
  omega

theorem undisturbed_succ (h : getTransaction i = .ok .notFound) :
    Undisturbed getTransaction (n + 1) i ↔ Undisturbed getTransaction n (i + 1) := by
  constructor
  · intro hall j hij hjn herr
    obtain ⟨k, hik, hkj, hterminal⟩ := hall j (by omega) (by omega) herr
    refine ⟨k, Nat.lt_of_le_of_ne hik ?_, hkj, hterminal⟩
    rintro rfl
    rw [h] at hterminal
    cases hterminal
  · intro hall j hij hjn herr
    obtain rfl | hlt := Nat.eq_or_lt_of_le hij
    · obtain ⟨err, herr⟩ := herr
      rw [h] at herr
      cases herr
    · obtain ⟨k, hik, hkj, hterminal⟩ := hall j hlt (by omega) herr
      exact ⟨k, by omega, hkj, hterminal⟩

theorem loop_iff : loop hash getTransaction n i = reported hash getTransaction n i ↔
    Undisturbed getTransaction n i := by
  induction n generalizing i with
  | zero => exact iff_of_true rfl fun j hij hji => by omega
  | succ n ih =>
    rw [loop, reported_succ]
    cases h : getTransaction i with
    | error err =>
      apply iff_of_false _ (not_undisturbed_of_rejected h)
      exact fun heq => reported_ne_rejected hash getTransaction n (i + 1) err heq.symm
    | ok status =>
      cases status with
      | notFound =>
        rw [undisturbed_succ h]
        exact ih
      | success => exact iff_of_true rfl (undisturbed_of_terminal (by rw [h]; rfl))
      | failed resultXdr => exact iff_of_true rfl (undisturbed_of_terminal (by rw [h]; rfl))

/-- Polling reports the outcome on chain, which is that of the first terminal answer, exactly if no
request is rejected before it. -/
theorem outcome_reported_iff (hash : String) (getTransaction : ℕ → Except ε Status)
    (maxAttempts : ℕ) :
    pollForConfirmation hash getTransaction maxAttempts =
        reported hash getTransaction maxAttempts 0 ↔
      ∀ j < maxAttempts, (∃ err, getTransaction j = .error err) →
        ∃ k < j, isTerminal (getTransaction k) = true := by
  rw [pollForConfirmation, loop_iff, Undisturbed]
  simp only [Nat.zero_le, true_and, forall_true_left, Nat.zero_add]

/-- One lost request between two others, of which the later one would find the success. -/
theorem success_reported_as_failure :
    let getTransaction : ℕ → Except String Status := fun i =>
      if i = 0 then .ok .notFound else if i = 1 then .error "socket hang up" else .ok .success
    reported "aa11" getTransaction 10 0 = .ok "aa11" ∧
      pollForConfirmation "aa11" getTransaction 10 = .error (.rejected "socket hang up") ∧
      pollForConfirmation "aa11" getTransaction 10 ≠ reported "aa11" getTransaction 10 0 := by
  intro getTransaction
  have hreported : reported "aa11" getTransaction 10 0 = .ok "aa11" := rfl
  have hresult : pollForConfirmation "aa11" getTransaction 10 =
      .error (.rejected "socket hang up") := rfl
  refine ⟨hreported, hresult, ?_⟩
  rw [hreported, hresult]
  intro h
  cases h

end PayFi.Tools.Confirmation
