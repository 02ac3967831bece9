import Mathlib.Tactic.Common
import Mathlib.Tactic.NormNum

namespace PayFi.Library.Integers

/-- Signed integers of 128 bits. -/
abbrev I128 := {x : ℤ // -2 ^ 127 ≤ x ∧ x < 2 ^ 127}

def I128.MAX : I128 := ⟨2 ^ 127 - 1, by norm_num⟩

def I128.ofNat (n : ℕ) (h : n < 2 ^ 127) : I128 := ⟨n, by constructor <;> norm_cast; omega⟩

def I128.checkedSub (a b : I128) : Option I128 :=
  if h : -2 ^ 127 ≤ (a : ℤ) - b ∧ (a : ℤ) - b < 2 ^ 127 then some ⟨a - b, h⟩ else none

def checkedAdd (a b : UInt64) : Option UInt64 :=
  if b.toNat + a.toNat < 2 ^ 64 then some (a + b) else none

theorem checkedSub_eq_some {a b c : I128} : a.checkedSub b = some c ↔ (c : ℤ) = a - b := by
  unfold I128.checkedSub
  split
  · simp [Subtype.ext_iff, eq_comm]
  · rename_i h
    constructor
    · simp
    · intro hc
      exact absurd (hc ▸ c.2) h

theorem checkedAdd_eq_some {a b c : UInt64} :
    checkedAdd a b = some c ↔ c.toNat = a.toNat + b.toNat := by
  unfold checkedAdd
  split
  · rename_i h
    rw [Option.some_inj, ← UInt64.toNat_inj, UInt64.toNat_add, Nat.add_comm, Nat.mod_eq_of_lt h,
      Nat.add_comm, eq_comm]
  · rename_i h
    constructor
    · simp
    · intro hc
      have hlt := c.toNat_lt
      omega

end PayFi.Library.Integers
