import Mathlib.Data.Finset.Card
import Mathlib.Data.Finset.Dedup
import Mathlib.Tactic.Common

namespace PayFi.Library.Signatures

variable {Key Message Signature : Type} [DecidableEq Key]
  {verify : Key → Message → Signature → Bool} {group : List Key} {m : Message}
  {signatures : List Signature}

/-- Each member counts once, however often it has signed and however often it is listed. -/
def signatories (verify : Key → Message → Signature → Bool) (group : List Key) (m : Message)
    (signatures : List Signature) : Finset Key :=
  group.toFinset.filter fun k => signatures.any (verify k m)

theorem mem_signatories {k : Key} : k ∈ signatories verify group m signatures ↔
    k ∈ group ∧ ∃ s ∈ signatures, verify k m s = true := by
  rw [signatories, Finset.mem_filter, List.mem_toFinset, List.any_eq_true]

theorem signatories_cons {own : Key} {s : Signature}
    (hown : ∀ k, verify k m s = true ↔ k = own) :
    signatories verify (own :: group) m (s :: signatures) =
      insert own (signatories verify (group.filter (· ≠ own)) m signatures) := by
  ext k
  rw [Finset.mem_insert, mem_signatories, mem_signatories]
  simp only [List.mem_cons, exists_eq_or_imp, hown, List.mem_filter, decide_eq_true_eq]
  by_cases hk : k = own
  · simp [hk]
  · simp [hk]

theorem card_signatories_cons {own : Key} {s : Signature}
    (hown : ∀ k, verify k m s = true ↔ k = own) :
    (signatories verify (own :: group) m (s :: signatures)).card =
      (signatories verify (group.filter (· ≠ own)) m signatures).card + 1 := by
  rw [signatories_cons hown, Finset.card_insert_of_notMem]
  intro h
  have hmem := (mem_signatories.mp h).1
  simp at hmem

theorem le_card_signatories_iff {n : ℕ} : n ≤ (signatories verify group m signatures).card ↔
    ∃ ks : List Key, ks.Nodup ∧ n ≤ ks.length ∧
      ∀ k ∈ ks, k ∈ group ∧ ∃ s ∈ signatures, verify k m s = true := by
  constructor
  · intro h
    refine ⟨(signatories verify group m signatures).toList, Finset.nodup_toList _, ?_, ?_⟩
    · rwa [Finset.length_toList]
    · intro k hk
      exact mem_signatories.mp (Finset.mem_toList.mp hk)
  · rintro ⟨ks, hnodup, hn, hks⟩
    rw [← List.toFinset_card_of_nodup hnodup] at hn
    refine hn.trans (Finset.card_le_card fun k hk => ?_)
    exact mem_signatories.mpr (hks k (List.mem_toFinset.mp hk))

end PayFi.Library.Signatures
