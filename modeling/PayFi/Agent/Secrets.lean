import PayFi.Agent.Redaction
import PayFi.Library.JsonWords

namespace PayFi.Agent.Secrets

open Library.Regex Library.Words Library.JsonTokens Library.JsonWords
open Redaction (HasKey isKeyChar keys)

/-- The pattern `S[A-Z2-7]{55}`. -/
def secretKey : Pattern := .seq (.one (· = 'S')) (.times 55 isKeyChar)

/-- `value.replace(/S[A-Z2-7]{55}/g, '[REDACTED]')`. -/
def redactKeys (value : String) : String :=
  String.ofList (replaceAll secretKey "[REDACTED]".toList value.toList)

theorem inert_redacted : Inert keys "[REDACTED]".toList where
  front := ⟨'[', "REDACTED]".toList, rfl, by decide⟩
  starts := eq_false_of_any (by decide)

theorem not_hasKey_redactKeys (value : String) : ¬HasKey (redactKeys value).toList := by
  rw [redactKeys, String.toList_ofList]
  exact not_occurs_replaceAll (V := keys) (fun _ => Iff.rfl) inert_redacted value.toList

theorem redactKeys_eq_empty {value : String} : redactKeys value = "" ↔ value = "" := by
  rw [← String.toList_inj, ← String.toList_inj, redactKeys, String.toList_ofList]
  exact replaceAll_eq_nil (List.cons_ne_nil _ _)

theorem printable_of_isKeyChar {c : Char} (h : isKeyChar c = true) : 32 ≤ c.toNat := by
  rw [isKeyChar, Bool.or_eq_true, Bool.and_eq_true, decide_eq_true_eq, decide_eq_true_eq] at h
  obtain hupper | ⟨hdigit, -⟩ := h
  · have hle : 'A'.toNat ≤ c.toNat := (of_decide_eq_true hupper).1
    exact le_trans (by decide) hle
  · have hle : '2'.toNat ≤ c.toNat := hdigit
    exact le_trans (by decide) hle

theorem foreign_keys : Foreign keys where
  marks := eq_false_of_any (by decide)
  printable := fun c hc => printable_of_isKeyChar hc
  starts := by
    intro c hc
    apply decide_eq_false
    rintro rfl
    obtain hmark | hnumber | hlower := hc
    · exact absurd hmark (by decide)
    · exact absurd hnumber (by decide)
    · exact absurd hlower (by decide)

end PayFi.Agent.Secrets
