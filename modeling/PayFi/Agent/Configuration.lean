import PayFi.Agent.Secrets

namespace PayFi.Agent.Configuration

open Library.Words
open Redaction (HasKey keys)
open Secrets (redactKeys)

variable {Number : Type} (numberText : Number → String)

/-- An element of a path; a number is shown by `numberText`. -/
inductive PathElement (Number : Type) where
  | name (s : String)
  | number (n : Number)

structure Issue (Number : Type) where
  path : List (PathElement Number)
  message : String

/-- `String(p)`. -/
def PathElement.text : PathElement Number → String
  | .name s => s
  | .number n => numberText n

/-- `texts.join('.') || other`. -/
def joinOr (texts : List String) (other : String) : String :=
  if ".".intercalate texts = "" then other else ".".intercalate texts

def rawField (issue : Issue Number) : String :=
  joinOr (issue.path.map (PathElement.text numberText)) "unknown"

def field (issue : Issue Number) : String :=
  joinOr (issue.path.map fun p => redactKeys (p.text numberText)) (rawField numberText issue)

def formatIssue (issue : Issue Number) : String :=
  "  • " ++ field numberText issue ++ ": " ++ redactKeys issue.message

def formatValidationErrors (issues : List (Issue Number)) : String :=
  "\n".intercalate (issues.map (formatIssue numberText))

variable {numberText} {b : Char} {issue : Issue Number}

theorem hasKey_join (hb : keys.within b = false) (texts : List String) :
    HasKey ((String.singleton b).intercalate texts).toList ↔
      ∃ text ∈ texts, HasKey text.toList := by
  rw [String.toList_intercalate, String.toList_singleton]
  refine (occurs_intercalate hb _).trans ⟨?_, ?_⟩
  · rintro ⟨cs, hcs, hkey⟩
    obtain ⟨text, htext, rfl⟩ := List.mem_map.mp hcs
    exact ⟨text, htext, hkey⟩
  · rintro ⟨text, htext, hkey⟩
    exact ⟨text.toList, List.mem_map_of_mem htext, hkey⟩

theorem join_eq_empty {texts : List String} :
    (String.singleton b).intercalate texts = "" ↔ texts = [] ∨ texts = [""] := by
  rw [← String.toList_inj, String.toList_intercalate, String.toList_singleton]
  cases texts with
  | nil => simp
  | cons text texts =>
    cases texts with
    | nil => simp
    | cons text' texts => simp [List.intercalate_cons_cons]

theorem join_redactKeys_eq_empty (texts : List String) :
    (String.singleton b).intercalate (texts.map redactKeys) = "" ↔
      (String.singleton b).intercalate texts = "" := by
  rw [join_eq_empty, join_eq_empty, List.map_eq_nil_iff]
  apply or_congr_right
  cases texts with
  | nil => simp
  | cons text texts => simp [Secrets.redactKeys_eq_empty]

theorem field_cases (issue : Issue Number) :
    field numberText issue = ".".intercalate
        ((issue.path.map (PathElement.text numberText)).map redactKeys) ∨
      field numberText issue = "unknown" := by
  have hmap : (issue.path.map fun p => redactKeys (p.text numberText)) =
      (issue.path.map (PathElement.text numberText)).map redactKeys := by
    rw [List.map_map]
    rfl
  rw [field, joinOr, hmap]
  split
  · rename_i hempty
    have hraw := (join_redactKeys_eq_empty (b := '.') _).mp hempty
    exact .inr (if_pos hraw)
  · exact .inl rfl

theorem not_hasKey_field (issue : Issue Number) : ¬HasKey (field numberText issue).toList := by
  obtain hjoined | hunknown := field_cases issue
  · rw [hjoined]
    intro hkey
    obtain ⟨text, htext, hkey⟩ := (hasKey_join (b := '.') (by decide) _).mp hkey
    obtain ⟨raw, -, rfl⟩ := List.mem_map.mp htext
    exact Secrets.not_hasKey_redactKeys raw hkey
  · rw [hunknown]
    exact not_occurs_of_starts (V := keys) (eq_false_of_any (by decide))

theorem not_hasKey_formatIssue (issue : Issue Number) :
    ¬HasKey (formatIssue numberText issue).toList := by
  have htext : (formatIssue numberText issue).toList = "  • ".toList ++
      ((field numberText issue).toList ++ ':' :: ([' '] ++ (redactKeys issue.message).toList)) := by
    simp [formatIssue]
  rw [htext]
  intro hkey
  have hkey := (occurs_append (V := keys) (eq_false_of_any (by decide))).mp hkey
  obtain hfield | hmessage := (occurs_separated (by decide)).mp hkey
  · exact not_hasKey_field issue hfield
  · have hmessage := (occurs_append (eq_false_of_any (by decide))).mp hmessage
    exact Secrets.not_hasKey_redactKeys issue.message hmessage

/-- No key is shown, wherever in the paths and the messages the keys stand. -/
theorem formatValidationErrors_without_key (numberText : Number → String)
    (issues : List (Issue Number)) :
    ¬HasKey (formatValidationErrors numberText issues).toList := by
  intro hkey
  obtain ⟨line, hline, hkey⟩ := (hasKey_join (b := '\n') (by decide) _).mp hkey
  obtain ⟨issue, -, rfl⟩ := List.mem_map.mp hline
  exact not_hasKey_formatIssue issue hkey

end PayFi.Agent.Configuration
