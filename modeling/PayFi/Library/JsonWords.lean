import PayFi.Library.JsonText
import PayFi.Library.Words

namespace PayFi.Library.JsonWords

open JsonTokens JsonText Words

def marks : List Char := ['"', '\\', '[', ']', '\x7b', '\x7d', ',', ':']

/-- Words that have no mark of a document within them, and do not start as its names, numbers
and escapes do. -/
structure Foreign (V : Vocabulary Char) : Prop where
  marks : ∀ c ∈ marks, V.within c = false
  printable : ∀ c, V.within c = true → 32 ≤ c.toNat
  starts : ∀ c, c ∈ JsonWords.marks ∨ isNumberChar c = true ∨ c.isLower = true → V.starts c = false

mutual

def texts : Json → List String
  | .string s => [s]
  | .array vs => textsOfAll vs
  | .object entries => textsOfEntries entries
  | _ => []

def textsOfAll : List Json → List String
  | [] => []
  | v :: vs => texts v ++ textsOfAll vs

def textsOfEntries : List (String × Json) → List String
  | [] => []
  | (key, v) :: entries => key :: (texts v ++ textsOfEntries entries)

end

def Among (V : Vocabulary Char) (ss : List String) : Prop := ∃ s ∈ ss, V.Occurs s.toList

variable {V : Vocabulary Char} {cs : List Char} {c : Char} {ss ts : List String} {s : String}

theorem among_nil : ¬Among V [] := by
  rintro ⟨s, hs, -⟩
  exact List.not_mem_nil hs

theorem among_cons : Among V (s :: ss) ↔ V.Occurs s.toList ∨ Among V ss := by
  simp only [Among, List.mem_cons, exists_eq_or_imp]

theorem among_singleton : Among V [s] ↔ V.Occurs s.toList :=
  among_cons.trans (or_iff_left among_nil)

theorem among_append : Among V (ss ++ ts) ↔ Among V ss ∨ Among V ts := by
  simp only [Among, List.mem_append, or_and_right, exists_or]

theorem among_entries {entries : List (String × Json)} : Among V (textsOfEntries entries) ↔
    ∃ e ∈ entries, V.Occurs e.1.toList ∨ Among V (texts e.2) := by
  induction entries with
  | nil => exact iff_of_false among_nil (by simp)
  | cons e entries ih =>
    rw [textsOfEntries, among_cons, among_append, ih, ← or_assoc]
    simp only [List.mem_cons, exists_eq_or_imp]

theorem digitChar_plain (n : ℕ) :
    isNumberChar (n % 16).digitChar = true ∨ (n % 16).digitChar.isLower = true := by
  have hall : ∀ m : Fin 16, isNumberChar m.val.digitChar = true ∨
      m.val.digitChar.isLower = true := by decide
  exact hall ⟨n % 16, Nat.mod_lt n (by decide)⟩

theorem inert_escape (h : Foreign V)
    (hcs : ∀ c ∈ cs, c ∈ marks ∨ isNumberChar c = true ∨ c.isLower = true) :
    Inert V ('\\' :: cs) where
  front := ⟨'\\', cs, rfl, h.marks _ (by decide)⟩
  starts := fun c hc => h.starts c ((List.mem_cons.mp hc).elim
    (fun hbackslash => .inl (by rw [hbackslash]; decide)) (hcs c))

theorem inert_letter (h : Foreign V) (hc : c ∈ marks ∨ c.isLower = true) :
    Inert V ['\\', c] :=
  inert_escape h (List.forall_mem_singleton.mpr (hc.imp_right .inr))

theorem within_of_control (h : Foreign V) (hc : c.toNat < 32) : V.within c = false := by
  by_contra hwithin
  have hle := h.printable c (Bool.not_eq_false _ ▸ hwithin)
  omega

theorem inert_hex (h : Foreign V) (n : ℕ) : Inert V (['\\', 'u', '0', '0'] ++ hexDigits n) := by
  change Inert V ('\\' :: 'u' :: '0' :: '0' :: hexDigits n)
  apply inert_escape h
  intro d hd
  simp only [hexDigits, List.mem_cons, List.not_mem_nil, or_false] at hd
  rcases hd with rfl | rfl | rfl | rfl | rfl
  · exact .inr (.inr (by decide))
  · exact .inr (.inl (by decide))
  · exact .inr (.inl (by decide))
  · exact .inr (digitChar_plain (n / 16))
  · exact .inr (digitChar_plain n)

theorem inert_control (h : Foreign V) (hc : c.toNat < 32) : Inert V (quoteChar c) := by
  unfold quoteChar
  split_ifs
  · exact inert_letter h (.inl (by decide))
  · exact inert_letter h (.inl (by decide))
  · exact inert_letter h (.inr (by decide))
  · exact inert_letter h (.inr (by decide))
  · exact inert_letter h (.inr (by decide))
  · exact inert_letter h (.inr (by decide))
  · exact inert_letter h (.inr (by decide))
  · exact inert_hex h c.toNat

theorem quoteChar_plain (hcontrol : ¬c.toNat < 32) (hquote : c ≠ '"') (hbackslash : c ≠ '\\') :
    quoteChar c = [c] := by
  have hne : ∀ d : Char, d.toNat < 32 → c ≠ d := fun d hd hcd => hcontrol (hcd ▸ hd)
  rw [quoteChar, if_neg hquote, if_neg hbackslash, if_neg (hne _ (by decide)),
    if_neg (hne _ (by decide)), if_neg (hne _ (by decide)), if_neg (hne _ (by decide)),
    if_neg (hne _ (by decide)), if_neg hcontrol]

theorem quoteChar_cases (h : Foreign V) (c : Char) :
    quoteChar c = [c] ∨ V.within c = false ∧ Inert V (quoteChar c) := by
  by_cases hcontrol : c.toNat < 32
  · exact .inr ⟨within_of_control h hcontrol, inert_control h hcontrol⟩
  by_cases hquote : c = '"'
  · rw [hquote]
    exact .inr ⟨h.marks _ (by decide), inert_letter h (.inl (by decide))⟩
  by_cases hbackslash : c = '\\'
  · rw [hbackslash]
    exact .inr ⟨h.marks _ (by decide), inert_letter h (.inl (by decide))⟩
  exact .inl (quoteChar_plain hcontrol hquote hbackslash)

theorem escaped_pass (h : Foreign V) (cs : List Char) :
    Pass V (fun _ => True) cs (cs.flatMap quoteChar) := by
  induction cs with
  | nil => exact .nil
  | cons c cs ih =>
    rw [List.flatMap_cons]
    obtain hkeep | ⟨-, hblock⟩ := quoteChar_cases h c
    · rw [hkeep]
      exact .keep trivial ih
    · exact .put [c] hblock ih

theorem escaped_within (h : Foreign V) (hcs : ∀ c ∈ cs, V.within c = true) :
    cs.flatMap quoteChar = cs := by
  induction cs with
  | nil => rfl
  | cons c cs ih =>
    obtain ⟨hc, hcs⟩ := List.forall_mem_cons.mp hcs
    rw [List.flatMap_cons, ih hcs]
    obtain hkeep | ⟨hnot, -⟩ := quoteChar_cases h c
    · rw [hkeep]
      rfl
    · rw [hc] at hnot
      cases hnot

theorem occurs_escaped (h : Foreign V) : V.Occurs (cs.flatMap quoteChar) ↔ V.Occurs cs := by
  constructor
  · rintro ⟨w, hw, hword⟩
    obtain ⟨t, ht, -, hwt⟩ := (escaped_pass h cs).word hw hword
    exact ⟨w, hwt.isInfix.trans ht.isInfix, hword⟩
  · rintro ⟨w, ⟨s, t, rfl⟩, hword⟩
    refine ⟨w, ⟨s.flatMap quoteChar, t.flatMap quoteChar, ?_⟩, hword⟩
    rw [List.flatMap_append, List.flatMap_append, escaped_within h (V.inner w hword)]

theorem occurs_quote (h : Foreign V) : V.Occurs (quote cs) ↔ V.Occurs cs := by
  have hquote : V.within '"' = false := h.marks _ (by decide)
  rw [quote, occurs_enclosed hquote hquote, occurs_escaped h]

theorem not_occurs_plain (h : Foreign V)
    (hcs : ∀ c ∈ cs, isNumberChar c = true ∨ c.isLower = true) : ¬V.Occurs cs :=
  not_occurs_of_starts fun c hc => h.starts c (.inr (hcs c hc))

theorem not_occurs_name (h : Foreign V) {name : List Char} (hname : name.all Char.isLower = true) :
    ¬V.Occurs name :=
  not_occurs_plain h fun c hc => .inr (List.all_eq_true.mp hname c hc)

theorem occurs_member (h : Foreign V) (key : String) (ds : List Char) :
    V.Occurs (quote key.toList ++ ':' :: ds) ↔ V.Occurs key.toList ∨ V.Occurs ds := by
  rw [occurs_separated (h.marks _ (by decide)), occurs_quote h]

mutual

theorem occurs_print (h : Foreign V) : ∀ v : Json, V.Occurs (print v) ↔ Among V (texts v)
  | .null => iff_of_false (not_occurs_name h (by decide)) among_nil
  | .boolean true => iff_of_false (not_occurs_name h (by decide)) among_nil
  | .boolean false => iff_of_false (not_occurs_name h (by decide)) among_nil
  | .number n =>
    iff_of_false (not_occurs_plain h fun c hc => .inl (isNumberChar_of_mem n.valid c hc)) among_nil
  | .string s => by
    rw [print, occurs_quote h, texts, among_singleton]
  | .array vs => by
    rw [print, occurs_enclosed (h.marks _ (by decide)) (h.marks _ (by decide)),
      occurs_intercalate (h.marks _ (by decide)), occurs_printAll h vs, texts]
  | .object entries => by
    rw [print, occurs_enclosed (h.marks _ (by decide)) (h.marks _ (by decide)),
      occurs_intercalate (h.marks _ (by decide)), occurs_printEntries h entries, texts]

theorem occurs_printAll (h : Foreign V) : ∀ vs : List Json,
    (∃ text ∈ printAll vs, V.Occurs text) ↔ Among V (textsOfAll vs)
  | [] => iff_of_false (by simp [printAll]) among_nil
  | v :: vs => by
    rw [printAll, textsOfAll, among_append, ← occurs_print h v, ← occurs_printAll h vs]
    simp only [List.mem_cons, exists_eq_or_imp]

theorem occurs_printEntries (h : Foreign V) : ∀ entries : List (String × Json),
    (∃ text ∈ printEntries entries, V.Occurs text) ↔ Among V (textsOfEntries entries)
  | [] => iff_of_false (by simp [printEntries]) among_nil
  | (key, v) :: entries => by
    rw [printEntries, textsOfEntries, among_cons, among_append, ← occurs_print h v,
      ← occurs_printEntries h entries]
    simp only [List.mem_cons, exists_eq_or_imp, occurs_member h, or_assoc]

end

end PayFi.Library.JsonWords
