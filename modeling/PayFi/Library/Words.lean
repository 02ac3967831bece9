import Mathlib.Data.List.Infix
import PayFi.Library.Regex

namespace PayFi.Library.Words

variable {α : Type}

structure Vocabulary (α : Type) where
  IsWord : List α → Prop
  starts : α → Bool
  within : α → Bool
  head : ∀ w, IsWord w → ∃ c cs, w = c :: cs ∧ starts c = true
  inner : ∀ w, IsWord w → ∀ c ∈ w, within c = true

variable {V : Vocabulary α} {cs ds out block taken w xs ys : List α} {a b c : α}

def Vocabulary.Occurs (V : Vocabulary α) (cs : List α) : Prop := ∃ w, w <:+: cs ∧ V.IsWord w

theorem infix_split (h : w <:+: xs ++ b :: ys) (hb : b ∉ w) : w <:+: xs ∨ w <:+: ys := by
  obtain ⟨s, t, hst⟩ := h
  rw [List.append_assoc] at hst
  obtain ⟨u, hu, hw⟩ | ⟨u, hu, hw⟩ := List.append_eq_append_iff.mp hst
  · -- `w` starts within `xs`
    obtain ⟨v, hv, hy⟩ | ⟨v, hv, hy⟩ := List.append_eq_append_iff.mp hw
    · exact .inl ⟨s, v, by rw [hu, hv, List.append_assoc]⟩
    · cases v with
      | nil =>
        rw [List.append_nil] at hv
        exact .inl ⟨s, [], by rw [hu, hv, List.append_nil]⟩
      | cons c v =>
        obtain ⟨rfl, -⟩ := List.cons.inj hy
        exact absurd (hv ▸ List.mem_append_right _ List.mem_cons_self) hb
  · cases u with
    | nil =>
      cases w with
      | nil => exact .inl (List.nil_infix ..)
      | cons c w =>
        obtain ⟨rfl, -⟩ := List.cons.inj hw
        exact absurd List.mem_cons_self hb
    | cons c u =>
      obtain ⟨rfl, hys⟩ := List.cons.inj hw
      exact .inr ⟨u, t, (List.append_assoc ..).trans hys.symm⟩

theorem Vocabulary.Occurs.mono (h : V.Occurs xs) (hi : xs <:+: ys) : V.Occurs ys := by
  obtain ⟨w, hw, hword⟩ := h
  exact ⟨w, hw.trans hi, hword⟩

theorem occurs_separated (hb : V.within b = false) :
    V.Occurs (xs ++ b :: ys) ↔ V.Occurs xs ∨ V.Occurs ys := by
  constructor
  · rintro ⟨w, hw, hword⟩
    have hnot : b ∉ w := by
      intro hmem
      rw [V.inner w hword b hmem] at hb
      cases hb
    exact (infix_split hw hnot).imp (fun h => ⟨w, h, hword⟩) fun h => ⟨w, h, hword⟩
  · rintro (h | h)
    · exact h.mono (List.prefix_append ..).isInfix
    · exact h.mono ((List.suffix_cons b ys).trans (List.suffix_append ..)).isInfix

theorem not_occurs_nil : ¬V.Occurs [] := by
  rintro ⟨w, hw, hword⟩
  obtain ⟨c, cs, rfl, -⟩ := V.head w hword
  exact absurd (List.infix_nil.mp hw) (List.cons_ne_nil c cs)

theorem occurs_enclosed (ha : V.within a = false) (hb : V.within b = false) :
    V.Occurs (a :: (xs ++ [b])) ↔ V.Occurs xs := by
  have hfront : V.Occurs ([] ++ a :: (xs ++ [b])) ↔ _ := occurs_separated ha
  rw [List.nil_append] at hfront
  rw [hfront, occurs_separated hb]
  simp only [not_occurs_nil, false_or, or_false]

theorem occurs_intercalate (hb : V.within b = false) (texts : List (List α)) :
    V.Occurs ([b].intercalate texts) ↔ ∃ text ∈ texts, V.Occurs text := by
  induction texts with
  | nil => exact iff_of_false not_occurs_nil (by simp)
  | cons text texts ih =>
    cases texts with
    | nil => simp
    | cons text' texts =>
      rw [List.intercalate_cons_cons, List.append_assoc, List.singleton_append,
        occurs_separated hb, ih]
      simp only [List.mem_cons, exists_eq_or_imp]

theorem eq_false_of_any {p : α → Bool} (h : xs.any p = false) : ∀ c ∈ xs, p c = false :=
  fun c hc => Bool.not_eq_true _ ▸ List.any_eq_false.mp h c hc

theorem infix_of_append (hword : V.IsWord w) (h : ∀ c ∈ xs, V.starts c = false)
    (hw : w <:+: xs ++ ys) : w <:+: ys := by
  induction xs with
  | nil => exact hw
  | cons c xs ih =>
    obtain ⟨hc, hxs⟩ := List.forall_mem_cons.mp h
    obtain hprefix | hinfix := List.infix_cons_iff.mp hw
    · obtain ⟨d, ds, rfl, hd⟩ := V.head w hword
      obtain ⟨rfl, -⟩ := List.cons_prefix_cons.mp hprefix
      rw [hc] at hd
      cases hd
    · exact ih hxs hinfix

theorem occurs_append (h : ∀ c ∈ xs, V.starts c = false) :
    V.Occurs (xs ++ ys) ↔ V.Occurs ys := by
  constructor
  · rintro ⟨w, hw, hword⟩
    exact ⟨w, infix_of_append hword h hw, hword⟩
  · exact fun hoccurs => hoccurs.mono (List.suffix_append xs ys).isInfix

theorem not_occurs_of_starts (h : ∀ c ∈ xs, V.starts c = false) : ¬V.Occurs xs := by
  have happend : V.Occurs (xs ++ []) ↔ V.Occurs [] := occurs_append h
  rw [List.append_nil] at happend
  exact fun hoccurs => not_occurs_nil (happend.mp hoccurs)

structure Inert (V : Vocabulary α) (block : List α) : Prop where
  front : ∃ c cs, block = c :: cs ∧ V.within c = false
  starts : ∀ c ∈ block, V.starts c = false

/-- A pass keeps characters, each with what follows it in `Keep`, and puts blocks in the place
of parts. -/
inductive Pass (V : Vocabulary α) (Keep : List α → Prop) : List α → List α → Prop where
  | nil : Pass V Keep [] []
  | keep {c : α} {cs out : List α} (h : Keep (c :: cs)) (rest : Pass V Keep cs out) :
      Pass V Keep (c :: cs) (c :: out)
  | put {block cs out : List α} (taken : List α) (h : Inert V block) (rest : Pass V Keep cs out) :
      Pass V Keep (taken ++ cs) (block ++ out)

variable {Keep : List α → Prop}

theorem Pass.prefix_of_prefix (h : Pass V Keep cs out) (hw : w <+: out)
    (hwithin : ∀ c ∈ w, V.within c = true) : w <+: cs := by
  induction h generalizing w with
  | nil => exact hw
  | @keep c cs out _ _ ih =>
    cases w with
    | nil => exact List.nil_prefix
    | cons d w =>
      obtain ⟨rfl, htail⟩ := List.cons_prefix_cons.mp hw
      exact List.cons_prefix_cons.mpr ⟨rfl, ih htail (List.forall_mem_cons.mp hwithin).2⟩
  | @put block cs out taken hblock _ _ =>
    cases w with
    | nil => exact List.nil_prefix
    | cons d w =>
      obtain ⟨c, ds, rfl, hc⟩ := hblock.front
      obtain ⟨rfl, -⟩ := List.cons_prefix_cons.mp hw
      rw [(List.forall_mem_cons.mp hwithin).1] at hc
      cases hc

theorem Pass.word (h : Pass V Keep cs out) (hw : w <:+: out) (hword : V.IsWord w) :
    ∃ t, t <:+ cs ∧ Keep t ∧ w <+: t := by
  induction h with
  | nil => exact absurd ⟨w, hw, hword⟩ (not_occurs_nil (V := V))
  | @keep c cs out hkeep rest ih =>
    obtain hprefix | hinfix := List.infix_cons_iff.mp hw
    · have hinner := V.inner w hword
      obtain ⟨d, ds, rfl, -⟩ := V.head w hword
      obtain ⟨rfl, hds⟩ := List.cons_prefix_cons.mp hprefix
      have hcs := rest.prefix_of_prefix hds (List.forall_mem_cons.mp hinner).2
      exact ⟨d :: cs, List.suffix_rfl, hkeep, List.cons_prefix_cons.mpr ⟨rfl, hcs⟩⟩
    · obtain ⟨t, ht, hkeep', hwt⟩ := ih hinfix
      exact ⟨t, ht.trans (List.suffix_cons c cs), hkeep', hwt⟩
  | @put block cs out taken hblock _ ih =>
    obtain ⟨t, ht, hkeep, hwt⟩ := ih (infix_of_append hword hblock.starts hw)
    exact ⟨t, ht.trans (List.suffix_append taken cs), hkeep, hwt⟩

open Regex

def matchLength (r : Pattern) (cs : List Char) : Option ℕ := exec r cs fun a _ => some a.length

/-- The replacement of every match, from the left, for a pattern that takes one character at
least; of the match that has been replaced, `skip` characters are left. -/
def replaceFrom (r : Pattern) (replacement : List Char) : ℕ → List Char → List Char
  | _, [] => []
  | skip + 1, _ :: cs => replaceFrom r replacement skip cs
  | 0, c :: cs =>
    match matchLength r (c :: cs) with
    | some (n + 1) => replacement ++ replaceFrom r replacement n cs
    | _ => c :: replaceFrom r replacement 0 cs

def replaceAll (r : Pattern) (replacement cs : List Char) : List Char :=
  replaceFrom r replacement 0 cs

theorem not_prefix_of_matchLength {V : Vocabulary Char} {r : Pattern}
    (hV : ∀ w, V.IsWord w ↔ Accepts r w) {cs w : List Char}
    (h : ∀ n, matchLength r cs ≠ some (n + 1)) (hword : V.IsWord w) : ¬w <+: cs := by
  rintro ⟨rest, hrest⟩
  cases hmatch : matchLength r cs with
  | none =>
    have hnone := exec_none.mp hmatch w rest hrest.symm ((hV w).mp hword)
    cases hnone
  | some m =>
    obtain ⟨a, rest', -, ha, hm⟩ := exec_some hmatch
    obtain ⟨c, ds, rfl, -⟩ := V.head a ((hV a).mpr ha)
    rw [← hm] at hmatch
    exact h ds.length hmatch

theorem replaceFrom_pass {V : Vocabulary Char} {r : Pattern}
    (hV : ∀ w, V.IsWord w ↔ Accepts r w) {replacement : List Char}
    (hreplacement : Inert V replacement) (skip : ℕ) (cs : List Char) :
    Pass V (fun t => ∀ w, V.IsWord w → ¬w <+: t) (cs.drop skip)
      (replaceFrom r replacement skip cs) := by
  induction cs generalizing skip with
  | nil =>
    rw [List.drop_nil]
    cases skip with
    | zero => exact .nil
    | succ skip => exact .nil
  | cons c cs ih =>
    cases skip with
    | succ skip => exact ih skip
    | zero =>
      rw [List.drop_zero, replaceFrom]
      split
      · rename_i n _
        have hput := Pass.put (c :: cs.take n) hreplacement (ih n)
        rwa [List.cons_append, List.take_append_drop] at hput
      · rename_i hnone
        exact .keep (fun w hword => not_prefix_of_matchLength hV hnone hword) (ih 0)

theorem not_occurs_replaceAll {V : Vocabulary Char} {r : Pattern}
    (hV : ∀ w, V.IsWord w ↔ Accepts r w) {replacement : List Char}
    (hreplacement : Inert V replacement) (cs : List Char) :
    ¬V.Occurs (replaceAll r replacement cs) := by
  rintro ⟨w, hw, hword⟩
  obtain ⟨t, -, hkeep, hprefix⟩ := (replaceFrom_pass hV hreplacement 0 cs).word hw hword
  exact hkeep w hword hprefix

theorem replaceAll_eq_nil {r : Pattern} {replacement : List Char} (hne : replacement ≠ [])
    {cs : List Char} : replaceAll r replacement cs = [] ↔ cs = [] := by
  cases cs with
  | nil => exact iff_of_true rfl rfl
  | cons c cs =>
    refine iff_of_false ?_ (List.cons_ne_nil c cs)
    rw [replaceAll, replaceFrom]
    split
    · exact List.append_ne_nil_of_left_ne_nil hne _
    · exact List.cons_ne_nil _ _

end PayFi.Library.Words
