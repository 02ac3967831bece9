import PayFi.Library.JsonTokens

namespace PayFi.Library.JsonText

open JsonTokens

/-- A JSON document; an object has its members in the order of the text. -/
inductive Json where
  | null
  | boolean (b : Bool)
  | number (n : Literal)
  | string (s : String)
  | array (vs : List Json)
  | object (entries : List (String × Json))

mutual

def print : Json → List Char
  | .null => "null".toList
  | .boolean b => if b then "true".toList else "false".toList
  | .number n => n.text
  | .string s => quote s.toList
  | .array vs => '[' :: ([','].intercalate (printAll vs) ++ [']'])
  | .object entries => '\x7b' :: ([','].intercalate (printEntries entries) ++ ['\x7d'])

def printAll : List Json → List (List Char)
  | [] => []
  | v :: vs => print v :: printAll vs

def printEntries : List (String × Json) → List (List Char)
  | [] => []
  | (key, v) :: entries => (quote key.toList ++ ':' :: print v) :: printEntries entries

end

def isSpace (c : Char) : Bool := [' ', '\t', '\n', '\r'].contains c

def skip (cs : List Char) : List Char := cs.dropWhile isSpace

def word : List Char → Option (Json × List Char)
  | 'n' :: 'u' :: 'l' :: 'l' :: cs => some (.null, cs)
  | 't' :: 'r' :: 'u' :: 'e' :: cs => some (.boolean true, cs)
  | 'f' :: 'a' :: 'l' :: 's' :: 'e' :: cs => some (.boolean false, cs)
  | _ => none

def number (cs : List Char) : Option (Json × List Char) :=
  if h : isNumber (cs.takeWhile isNumberChar) = true then
    some (.number ⟨cs.takeWhile isNumberChar, h⟩, cs.dropWhile isNumberChar)
  else none

def string (cs : List Char) : Option (String × List Char) :=
  match cs with
  | '"' :: cs => (parseChars cs).map fun p => (String.ofList p.1, p.2)
  | _ => none

def separated {β : Type} (item : List Char → Option (β × List Char)) (close : Char) :
    ℕ → List Char → Option (List β × List Char)
  | 0, _ => none
  | fuel + 1, cs => do
    let (x, cs) ← item cs
    match skip cs with
    | [] => none
    | c :: cs =>
      if c = close then return ([x], cs)
      else if c = ',' then
        let (xs, cs) ← separated item close fuel cs
        return (x :: xs, cs)
      else none

def member (value : List Char → Option (Json × List Char)) (cs : List Char) :
    Option ((String × Json) × List Char) := do
  let (key, cs) ← string (skip cs)
  match skip cs with
  | ':' :: cs =>
    let (v, cs) ← value cs
    return ((key, v), cs)
  | _ => none

def parseValue : ℕ → List Char → Option (Json × List Char)
  | 0, _ => none
  | fuel + 1, cs =>
    match skip cs with
    | '"' :: cs => (string ('"' :: cs)).map fun p => (.string p.1, p.2)
    | '[' :: cs =>
      match skip cs with
      | ']' :: cs => some (.array [], cs)
      | cs => (separated (parseValue fuel) ']' fuel cs).map fun p => (.array p.1, p.2)
    | '\x7b' :: cs =>
      match skip cs with
      | '\x7d' :: cs => some (.object [], cs)
      | cs => (separated (member (parseValue fuel)) '\x7d' fuel cs).map fun p => (.object p.1, p.2)
    | cs => (word cs).or (number cs)

def parse (cs : List Char) : Option Json :=
  match parseValue (cs.length + 1) cs with
  | some (v, rest) => if skip rest = [] then some v else none
  | none => none

example : (parse "[1, \x7b \"a\": -2.5e3 \x7d, \"\\u0041\", null]".toList).map print =
    some "[1,\x7b\"a\":-2.5e3\x7d,\"A\",null]".toList := by decide +kernel

variable {cs rest : List Char} {c : Char} {fuel : ℕ} {v : Json}

def Ends (cs : List Char) : Prop := ∀ c ∈ cs.head?, isNumberChar c = false

theorem ends_cons (h : isNumberChar c = false) : Ends (c :: cs) := by
  rintro d ⟨⟩
  exact h

def Opens (cs : List Char) : Prop :=
  ∃ c ds, cs = c :: ds ∧ isSpace c = false ∧ c ≠ ']' ∧ c ≠ '\x7d'

theorem opens_append (h : Opens cs) (ds : List Char) : Opens (cs ++ ds) := by
  obtain ⟨c, es, rfl, hc⟩ := h
  exact ⟨c, es ++ ds, rfl, hc⟩

theorem skip_opens (h : Opens cs) : skip cs = cs := by
  obtain ⟨c, ds, rfl, hspace, -⟩ := h
  exact List.dropWhile_cons_of_neg (by simp [hspace])

theorem opens_number (h : isNumber cs = true) : Opens cs := by
  cases cs with
  | nil => exact absurd rfl (ne_nil_of_isNumber h)
  | cons c ds =>
    have hc := isNumberChar_of_mem h c List.mem_cons_self
    refine ⟨c, ds, rfl, ?_, ?_, ?_⟩
    · have hspaces : ∀ d ∈ [' ', '\t', '\n', '\r'], isNumberChar d = false := by
        intro d hd
        simp only [List.mem_cons, List.not_mem_nil, or_false] at hd
        rcases hd with rfl | rfl | rfl | rfl <;> decide
      apply Bool.eq_false_iff.mpr
      intro hspace
      rw [hspaces c (List.contains_iff_mem.mp hspace)] at hc
      cases hc
    · rintro rfl
      exact absurd hc (by decide)
    · rintro rfl
      exact absurd hc (by decide)

theorem opens_print (v : Json) : Opens (print v) := by
  cases v with
  | null => exact ⟨'n', _, rfl, by decide⟩
  | boolean b =>
    cases b with
    | false => exact ⟨'f', _, rfl, by decide⟩
    | true => exact ⟨'t', _, rfl, by decide⟩
  | number n => exact opens_number n.valid
  | string s => exact ⟨'"', _, rfl, by decide⟩
  | array vs => exact ⟨'[', _, rfl, by decide⟩
  | object entries => exact ⟨'\x7b', _, rfl, by decide⟩

theorem string_quote (s : String) (cs : List Char) :
    string (quote s.toList ++ cs) = some (s, cs) := by
  rw [quote, List.cons_append, List.append_assoc, string, List.singleton_append,
    parseChars_quote, Option.map_some, String.ofList_toList]

theorem number_text (n : Literal) (hrest : Ends rest) :
    number (n.text ++ rest) = some (.number n, rest) := by
  have hall := isNumberChar_of_mem n.valid
  have hstop : rest.takeWhile isNumberChar = [] ∧ rest.dropWhile isNumberChar = rest := by
    cases rest with
    | nil => exact ⟨rfl, rfl⟩
    | cons c cs =>
      have hc := hrest c rfl
      exact ⟨List.takeWhile_cons_of_neg (by simp [hc]), List.dropWhile_cons_of_neg (by simp [hc])⟩
  have htake : (n.text ++ rest).takeWhile isNumberChar = n.text := by
    rw [List.takeWhile_append_of_pos hall, hstop.1, List.append_nil]
  have hdrop : (n.text ++ rest).dropWhile isNumberChar = rest := by
    rw [List.dropWhile_append_of_pos hall, hstop.2]
  simp only [number, htake, hdrop, n.valid, dite_true]

theorem parseValue_array (h : Opens cs) : parseValue (fuel + 1) ('[' :: cs) =
    (separated (parseValue fuel) ']' fuel cs).map fun p => (.array p.1, p.2) := by
  have hread : parseValue (fuel + 1) ('[' :: cs) =
      match skip cs with
      | ']' :: cs => some (.array [], cs)
      | cs => (separated (parseValue fuel) ']' fuel cs).map fun p => (.array p.1, p.2) := by
    rw [parseValue]
    rfl
  rw [hread, skip_opens h]
  obtain ⟨c, ds, rfl, -, hc, -⟩ := h
  split
  · rename_i heq
    cases heq
    exact absurd rfl hc
  · rfl

theorem parseValue_object (h : Opens cs) : parseValue (fuel + 1) ('\x7b' :: cs) =
    (separated (member (parseValue fuel)) '\x7d' fuel cs).map fun p => (.object p.1, p.2) := by
  have hread : parseValue (fuel + 1) ('\x7b' :: cs) =
      match skip cs with
      | '\x7d' :: cs => some (.object [], cs)
      | cs => (separated (member (parseValue fuel)) '\x7d' fuel cs).map fun p =>
        (.object p.1, p.2) := by
    rw [parseValue]
    rfl
  rw [hread, skip_opens h]
  obtain ⟨c, ds, rfl, -, -, hc⟩ := h
  split
  · rename_i heq
    cases heq
    exact absurd rfl hc
  · rfl

theorem parseValue_number (n : Literal) (hrest : Ends rest) :
    parseValue (fuel + 1) (n.text ++ rest) = some (.number n, rest) := by
  have hopens := opens_append (opens_number n.valid) rest
  have hhead : ∀ c ds, n.text ++ rest = c :: ds → isNumberChar c = true := by
    intro c ds h
    cases htext : n.text with
    | nil => exact absurd htext (ne_nil_of_isNumber n.valid)
    | cons d es =>
      rw [htext] at h
      cases h
      exact isNumberChar_of_mem n.valid c (htext ▸ List.mem_cons_self)
  have hword : word (n.text ++ rest) = none := by
    unfold word
    split
    · rename_i heq
      exact absurd (hhead _ _ heq) (by decide)
    · rename_i heq
      exact absurd (hhead _ _ heq) (by decide)
    · rename_i heq
      exact absurd (hhead _ _ heq) (by decide)
    · rfl
  rw [parseValue, skip_opens hopens]
  split
  · rename_i heq
    exact absurd (hhead _ _ heq) (by decide)
  · rename_i heq
    exact absurd (hhead _ _ heq) (by decide)
  · rename_i heq
    exact absurd (hhead _ _ heq) (by decide)
  · rw [hword, number_text n hrest]
    rfl

theorem length_intercalate {texts : List (List Char)} :
    ∀ text ∈ texts, text.length + texts.length ≤ ([','].intercalate texts).length + 1 := by
  induction texts with
  | nil => exact nofun
  | cons t ts ih =>
    cases ts with
    | nil =>
      intro text htext
      rw [List.mem_singleton.mp htext]
      simp
    | cons u us =>
      have hlength : ([','].intercalate (t :: u :: us)).length =
          t.length + 1 + ([','].intercalate (u :: us)).length := by
        simp only [List.intercalate_cons_cons, List.length_append, List.length_singleton]
      intro text htext
      rw [hlength, List.length_cons]
      rcases List.mem_cons.mp htext with rfl | htext
      · have hrest := ih u List.mem_cons_self
        omega
      · have hrest := ih text htext
        omega

theorem separated_intercalate {β : Type} {item : List Char → Option (β × List Char)}
    {close : Char} {text : β → List Char} (hclose : isSpace close = false ∧ close ≠ ',' ∧
      isNumberChar close = false) {xs : List β} (hne : xs ≠ [])
    (hitem : ∀ x ∈ xs, ∀ rest, Ends rest → item (text x ++ rest) = some (x, rest))
    (hfuel : xs.length ≤ fuel) (rest : List Char) :
    separated item close fuel ([','].intercalate (xs.map text) ++ close :: rest) =
      some (xs, rest) := by
  induction xs generalizing fuel with
  | nil => exact absurd rfl hne
  | cons x xs ih =>
    cases fuel with
    | zero => exact absurd hfuel (Nat.not_succ_le_zero _)
    | succ fuel =>
      have hhead := hitem x List.mem_cons_self
      cases xs with
      | nil =>
        have hskip : skip (close :: rest) = close :: rest :=
          List.dropWhile_cons_of_neg (by simp [hclose.1])
        rw [List.map_singleton, List.intercalate_singleton, separated,
          hhead _ (ends_cons hclose.2.2)]
        simp [hskip]
      | cons y ys =>
        have hrest := ih (List.cons_ne_nil y ys)
          (fun z hz => hitem z (List.mem_cons_of_mem x hz)) (Nat.le_of_succ_le_succ hfuel)
        have hskip : ∀ cs, skip (',' :: cs) = ',' :: cs := fun cs => rfl
        rw [List.map_cons, List.map_cons, List.intercalate_cons_cons, List.append_assoc,
          List.append_assoc, List.singleton_append, separated, hhead _ (ends_cons (by decide))]
        rw [List.map_cons] at hrest
        simp [hskip, hclose.2.1.symm, hrest]

theorem separated_text {β : Type} {item : List Char → Option (β × List Char)} {close : Char}
    {text : β → List Char} (hclose : isSpace close = false ∧ close ≠ ',' ∧
      isNumberChar close = false) {xs : List β} (hne : xs ≠ [])
    (hitem : ∀ x ∈ xs, (text x).length ≤ fuel → ∀ rest, Ends rest →
      item (text x ++ rest) = some (x, rest))
    (hfuel : ([','].intercalate (xs.map text)).length < fuel) (rest : List Char) :
    separated item close fuel ([','].intercalate (xs.map text) ++ close :: rest) =
      some (xs, rest) := by
  have hlength : ∀ x ∈ xs, (text x).length + xs.length ≤ fuel := by
    intro x hx
    have h := length_intercalate (text x) (List.mem_map_of_mem hx)
    rw [List.length_map] at h
    omega
  obtain ⟨x, hx⟩ := List.exists_mem_of_ne_nil xs hne
  have hcount : xs.length ≤ fuel := by
    have h := hlength x hx
    omega
  refine separated_intercalate hclose hne (fun y hy => hitem y hy ?_) hcount rest
  have h := hlength y hy
  omega

def printEntry (e : String × Json) : List Char := quote e.1.toList ++ ':' :: print e.2

theorem printAll_eq (vs : List Json) : printAll vs = vs.map print := by
  induction vs with
  | nil => rfl
  | cons v vs ih => rw [printAll, ih, List.map_cons]

theorem printEntries_eq (entries : List (String × Json)) :
    printEntries entries = entries.map printEntry := by
  induction entries with
  | nil => rfl
  | cons e entries ih =>
    rw [printEntries, ih]
    rfl

theorem member_printEntry {value : List Char → Option (Json × List Char)} {e : String × Json}
    (h : value (print e.2 ++ rest) = some (e.2, rest)) :
    member value (printEntry e ++ rest) = some (e, rest) := by
  have hopens : Opens (quote e.1.toList) := ⟨'"', _, rfl, by decide⟩
  have hcolon : ∀ cs, skip (':' :: cs) = ':' :: cs := fun cs => rfl
  rw [printEntry, List.append_assoc, List.cons_append, member, skip_opens (opens_append hopens _),
    string_quote]
  simp [hcolon, h]

theorem opens_intercalate {t : List Char} (h : Opens t) (texts : List (List Char)) :
    Opens ([','].intercalate (t :: texts)) := by
  cases texts with
  | nil =>
    rw [List.intercalate_singleton]
    exact h
  | cons u us =>
    rw [List.intercalate_cons_cons, List.append_assoc]
    exact opens_append h _

def ReadsBack (v : Json) : Prop :=
  ∀ fuel, (print v).length ≤ fuel → ∀ rest, Ends rest →
    parseValue fuel (print v ++ rest) = some (v, rest)

theorem readsBack_of_succ (h : ∀ fuel, (print v).length ≤ fuel + 1 → ∀ rest, Ends rest →
    parseValue (fuel + 1) (print v ++ rest) = some (v, rest)) : ReadsBack v := by
  intro fuel hfuel
  cases fuel with
  | zero =>
    obtain ⟨c, ds, hv, -⟩ := opens_print v
    rw [hv] at hfuel
    exact absurd hfuel (Nat.not_succ_le_zero _)
  | succ fuel => exact h fuel hfuel

theorem separated_enclosed {β : Type} {item : List Char → Option (β × List Char)}
    {opening close : Char} {text : β → List Char} {x : β} {xs : List β}
    (hclose : isSpace close = false ∧ close ≠ ',' ∧ isNumberChar close = false)
    (hopens : Opens (text x))
    (hitem : ∀ y ∈ x :: xs, (text y).length ≤ fuel → ∀ rest, Ends rest →
      item (text y ++ rest) = some (y, rest))
    (hfuel : (opening :: ([','].intercalate ((x :: xs).map text) ++ [close])).length ≤ fuel + 1)
    (rest : List Char) :
    ∃ cs, opening :: ([','].intercalate ((x :: xs).map text) ++ [close]) ++ rest = opening :: cs ∧
      Opens cs ∧ separated item close fuel cs = some (x :: xs, rest) := by
  have hinner : ([','].intercalate ((x :: xs).map text)).length < fuel := by
    rw [List.length_cons, List.length_append, List.length_singleton] at hfuel
    omega
  refine ⟨[','].intercalate ((x :: xs).map text) ++ close :: rest, ?_, ?_, ?_⟩
  · rw [List.cons_append, List.append_assoc, List.singleton_append]
  · exact opens_append (opens_intercalate hopens (xs.map text)) _
  · exact separated_text hclose (List.cons_ne_nil x xs) hitem hinner rest

theorem readsBack_array {vs : List Json} (h : ∀ v ∈ vs, ReadsBack v) : ReadsBack (.array vs) := by
  apply readsBack_of_succ
  intro fuel hfuel rest _
  cases vs with
  | nil =>
    rw [parseValue]
    rfl
  | cons v vs =>
    rw [print, printAll_eq] at hfuel ⊢
    obtain ⟨cs, hcs, hopens, hread⟩ := separated_enclosed (by decide) (opens_print v)
      (fun w hw hw' => h w hw fuel hw') hfuel rest
    rw [hcs, parseValue_array hopens, hread]
    rfl

theorem readsBack_object {entries : List (String × Json)} (h : ∀ e ∈ entries, ReadsBack e.2) :
    ReadsBack (.object entries) := by
  apply readsBack_of_succ
  intro fuel hfuel rest _
  cases entries with
  | nil =>
    rw [parseValue]
    rfl
  | cons e es =>
    have hitem : ∀ f ∈ e :: es, (printEntry f).length ≤ fuel → ∀ rest, Ends rest →
        member (parseValue fuel) (printEntry f ++ rest) = some (f, rest) := by
      intro f hf hlength rest hrest
      apply member_printEntry (h f hf fuel _ rest hrest)
      rw [printEntry, List.length_append, List.length_cons] at hlength
      omega
    have hquote : Opens (printEntry e) := ⟨'"', _, rfl, by decide⟩
    rw [print, printEntries_eq] at hfuel ⊢
    obtain ⟨cs, hcs, hopens, hread⟩ := separated_enclosed (by decide) hquote hitem hfuel rest
    rw [hcs, parseValue_object hopens, hread]
    rfl

theorem readsBack_string (s : String) : ReadsBack (.string s) := by
  apply readsBack_of_succ
  intro fuel _ rest _
  have hread : parseValue (fuel + 1) (print (.string s) ++ rest) =
      (string (quote s.toList ++ rest)).map fun p => (.string p.1, p.2) := by
    rw [parseValue]
    rfl
  rw [hread, string_quote]
  rfl

mutual

theorem readsBack : ∀ v : Json, ReadsBack v
  | .null => readsBack_of_succ fun fuel _ rest _ => by
    rw [parseValue]
    rfl
  | .boolean true => readsBack_of_succ fun fuel _ rest _ => by
    rw [parseValue]
    rfl
  | .boolean false => readsBack_of_succ fun fuel _ rest _ => by
    rw [parseValue]
    rfl
  | .number n => readsBack_of_succ fun _ _ _ hrest => parseValue_number n hrest
  | .string s => readsBack_string s
  | .array vs => readsBack_array (readsBackAll vs)
  | .object entries => readsBack_object (readsBackEntries entries)

theorem readsBackAll : ∀ vs : List Json, ∀ v ∈ vs, ReadsBack v
  | [] => nofun
  | v :: vs => List.forall_mem_cons.mpr ⟨readsBack v, readsBackAll vs⟩

theorem readsBackEntries : ∀ es : List (String × Json), ∀ e ∈ es, ReadsBack e.2
  | [] => nofun
  | (_, v) :: es => List.forall_mem_cons.mpr ⟨readsBack v, readsBackEntries es⟩

end

theorem parse_print (v : Json) : parse (print v) = some v := by
  have hread := readsBack v ((print v).length + 1) (Nat.le_succ _) [] nofun
  rw [List.append_nil] at hread
  rw [parse, hread]
  rfl

end PayFi.Library.JsonText
