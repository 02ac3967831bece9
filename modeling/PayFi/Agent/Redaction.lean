import PayFi.Agent.Errors
import PayFi.Agent.Reporting
import PayFi.Library.Numbers
import PayFi.Library.Words

namespace PayFi.Agent.Redaction

open Library.Numbers Library.Regex Errors Middlewares Reporting
open Execution (AgentTask AgentResult Environment)
open Library.Words

/-- What `.` matches. -/
def isDot (c : Char) : Bool := !(['\n', '\r', '\u2028', '\u2029'].contains c)

def isQuote (c : Char) : Bool := c = '"' || c = '\'' || isWhiteSpace c

def isKeyChar (c : Char) : Bool := c.isUpper || ('2' ≤ c && c ≤ '7')

def isLooseKeyChar (c : Char) : Bool := c = ' ' || c.isAlpha || ('2' ≤ c && c ≤ '7')

def leading : Pattern := .seq (.few isDot) (.opt fun c => c = ':' || isQuote c)

def secret : Pattern := .seq (.one fun c => c = 'S' || c = 's') (.times 55 isLooseKeyChar)

def trailing : Pattern := .seq (.opt isQuote) (.many isDot)

structure Groups where
  leading : List Char
  secret : List Char
  trailing : List Char

def groups (a rest : List Char) : Option Groups :=
  exec secret rest fun b rest => exec trailing rest fun c rest =>
    if rest = [] then some ⟨a, b, c⟩ else none

/-- `SECRET_KEY_RE`. -/
def secretKeyRe (cs : List Char) : Option Groups := exec leading cs groups

def redacted (g : Groups) : List Char := g.leading ++ "[REDACTED]".toList ++ g.trailing

def redactSecretString (value : String) : String :=
  match secretKeyRe value.toList with
  | some g => String.ofList (redacted g)
  | none => value

def IsKey : List Char → Prop := Accepts (.seq (.one (· = 'S')) (.times 55 isKeyChar))

def HasKey (cs : List Char) : Prop := ∃ w, w <:+: cs ∧ IsKey w

structure Matches (cs : List Char) (g : Groups) : Prop where
  text : cs = g.leading ++ (g.secret ++ g.trailing)
  leading : Accepts leading g.leading
  secret : Accepts secret g.secret
  trailing : Accepts trailing g.trailing

def First (cs : List Char) (g : Groups) : Prop :=
  Matches cs g ∧ ∀ g', Matches cs g' → g.leading.length ≤ g'.leading.length

/-- The text has no key, or none outside the first part that the pattern takes for one. -/
def Coverable (cs : List Char) : Prop :=
  ¬ HasKey cs ∨ ∃ g, First cs g ∧ ¬ HasKey g.leading ∧ ¬ HasKey g.trailing

variable {cs rest xs ys w : List Char} {b : Char} {g g' : Groups}

theorem length_of_accepts {p q : Char → Bool} (h : Accepts (.seq (.one p) (.times 55 q)) w) :
    w.length = 56 := by
  obtain ⟨x, y, rfl, ⟨c, rfl, -⟩, hy, -⟩ := h
  rw [List.length_append, hy, List.length_singleton]

theorem IsKey.keyChar (h : IsKey w) (hc : b ∈ w) : isKeyChar b = true := by
  obtain ⟨x, y, rfl, ⟨c, rfl, hs⟩, -, hy⟩ := h
  obtain hx | hb := List.mem_append.mp hc
  · rw [List.mem_singleton.mp hx, of_decide_eq_true hs]
    decide
  · exact hy b hb

theorem isKey_iff : cs.head? = some 'S' ∧ cs.tail.length = 55 ∧ cs.tail.all isKeyChar = true ↔
    IsKey cs := by
  constructor
  · rintro ⟨hhead, hlength, hchars⟩
    refine ⟨['S'], cs.tail, ?_, ⟨'S', rfl, rfl⟩, hlength, List.all_eq_true.mp hchars⟩
    exact (List.cons_head?_tail hhead).symm
  · rintro ⟨x, y, rfl, ⟨c, rfl, hc⟩, hlength, hchars⟩
    rw [of_decide_eq_true hc]
    exact ⟨rfl, hlength, List.all_eq_true.mpr hchars⟩

instance (cs : List Char) : Decidable (IsKey cs) := decidable_of_iff _ isKey_iff

theorem IsKey.head (h : IsKey w) : ∃ c cs, w = c :: cs ∧ decide (c = 'S') = true := by
  obtain ⟨x, y, rfl, ⟨c, rfl, hc⟩, -⟩ := h
  exact ⟨c, y, rfl, hc⟩

/-- The keys, which start with an `S` and have no character outside their class. -/
def keys : Vocabulary Char where
  IsWord := IsKey
  starts c := c = 'S'
  within := isKeyChar
  head _ h := h.head
  inner _ h _ hc := h.keyChar hc

theorem HasKey.mono (h : HasKey xs) (hi : xs <:+: ys) : HasKey ys :=
  Vocabulary.Occurs.mono (V := keys) h hi

theorem hasKey_redacted : HasKey (redacted g) ↔ HasKey g.leading ∨ HasKey g.trailing := by
  have htext : redacted g = g.leading ++ '[' :: ("REDACTED]".toList ++ g.trailing) := by
    rw [redacted, List.append_assoc]
    rfl
  have htrailing : HasKey ("REDACTED]".toList ++ g.trailing) ↔ HasKey g.trailing :=
    occurs_append (V := keys) (eq_false_of_any (by decide))
  rw [htext]
  exact (occurs_separated (V := keys) (by decide)).trans (or_congr_right htrailing)

theorem groups_none : groups xs rest = none ↔
    ∀ b c, rest = b ++ c → Accepts secret b → ¬ Accepts trailing c := by
  rw [groups, exec_none]
  constructor
  · intro h b c hrest hb hc
    have hend := exec_none.mp (h b c hrest hb) c [] (List.append_nil c).symm hc
    simp at hend
  · intro h b rest' hrest hb
    refine exec_none.mpr fun c rest'' hrest' hc => if_neg ?_
    rintro rfl
    rw [List.append_nil] at hrest'
    exact h b c (hrest' ▸ hrest) hb hc

theorem groups_some (h : groups xs rest = some g) :
    g.leading = xs ∧ rest = g.secret ++ g.trailing ∧ Accepts secret g.secret ∧
      Accepts trailing g.trailing := by
  obtain ⟨b, rest', rfl, hb, h⟩ := exec_some h
  obtain ⟨c, rest'', rfl, hc, h⟩ := exec_some h
  obtain ⟨rfl, hg⟩ := Option.ite_none_right_eq_some.mp h
  cases hg
  exact ⟨rfl, by rw [List.append_nil], hb, hc⟩

theorem secretKeyRe_none : secretKeyRe cs = none ↔ ∀ g, ¬ Matches cs g := by
  rw [secretKeyRe, exec_none]
  constructor
  · intro h g hg
    exact groups_none.mp (h g.leading _ hg.text hg.leading) g.secret g.trailing rfl hg.secret
      hg.trailing
  · intro h a rest hcs ha
    exact groups_none.mpr fun b c hrest hb hc => h ⟨a, b, c⟩ ⟨hrest ▸ hcs, ha, hb, hc⟩

theorem secretKeyRe_matches (h : secretKeyRe cs = some g) : Matches cs g := by
  obtain ⟨a, rest, hcs, ha, h⟩ := exec_some h
  obtain ⟨rfl, rfl, hb, hc⟩ := groups_some h
  exact ⟨hcs, ha, hb, hc⟩

theorem secretKeyRe_first (h : secretKeyRe cs = some g) : First cs g := by
  refine ⟨secretKeyRe_matches h, fun g' hg' => ?_⟩
  rw [secretKeyRe, leading, exec] at h
  obtain ⟨a, rest, hcs, ha, hopt, hlazy⟩ := execFew_some h
  obtain ⟨o, rest', hrest, ho, hgroups⟩ := exec_some hopt
  obtain ⟨hlead, -⟩ := groups_some hgroups
  obtain ⟨a', o', hlead', ha', ho'⟩ := hg'.leading
  by_contra hlt
  rw [not_le, hlead, hlead', List.length_append, List.length_append] at hlt
  have hcs' : cs = a' ++ (o' ++ (g'.secret ++ g'.trailing)) := by
    rw [hg'.text, hlead', List.append_assoc]
  obtain hshort | hlong := Nat.lt_or_ge a'.length a.length
  · -- the repetition would have stopped earlier
    have hnone := exec_none.mp (hlazy a' _ hcs' hshort) o' _ rfl ho'
    exact groups_none.mp hnone g'.secret g'.trailing rfl hg'.secret hg'.trailing
  · -- the same repetition, and a quote where the other match has its `S`
    have ho1 : o.length ≤ 1 := by
      obtain rfl | ⟨c, rfl, -⟩ := ho
      · exact Nat.zero_le 1
      · exact Nat.le_refl 1
    have hlen : a'.length = a.length := by omega
    have hnil : o' = [] := List.length_eq_zero_iff.mp (by omega)
    obtain ⟨-, htail⟩ := List.append_inj (hcs.symm.trans hcs') hlen.symm
    obtain ⟨x, y, hsecret, ⟨s, rfl, hs⟩, -⟩ := hg'.secret
    obtain rfl | ⟨c, rfl, hc⟩ := ho
    · rw [List.length_nil] at hlt
      omega
    · rw [hrest, hnil, List.nil_append, hsecret] at htail
      obtain ⟨rfl, -⟩ := List.cons.inj htail
      have hs : c = 'S' ∨ c = 's' := by simpa using hs
      obtain rfl | rfl := hs
      · exact absurd hc (by decide)
      · exact absurd hc (by decide)

theorem First.unique (h : First cs g) (h' : First cs g') : g = g' := by
  have hlen : g.leading.length = g'.leading.length := Nat.le_antisymm (h.2 g' h'.1) (h'.2 g h.1)
  have htext : g.leading ++ (g.secret ++ g.trailing) =
      g'.leading ++ (g'.secret ++ g'.trailing) := h.1.text.symm.trans h'.1.text
  obtain ⟨hlead, hrest⟩ := List.append_inj htext hlen
  obtain ⟨hsecret, htrail⟩ := List.append_inj hrest
    ((length_of_accepts h.1.secret).trans (length_of_accepts h'.1.secret).symm)
  cases g
  cases g'
  simp only [Groups.mk.injEq]
  exact ⟨hlead, hsecret, htrail⟩

theorem redactSecretString_iff (value : String) :
    ¬ HasKey (redactSecretString value).toList ↔ Coverable value.toList := by
  cases hre : secretKeyRe value.toList with
  | none =>
    have htext : redactSecretString value = value := by rw [redactSecretString, hre]
    rw [htext]
    refine ⟨.inl, fun h => ?_⟩
    obtain hkey | ⟨g, hfirst, -⟩ := h
    · exact hkey
    · exact absurd hfirst.1 (secretKeyRe_none.mp hre g)
  | some g =>
    have hfirst := secretKeyRe_first hre
    have htext : (redactSecretString value).toList = redacted g := by
      rw [redactSecretString, hre, String.toList_ofList]
    rw [htext, hasKey_redacted, not_or]
    constructor
    · exact fun h => .inr ⟨g, hfirst, h⟩
    · rintro (h | ⟨g', hg', hkeys⟩)
      · have hleading : g.leading <:+: value.toList :=
          ⟨[], g.secret ++ g.trailing, hfirst.1.text.symm⟩
        have htrailing : g.trailing <:+: value.toList :=
          ⟨g.leading ++ g.secret, [], by rw [List.append_nil, List.append_assoc, hfirst.1.text]⟩
        exact ⟨fun hkey => h (hkey.mono hleading), fun hkey => h (hkey.mono htrailing)⟩
      · rwa [hfirst.unique hg']

section Tasks

variable {Payload Data : Type} {env : ℕ → Environment Payload Data Thrown}
  {correlationId : String} {ms : List (Once Payload Data Thrown)} {task t : AgentTask Payload}
  {stringify : Data → Option String}

/-- The environment whose errors are described and then redacted. -/
def reporting (env : ℕ → Environment Payload Data Thrown) (n : ℕ) :
    Environment Payload Data Thrown :=
  { env n with describeError := fun err => redactSecretString (describeError err) }

def attemptCatches (env : Environment Payload Data Thrown) (correlationId : String)
    (task : AgentTask Payload) : Option Thrown :=
  match perform env correlationId task with
  | .ok _ => none
  | .error err => some err

def failCatches (env : Environment Payload Data Thrown) (correlationId : String)
    (task : AgentTask Payload) (err : Thrown) : Option Thrown :=
  match fail env correlationId task err true with
  | .ok _ => some err
  | .error _ => none

/-- The thrown value that the result of a task reports. -/
def catches (env : ℕ → Environment Payload Data Thrown) (correlationId : String)
    (ms : List (Once Payload Data Thrown)) (task : AgentTask Payload) : Option Thrown :=
  match entered ms task with
  | .error (err, t) => failCatches (env 0) correlationId t err
  | .ok t =>
    match leave ms (attempt (env 0) correlationId t, t) with
    | (.ok _, _) => attemptCatches (env 0) correlationId t
    | (.error err, t) => failCatches (env 1) correlationId t err

theorem fail_error (e : Environment Payload Data Thrown) (correlationId : String)
    (t : AgentTask Payload) (err : Thrown) (outer : Bool) {result : AgentResult Data}
    (h : fail e correlationId t err outer = .ok result) :
    result.error = some (e.describeError err) := by
  rw [fail_eq_ok h]
  rfl

theorem attempt_error (e : Environment Payload Data Thrown) {result : AgentResult Data}
    (h : attempt e correlationId t = .ok result) :
    result.error = (attemptCatches e correlationId t).map e.describeError := by
  unfold attempt at h
  unfold attemptCatches
  cases hperform : perform e correlationId t with
  | ok completed =>
    rw [hperform] at h
    cases h
    obtain ⟨data, -, rfl, -, -⟩ := perform_eq_ok.mp hperform
    rfl
  | error err =>
    rw [hperform] at h
    exact fail_error e correlationId t err false h

theorem failCatches_error (e : Environment Payload Data Thrown) (correlationId : String)
    (t : AgentTask Payload) (err : Thrown) :
    (fail e correlationId t err true).toOption.bind AgentResult.error =
      (failCatches e correlationId t err).map e.describeError := by
  unfold failCatches
  cases hfail : fail e correlationId t err true with
  | ok result => exact fail_error e correlationId t err true hfail
  | error err' => rfl

theorem executeTask_error (stringify : Data → Option String)
    (env : ℕ → Environment Payload Data Thrown) (correlationId : String)
    (ms : List (Once Payload Data Thrown)) (task : AgentTask Payload) :
    (executeTask stringify (reporting env) correlationId (ms.map Once.toMiddleware)
        task).1.toOption.bind AgentResult.error =
      (catches (reporting env) correlationId ms task).map
        fun err => redactSecretString (describeError err) := by
  rw [executeTask_once, catches]
  cases entered ms task with
  | error thrown => exact failCatches_error (reporting env 0) correlationId thrown.2 thrown.1
  | ok t =>
    dsimp only
    cases hattempt : attempt (reporting env 0) correlationId t with
    | ok result =>
      have hleave := leave_ok ms t result
      obtain ⟨⟨out, t'⟩, heq⟩ : ∃ o, leave ms (.ok result, t) = o := ⟨_, rfl⟩
      rw [heq] at hleave ⊢
      obtain rfl | ⟨err, rfl⟩ := hleave
      · exact attempt_error (reporting env 0) hattempt
      · exact failCatches_error (reporting env 1) correlationId t' err
    | error err =>
      rw [leave_error]
      exact failCatches_error (reporting env 1) correlationId _ _

/-- The error of a task is without a key exactly when what is thrown has at most the one that
is found first. -/
theorem error_without_key_iff (stringify : Data → Option String)
    (env : ℕ → Environment Payload Data Thrown) (correlationId : String)
    (ms : List (Once Payload Data Thrown)) (task : AgentTask Payload) :
    (∀ result error, (executeTask stringify (reporting env) correlationId
        (ms.map Once.toMiddleware) task).1 = .ok result →
        result.error = some error → ¬ HasKey error.toList) ↔
      ∀ err, catches (reporting env) correlationId ms task = some err →
        Coverable (describeError err).toList := by
  have herror := executeTask_error stringify env correlationId ms task
  constructor
  · intro h err hcatch
    rw [hcatch, Option.map_some] at herror
    cases hout : (executeTask stringify (reporting env) correlationId (ms.map Once.toMiddleware)
      task).1 with
    | ok result =>
      rw [hout] at herror
      exact (redactSecretString_iff _).mp (h result _ hout herror)
    | error err' =>
      rw [hout] at herror
      cases herror
  · intro h result error hresult hsome
    rw [hresult] at herror
    obtain ⟨err, hcatch, hredacted⟩ := Option.map_eq_some_iff.mp (herror.symm.trans hsome)
    rw [← hredacted]
    exact (redactSecretString_iff _).mpr (h err hcatch)

/-- Words in front of the key are taken for it. -/
theorem error_with_key :
    let key := "SCZANGBA5XTONSYOA7ZOMCLMQBZAVOZRJHSBXAVLMVZ5BFXAOLL5OQUD"
    let message := "Signing failed for the source account of this transaction, secret " ++ key
    let env : Environment Unit Unit Thrown := ⟨fun _ => .ok (), fun _ _ => .error (.error message),
      id, fun _ => .ok (), .error, Thrown.message, fun _ => "UnknownError", fun _ => false, 3, 7,
      fun _ => .ok (), fun _ _ => .ok (), "2026-01-01T00:00:00.000Z"⟩
    (executeTask (fun _ => none) (reporting fun _ => env) "id" []
        ⟨.changeTrust, ()⟩).1.toOption.bind AgentResult.error =
          some ("[REDACTED]n, secret " ++ key) ∧
      HasKey ("[REDACTED]n, secret " ++ key).toList := by
  intro key message env
  have hkey : IsKey key.toList := by decide +kernel
  refine ⟨by decide +kernel, key.toList, ⟨"[REDACTED]n, secret ".toList, [], ?_⟩, hkey⟩
  rw [List.append_nil, String.toList_append]

end Tasks

end PayFi.Agent.Redaction
