import Mathlib.Data.List.DropRight
import PayFi.Agent.Causes
import PayFi.Library.Objects
import PayFi.X402.Challenge

namespace PayFi.Agent.Payload

open Library.Objects Library.Numbers Library.Results Errors

def trim (key : String) : String := String.ofList (X402.Challenge.trim key.toList)

def sensitiveWords : List String := ["secret", "key", "seed", "mnemonic", "private"]

def isSensitive (key : String) : Bool :=
  sensitiveWords.any fun word => word.toList <:+: key.toList.map Char.toLower

mutual

def sanitizePayload : Value → Except Unit Value
  | .array vs => do return .array (← sanitizeAll vs)
  | .object entries => do
    entriesReadable entries
    return .object (← sanitizeEntries entries [])
  | .throwing => .error ()
  | .cyclic => .error ()
  | v => .ok v

def sanitizeAll : List Value → Except Unit (List Value)
  | [] => .ok []
  | v :: vs => do
    let v ← sanitizePayload v
    return v :: (← sanitizeAll vs)

/-- The loop over the entries. A `__proto__` that is assigned does not become a property. -/
def sanitizeEntries : List (String × Value) → List (String × Value) →
    Except Unit (List (String × Value))
  | [], sanitized => .ok sanitized
  | (rawKey, rawValue) :: entries, sanitized =>
    let key := trim rawKey
    if isSensitive key then sanitizeEntries entries sanitized
    else do
      let value ← sanitizePayload rawValue
      sanitizeEntries entries (if key = "__proto__" then sanitized else assign sanitized key value)

end

def isPlain (key : String) : Bool := trim key = key && !isSensitive key && key ≠ "__proto__"

def isContainer : Value → Bool
  | .array _ => true
  | .object _ => true
  | .throwing => true
  | .cyclic => true
  | _ => false

/-- Nowhere inside is there a sensitive key. -/
inductive Clean : Value → Prop
  | leaf {v : Value} (h : isContainer v = false) : Clean v
  | array {vs : List Value} (h : ∀ v ∈ vs, Clean v) : Clean (.array vs)
  | object {entries : List (String × Value)} (enumerated : Enumerated entries)
    (keys : ∀ e ∈ entries, isPlain e.1 = true) (h : ∀ e ∈ entries, Clean e.2) :
    Clean (.object entries)

mutual

/-- The payload without what stands under sensitive keys, but for properties that throw. -/
def withoutSecrets : Value → Value
  | .array vs => .array (withoutSecretsAll vs)
  | .object entries => .object (withoutSecretsEntries entries)
  | v => v

def withoutSecretsAll : List Value → List Value
  | [] => []
  | v :: vs => withoutSecrets v :: withoutSecretsAll vs

def withoutSecretsEntries : List (String × Value) → List (String × Value)
  | [] => []
  | (key, value) :: entries =>
    if isSensitive (trim key) && !value.isThrowing then withoutSecretsEntries entries
    else (key, withoutSecrets value) :: withoutSecretsEntries entries

end

variable {v w : Value} {vs ws : List Value} {entries sanitized out : List (String × Value)}

theorem dropWhile_rdropWhile {p : Char → Bool} {cs : List Char} (h : cs.dropWhile p = cs) :
    (cs.rdropWhile p).dropWhile p = cs.rdropWhile p := by
  obtain ⟨back, hback⟩ := List.rdropWhile_prefix p cs
  cases hfront : cs.rdropWhile p with
  | nil => rfl
  | cons c front =>
    rw [hfront] at hback
    rw [← hback, List.cons_append, List.dropWhile_cons] at h
    rw [List.dropWhile_cons]
    split
    · rename_i hc
      rw [if_pos hc] at h
      have hle := (List.dropWhile_sublist p (l := front ++ back)).length_le
      rw [h, List.length_cons] at hle
      omega
    · rfl

theorem trim_trim (key : String) : trim (trim key) = trim key := by
  have htrim : ∀ cs, X402.Challenge.trim cs = (cs.dropWhile isWhiteSpace).rdropWhile isWhiteSpace :=
    fun _ => rfl
  rw [trim, trim, String.toList_ofList, htrim, htrim,
    dropWhile_rdropWhile (List.dropWhile_idempotent _ _), List.rdropWhile_idempotent]

theorem isPlain_trim {key : String} (hsensitive : isSensitive (trim key) = false)
    (hproto : trim key ≠ "__proto__") : isPlain (trim key) = true := by
  rw [isPlain, trim_trim, hsensitive]
  simpa using hproto

mutual

theorem value_induction {P : Value → Prop} (leaf : ∀ v, isContainer v = false → P v)
    (throwing : P .throwing) (cyclic : P .cyclic)
    (array : ∀ vs, (∀ v ∈ vs, P v) → P (.array vs))
    (object : ∀ entries, (∀ e ∈ entries, P e.2) → P (.object entries)) : ∀ v, P v
  | .array vs => array vs (value_induction_all leaf throwing cyclic array object vs)
  | .object entries =>
    object entries (value_induction_entries leaf throwing cyclic array object entries)
  | .throwing => throwing
  | .cyclic => cyclic
  | .undefined => leaf _ rfl
  | .null => leaf _ rfl
  | .boolean _ => leaf _ rfl
  | .number _ => leaf _ rfl
  | .string _ => leaf _ rfl
  | .bigint => leaf _ rfl
  | .function _ => leaf _ rfl

theorem value_induction_all {P : Value → Prop} (leaf : ∀ v, isContainer v = false → P v)
    (throwing : P .throwing) (cyclic : P .cyclic)
    (array : ∀ vs, (∀ v ∈ vs, P v) → P (.array vs))
    (object : ∀ entries, (∀ e ∈ entries, P e.2) → P (.object entries)) :
    ∀ vs : List Value, ∀ v ∈ vs, P v
  | [] => nofun
  | v :: vs => List.forall_mem_cons.mpr
    ⟨value_induction leaf throwing cyclic array object v,
      value_induction_all leaf throwing cyclic array object vs⟩

theorem value_induction_entries {P : Value → Prop} (leaf : ∀ v, isContainer v = false → P v)
    (throwing : P .throwing) (cyclic : P .cyclic)
    (array : ∀ vs, (∀ v ∈ vs, P v) → P (.array vs))
    (object : ∀ entries, (∀ e ∈ entries, P e.2) → P (.object entries)) :
    ∀ entries : List (String × Value), ∀ e ∈ entries, P e.2
  | [] => nofun
  | (_, v) :: entries => List.forall_mem_cons.mpr
    ⟨value_induction leaf throwing cyclic array object v,
      value_induction_entries leaf throwing cyclic array object entries⟩

end

structure Built (entries : List (String × Value)) : Prop where
  enumerated : Enumerated entries
  keys : ∀ e ∈ entries, isPlain e.1 = true
  values : ∀ e ∈ entries, Clean e.2

theorem sanitize_leaf (h : isContainer v = false) : sanitizePayload v = .ok v := by
  cases v with
  | array => cases h
  | object => cases h
  | throwing => cases h
  | cyclic => cases h
  | _ =>
    rw [sanitizePayload]
    all_goals simp

theorem built_nil : Built [] := ⟨enumerated_nil, nofun, nofun⟩

theorem Built.assign (h : Built sanitized) {key : String} {value : Value}
    (hkey : isPlain key = true) (hvalue : Clean value) : Built (assign sanitized key value) := by
  refine ⟨assign_enumerated h.enumerated key value, fun e he => ?_, fun e he => ?_⟩
  · obtain he | rfl := mem_assign he
    · exact h.keys e he
    · exact hkey
  · obtain he | rfl := mem_assign he
    · exact h.values e he
    · exact hvalue

theorem clean_sanitizeAll (hclean : ∀ v ∈ vs, ∀ w, sanitizePayload v = .ok w → Clean w)
    (h : sanitizeAll vs = .ok ws) : ∀ w ∈ ws, Clean w := by
  induction vs generalizing ws with
  | nil =>
    rw [sanitizeAll] at h
    cases h
    exact nofun
  | cons v vs ih =>
    rw [sanitizeAll, bind_eq_ok] at h
    obtain ⟨w, hw, h⟩ := h
    rw [bind_eq_ok] at h
    obtain ⟨rest, hrest, heq⟩ := h
    cases heq
    rw [List.forall_mem_cons] at hclean
    exact List.forall_mem_cons.mpr ⟨hclean.1 w hw, ih hclean.2 hrest⟩

theorem sanitizeEntries_cons (rawKey : String) (rawValue : Value) :
    sanitizeEntries ((rawKey, rawValue) :: entries) sanitized =
      if isSensitive (trim rawKey) then sanitizeEntries entries sanitized
      else sanitizePayload rawValue >>= fun value => sanitizeEntries entries
        (if trim rawKey = "__proto__" then sanitized
          else assign sanitized (trim rawKey) value) := by
  rw [sanitizeEntries]

theorem clean_sanitizeEntries
    (hclean : ∀ e ∈ entries, ∀ w, sanitizePayload e.2 = .ok w → Clean w) (hbuilt : Built sanitized)
    (h : sanitizeEntries entries sanitized = .ok out) : Built out := by
  induction entries generalizing sanitized with
  | nil =>
    rw [sanitizeEntries] at h
    cases h
    exact hbuilt
  | cons e entries ih =>
    obtain ⟨rawKey, rawValue⟩ := e
    rw [List.forall_mem_cons] at hclean
    rw [sanitizeEntries_cons] at h
    split at h
    · exact ih hclean.2 hbuilt h
    · rename_i hsensitive
      rw [Bool.not_eq_true] at hsensitive
      rw [bind_eq_ok] at h
      obtain ⟨value, hvalue, h⟩ := h
      refine ih hclean.2 ?_ h
      split
      · exact hbuilt
      · rename_i hproto
        exact hbuilt.assign (isPlain_trim hsensitive hproto) (hclean.1 value hvalue)

theorem clean_sanitizePayload (h : sanitizePayload v = .ok w) : Clean w := by
  induction v using value_induction generalizing w with
  | leaf v hleaf =>
    rw [sanitize_leaf hleaf] at h
    cases h
    exact .leaf hleaf
  | throwing =>
    rw [sanitizePayload] at h
    cases h
  | cyclic =>
    rw [sanitizePayload] at h
    cases h
  | array vs ih =>
    rw [sanitizePayload, bind_eq_ok] at h
    obtain ⟨ws, hws, heq⟩ := h
    cases heq
    exact .array (clean_sanitizeAll (fun v hv w hw => ih v hv hw) hws)
  | object entries ih =>
    rw [sanitizePayload, bind_eq_ok] at h
    obtain ⟨-, -, h⟩ := h
    rw [bind_eq_ok] at h
    obtain ⟨out, hout, heq⟩ := h
    cases heq
    have hbuilt := clean_sanitizeEntries (fun e he w hw => ih e he hw) built_nil hout
    exact .object hbuilt.enumerated hbuilt.keys hbuilt.values

theorem isPlain_iff {key : String} : isPlain key = true ↔
    trim key = key ∧ isSensitive key = false ∧ key ≠ "__proto__" := by
  simp [isPlain, and_assoc]

theorem isThrowing_of_clean (h : Clean v) : v.isThrowing = false := by
  cases h with
  | leaf h => cases v <;> first | rfl | cases h
  | array => rfl
  | object => rfl

theorem entriesReadable_of_clean (h : ∀ e ∈ entries, Clean e.2) :
    entriesReadable entries = .ok () := by
  have hany : entries.any (fun e => e.2.isThrowing) = false := by
    rw [List.any_eq_false]
    intro e he
    rw [isThrowing_of_clean (h e he)]
    exact Bool.false_ne_true
  rw [entriesReadable, hany]
  rfl

theorem sanitizeAll_fixed (h : ∀ v ∈ vs, sanitizePayload v = .ok v) : sanitizeAll vs = .ok vs := by
  induction vs with
  | nil => rw [sanitizeAll]
  | cons v vs ih =>
    rw [List.forall_mem_cons] at h
    rw [sanitizeAll, h.1, ih h.2]
    rfl

theorem sanitizeEntries_fixed (henumerated : Enumerated (sanitized ++ entries))
    (hkeys : ∀ e ∈ entries, isPlain e.1 = true)
    (h : ∀ e ∈ entries, sanitizePayload e.2 = .ok e.2) :
    sanitizeEntries entries sanitized = .ok (sanitized ++ entries) := by
  induction entries generalizing sanitized with
  | nil => rw [sanitizeEntries, List.append_nil]
  | cons e entries ih =>
    obtain ⟨key, value⟩ := e
    rw [List.forall_mem_cons] at hkeys h
    obtain ⟨htrim, hsensitive, hproto⟩ := isPlain_iff.mp hkeys.1
    rw [List.append_cons] at henumerated
    have hfront : Enumerated (sanitized ++ [(key, value)]) := by
      obtain ⟨hdistinct, hordered⟩ := henumerated
      rw [List.map_append] at hdistinct hordered
      exact ⟨(List.nodup_append.mp hdistinct).1, (List.pairwise_append.mp hordered).1⟩
    dsimp only at htrim hsensitive hproto h
    have hstep : sanitizeEntries ((key, value) :: entries) sanitized =
        sanitizeEntries entries (sanitized ++ [(key, value)]) := by
      rw [sanitizeEntries_cons, htrim, if_neg (by rw [hsensitive]; exact Bool.false_ne_true), h.1]
      dsimp only [bind, Except.bind]
      rw [if_neg hproto, assign_concat hfront]
    rw [hstep, ih henumerated hkeys.2 h.2, List.append_assoc]
    rfl

theorem sanitizePayload_fixed (h : Clean v) : sanitizePayload v = .ok v := by
  induction h with
  | leaf h => exact sanitize_leaf h
  | array _ ih =>
    rw [sanitizePayload, sanitizeAll_fixed ih]
    rfl
  | @object entries enumerated keys h ih =>
    rw [sanitizePayload, entriesReadable_of_clean h]
    have hfixed : sanitizeEntries entries [] = .ok entries :=
      sanitizeEntries_fixed enumerated keys ih
    dsimp only [bind, Except.bind]
    rw [hfixed]
    rfl

theorem sanitizeAll_total (h : ∀ v ∈ vs, ∃ w, sanitizePayload v = .ok w) :
    ∃ ws, sanitizeAll vs = .ok ws := by
  induction vs with
  | nil => exact ⟨[], by rw [sanitizeAll]⟩
  | cons v vs ih =>
    rw [List.forall_mem_cons] at h
    obtain ⟨w, hw⟩ := h.1
    obtain ⟨ws, hws⟩ := ih h.2
    rw [sanitizeAll, hw, hws]
    exact ⟨w :: ws, rfl⟩

theorem sanitizeEntries_total (h : ∀ e ∈ entries, ∃ w, sanitizePayload e.2 = .ok w)
    (sanitized : List (String × Value)) : ∃ out, sanitizeEntries entries sanitized = .ok out := by
  induction entries generalizing sanitized with
  | nil => exact ⟨sanitized, by rw [sanitizeEntries]⟩
  | cons e entries ih =>
    obtain ⟨rawKey, rawValue⟩ := e
    rw [List.forall_mem_cons] at h
    obtain ⟨w, hw⟩ := h.1
    rw [sanitizeEntries_cons]
    split
    · exact ih h.2 sanitized
    · rw [hw]
      exact ih h.2 _

theorem sanitizePayload_total (h : v.finite = true) : ∃ w, sanitizePayload v = .ok w := by
  induction v using value_induction with
  | leaf v hleaf => exact ⟨v, sanitize_leaf hleaf⟩
  | throwing => rw [Value.finite] at h; cases h
  | cyclic => rw [Value.finite] at h; cases h
  | array vs ih =>
    rw [Value.finite, Causes.finiteAll_iff] at h
    obtain ⟨ws, hws⟩ := sanitizeAll_total fun v hv => ih v hv (h v hv)
    rw [sanitizePayload, hws]
    exact ⟨.array ws, rfl⟩
  | object entries ih =>
    rw [Value.finite] at h
    obtain ⟨out, hout⟩ := sanitizeEntries_total
      (fun e he => ih e he (Causes.finiteEntries_iff.mp h e he)) []
    rw [sanitizePayload, entriesReadable_of_finite h]
    refine ⟨.object out, ?_⟩
    dsimp only [bind, Except.bind]
    rw [hout]
    rfl

/-- The payloads that are logged are the clean ones, and those stay as they are; one without
cycles and properties that throw is always logged. -/
theorem payloads_sanitized (w : Value) :
    (Clean w ↔ sanitizePayload w = .ok w) ∧ (Clean w ↔ ∃ v, sanitizePayload v = .ok w) ∧
      (w.finite = true → ∃ v, sanitizePayload w = .ok v ∧ Clean v) := by
  refine ⟨⟨sanitizePayload_fixed, clean_sanitizePayload⟩,
    ⟨fun h => ⟨w, sanitizePayload_fixed h⟩, fun ⟨v, h⟩ => clean_sanitizePayload h⟩, fun h => ?_⟩
  obtain ⟨v, hv⟩ := sanitizePayload_total h
  exact ⟨v, hv, clean_sanitizePayload hv⟩

theorem sanitizeAll_withoutSecrets
    (h : ∀ v ∈ vs, sanitizePayload (withoutSecrets v) = sanitizePayload v) :
    sanitizeAll (withoutSecretsAll vs) = sanitizeAll vs := by
  induction vs with
  | nil => rw [withoutSecretsAll]
  | cons v vs ih =>
    rw [List.forall_mem_cons] at h
    rw [withoutSecretsAll, sanitizeAll, sanitizeAll, h.1, ih h.2]

theorem isThrowing_withoutSecrets (v : Value) :
    (withoutSecrets v).isThrowing = v.isThrowing := by
  cases v with
  | array => rw [withoutSecrets]; rfl
  | object => rw [withoutSecrets]; rfl
  | _ =>
    rw [withoutSecrets]
    all_goals simp

theorem withoutSecretsEntries_cons (key : String) (value : Value) :
    withoutSecretsEntries ((key, value) :: entries) =
      if isSensitive (trim key) && !value.isThrowing then withoutSecretsEntries entries
      else (key, withoutSecrets value) :: withoutSecretsEntries entries := by
  rw [withoutSecretsEntries]

theorem entriesReadable_withoutSecrets (entries : List (String × Value)) :
    entriesReadable (withoutSecretsEntries entries) = entriesReadable entries := by
  have hany : (withoutSecretsEntries entries).any (fun e => e.2.isThrowing) =
      entries.any fun e => e.2.isThrowing := by
    induction entries with
    | nil => rw [withoutSecretsEntries]
    | cons e entries ih =>
      obtain ⟨key, value⟩ := e
      rw [withoutSecretsEntries_cons, List.any_cons]
      split
      · rename_i hdropped
        rw [Bool.and_eq_true, Bool.not_eq_true'] at hdropped
        rw [hdropped.2, Bool.false_or, ih]
      · rw [List.any_cons, isThrowing_withoutSecrets, ih]
  rw [entriesReadable, entriesReadable, hany]

theorem sanitizeEntries_withoutSecrets
    (h : ∀ e ∈ entries, sanitizePayload (withoutSecrets e.2) = sanitizePayload e.2)
    (sanitized : List (String × Value)) :
    sanitizeEntries (withoutSecretsEntries entries) sanitized =
      sanitizeEntries entries sanitized := by
  induction entries generalizing sanitized with
  | nil => rw [withoutSecretsEntries]
  | cons e entries ih =>
    obtain ⟨key, value⟩ := e
    rw [List.forall_mem_cons] at h
    rw [withoutSecretsEntries_cons, sanitizeEntries_cons]
    split
    · rename_i hdropped
      rw [Bool.and_eq_true] at hdropped
      rw [if_pos hdropped.1, ih h.2]
    · rw [sanitizeEntries_cons, h.1]
      split
      · exact ih h.2 sanitized
      · refine congrArg _ (funext fun w => ih h.2 _)

theorem sanitizePayload_withoutSecrets (v : Value) :
    sanitizePayload (withoutSecrets v) = sanitizePayload v := by
  induction v using value_induction with
  | leaf v hleaf =>
    have hself : withoutSecrets v = v := by
      cases v with
      | array => cases hleaf
      | object => cases hleaf
      | _ =>
        rw [withoutSecrets]
        all_goals simp
    rw [hself]
  | throwing =>
    rw [withoutSecrets]
    all_goals simp
  | cyclic =>
    rw [withoutSecrets]
    all_goals simp
  | array vs ih =>
    rw [withoutSecrets, sanitizePayload, sanitizePayload, sanitizeAll_withoutSecrets ih]
  | object entries ih =>
    rw [withoutSecrets, sanitizePayload, sanitizePayload, entriesReadable_withoutSecrets,
      sanitizeEntries_withoutSecrets ih]

end PayFi.Agent.Payload
