import PayFi.Library.Base64
import PayFi.Tools.FeeBump
import PayFi.Tools.PaymentSchema

namespace PayFi.Tools.XdrPayload

open Library.Base64 Network.Submission Payment FeeBump

theorem toNat_of_mem_alphabet {c : Char} (h : c ∈ alphabet) : c.toNat < 128 := by
  have hall : (alphabet.all fun c => c.toNat < 128) = true := by decide +kernel
  exact of_decide_eq_true (List.all_eq_true.mp hall c h)

theorem toNat_of_isBase64Char {c : Char} (h : isBase64Char c = true) : c.toNat < 128 := by
  simp only [isBase64Char, Bool.or_eq_true, decide_eq_true_eq] at h
  obtain (h | rfl) | rfl := h
  · delta Char.isAlphanum Char.isAlpha Char.isUpper Char.isLower Char.isDigit at h
    simp only [Bool.or_eq_true, Bool.and_eq_true, decide_eq_true_eq] at h
    obtain (⟨-, h⟩ | ⟨-, h⟩) | ⟨-, h⟩ := h
    · exact lt_of_le_of_lt (UInt32.le_iff_toNat_le.mp h) (by decide)
    · exact lt_of_le_of_lt (UInt32.le_iff_toNat_le.mp h) (by decide)
    · exact lt_of_le_of_lt (UInt32.le_iff_toNat_le.mp h) (by decide)
  · decide
  · decide

theorem isBase64Char_eq (c : Char) : isBase64Char c = isDigit c := by
  by_cases hc : c.toNat < 128
  · have hall : ∀ n : Fin 128, isBase64Char (Char.ofNat n) = isDigit (Char.ofNat n) := by
      decide +kernel
    have h := hall ⟨c.toNat, hc⟩
    rwa [Char.ofNat_toNat] at h
  · have hleft : isBase64Char c = false := by
      rw [← Bool.not_eq_true]
      exact fun h => hc (toNat_of_isBase64Char h)
    have hright : isDigit c = false := by
      rw [← Bool.not_eq_true]
      exact fun h => hc (toNat_of_mem_alphabet (List.contains_iff_mem.mp h))
    rw [hleft, hright]

theorem isBase64_eq (s : String) : FeeBump.isBase64 s = Library.Base64.isBase64 s.toList := by
  rw [FeeBump.isBase64, Library.Base64.isBase64, funext isBase64Char_eq, List.contains_eq_mem]

theorem jsLength_of_ascii {s : String} (h : ∀ c ∈ s.toList, c.toNat < 128) :
    jsLength s = s.toList.length := by
  have hone : ∀ c ∈ s.toList, (if c.toNat < 0x10000 then 1 else 2) = 1 := by
    intro c hc
    have hlt := h c hc
    exact if_pos (by omega)
  rw [jsLength, List.map_congr_left hone, List.map_const', List.sum_replicate_nat, mul_one]

theorem jsLength_of_isBase64 {s : String} (h : FeeBump.isBase64 s = true) :
    jsLength s = s.toList.length := by
  rw [isBase64_eq, Library.Base64.isBase64, Bool.and_eq_true, decide_eq_true_eq,
    List.contains_iff_mem] at h
  refine jsLength_of_ascii fun c hc => ?_
  rw [← List.takeWhile_append_dropWhile (p := isDigit) (l := s.toList)] at hc
  obtain hc | hc := List.mem_append.mp hc
  · exact toNat_of_mem_alphabet (List.contains_iff_mem.mp (List.mem_takeWhile_imp hc))
  · have hall : ∀ pad ∈ [[], ['='], ['=', '=']], (pad.all fun c => c.toNat < 128) = true := by
      decide
    exact of_decide_eq_true (List.all_eq_true.mp (hall _ h.2) c hc)

def emptyPayload : Fault := .error "XDR payload must not be empty"

def oversized : Fault :=
  .error ("Payload exceeds maximum XDR size of " ++ toString maxXdrBytes ++ " bytes")

def malformed : Fault := .error "Invalid base64 encoding"

theorem validateXDR_eq (s : String) :
    validateXDR s =
      if jsLength s = 0 then .error emptyPayload
      else if maxXdrBytes < jsLength s then .error oversized
      else if FeeBump.isBase64 s then .ok () else .error malformed := by
  rw [validateXDR]
  by_cases hempty : jsLength s = 0
  · have hissue : ensure (1 ≤ jsLength s) [] "XDR payload must not be empty" =
        [⟨[], "XDR payload must not be empty"⟩] := if_neg (by rw [hempty]; decide)
    rw [hissue, if_pos hempty]
    rfl
  · have hnone : ensure (1 ≤ jsLength s) [] "XDR payload must not be empty" = [] :=
      if_pos (decide_eq_true (Nat.pos_of_ne_zero hempty))
    rw [hnone, if_neg hempty]
    by_cases hlong : maxXdrBytes < jsLength s
    · have hissue (text : String) : ensure (jsLength s ≤ maxXdrBytes) [] text = [⟨[], text⟩] :=
        if_neg (by simpa using hlong)
      rw [hissue, if_pos hlong]
      rfl
    · have hnone (text : String) : ensure (jsLength s ≤ maxXdrBytes) [] text = [] :=
        if_pos (by simpa using hlong)
      rw [hnone, if_neg hlong]
      cases FeeBump.isBase64 s with
      | true => rfl
      | false => rfl

theorem validateXDR_ok_iff (s : String) :
    validateXDR s = .ok () ↔ Library.Base64.isBase64 s.toList = true ∧
      1 ≤ (decode s.toList).length ∧ (decode s.toList).length ≤ 49152 := by
  rw [validateXDR_eq]
  cases hform : FeeBump.isBase64 s with
  | false =>
    rw [← isBase64_eq, hform]
    refine iff_of_false (fun h => ?_) nofun
    split at h
    · cases h
    · split at h
      · cases h
      · cases h
  | true =>
    have hlength := length_encode_decode (isBase64_eq s ▸ hform)
    rw [length_encode, ← jsLength_of_isBase64 hform] at hlength
    rw [← isBase64_eq, hform]
    split
    · refine iff_of_false nofun fun h => ?_
      omega
    · split
      · rename_i hlong
        refine iff_of_false nofun fun h => ?_
        rw [maxXdrBytes] at hlong
        omega
      · rename_i hlong
        refine iff_of_true rfl ⟨rfl, ?_⟩
        rw [maxXdrBytes] at hlong
        omega

/-- What `submitTransaction` throws before its first attempt, if anything. -/
def refusal (envelope : List UInt8) : Option Fault :=
  match validateXDR (String.ofList (encode envelope)) with
  | .ok _ => none
  | .error e => some e

variable {Op : Type}

/-- A submission by the bytes of its signed envelope. -/
def submitEnvelope (retries : ℕ) (envelope : List UInt8) (attempts : ℕ → Attempt)
    (tx : Transaction Op) (l : Ledger Op) : Except Fault SubmitResult × Ledger Op :=
  submitTransaction retries ⟨refusal envelope, attempts⟩ tx l

theorem validateXDR_encode (envelope : List UInt8) :
    validateXDR (String.ofList (encode envelope)) =
      if envelope = [] then .error emptyPayload
      else if envelope.length ≤ 49152 then .ok () else .error oversized := by
  have hform : FeeBump.isBase64 (String.ofList (encode envelope)) = true := by
    rw [isBase64_eq, String.toList_ofList]
    exact isBase64_encode envelope
  have hlength : jsLength (String.ofList (encode envelope)) = (envelope.length + 2) / 3 * 4 := by
    rw [jsLength_of_isBase64 hform, String.toList_ofList, length_encode]
  rw [validateXDR_eq, hlength, hform, maxXdrBytes, if_pos rfl]
  by_cases hempty : envelope = []
  · rw [if_pos hempty, hempty]
    rfl
  · have hpos := List.length_pos_of_ne_nil hempty
    rw [if_neg hempty, if_neg (by omega)]
    by_cases hshort : envelope.length ≤ 49152
    · rw [if_pos hshort, if_neg (by omega)]
    · rw [if_neg hshort, if_pos (by omega)]

/-- A text is taken for XDR exactly when it is base64 of at least one byte and of 49,152 bytes at
most. So an envelope of that size always goes out, under the text that it can be read back from;
and a larger one is refused before the network hears of it. -/
theorem envelopes_submitted (retries : ℕ) :
    (∀ s, validateXDR s = .ok () ↔ Library.Base64.isBase64 s.toList = true ∧
      1 ≤ (decode s.toList).length ∧ (decode s.toList).length ≤ 49152) ∧
    ∀ envelope attempts (tx : Transaction Op) l,
      decode (encode envelope) = envelope ∧
      submitEnvelope retries envelope attempts tx l =
        if envelope = [] then (.error emptyPayload, l)
        else if envelope.length ≤ 49152 then
          withRetry retries (fun k => (attempts k).throttled) (fun k => send tx (attempts k)) l
        else (.error oversized, l) := by
  refine ⟨validateXDR_ok_iff, fun envelope attempts tx l => ⟨decode_encode envelope, ?_⟩⟩
  rw [submitEnvelope, submitTransaction, refusal, validateXDR_encode]
  by_cases hempty : envelope = []
  · simp only [if_pos hempty]
  · by_cases hshort : envelope.length ≤ 49152
    · simp only [if_neg hempty, if_pos hshort]
    · simp only [if_neg hempty, if_neg hshort]

end PayFi.Tools.XdrPayload
