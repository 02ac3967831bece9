import PayFi.Library.Decimals
import PayFi.Tools.Payment

namespace PayFi.Tools.PaymentSchema

open Library.Numbers Library.Decimals Library.Results Network.Submission Spending.Guard Payment

/-- A result has an issue with a field. -/
def Objects {Input : Type} (path : List String) : Except (List Issue) Input → Prop
  | .error issues => ∃ i ∈ issues, i.path = path
  | .ok _ => False

/-- A decimal of at most seven places that is greater than zero. -/
def IsAmount (s : String) : Prop :=
  ∃ n : Numeral, s.toList = n.text ∧ n.fraction.length ≤ 7 ∧ 0 < n.value

theorem isZero_iff {cs : List Char} : isZero cs = true ↔ ∃ k, cs = zeros 1 k := by
  constructor
  · intro h
    unfold isZero at h
    split at h
    · exact ⟨0, rfl⟩
    · rename_i ds
      rw [Bool.and_eq_true, decide_eq_true_eq, List.all_eq_true] at h
      obtain ⟨hne, hds⟩ := h
      have hzeros : ds = List.replicate ds.length '0' :=
        List.eq_replicate_of_mem fun c hc => of_decide_eq_true (hds c hc)
      refine ⟨ds.length, ?_⟩
      rw [zeros, ← hzeros, point, if_neg hne]
      rfl
    · cases h
  · rintro ⟨k, rfl⟩
    cases k with
    | zero => rfl
    | succ k =>
      have hpoint : point (List.replicate (k + 1) '0') =
          '.' :: List.replicate (k + 1) '0' := rfl
      rw [zeros, hpoint]
      simp [isZero]

theorem amountIssues_iff {s : String} : amountIssues (some s) = [] ↔ IsAmount s := by
  simp only [amountIssues, List.append_eq_nil_iff, ensure_eq_nil, Bool.and_eq_true,
    Bool.not_eq_true', isDecimal_iff]
  constructor
  · rintro ⟨⟨⟨n, hs, hlength⟩, -⟩, hpos⟩
    rw [parseFloat_text hs] at hpos
    exact ⟨n, hs, hlength, of_decide_eq_true hpos⟩
  · rintro ⟨n, hs, hlength, hpos⟩
    refine ⟨⟨⟨n, hs, hlength⟩, Bool.eq_false_iff.mpr fun hzero => ?_⟩, ?_⟩
    · obtain ⟨k, hk⟩ := isZero_iff.mp hzero
      exact (value_pos_of_ne_zeros n).mp hpos 1 k le_rfl (hs.symm.trans hk)
    · rw [parseFloat_text hs]
      exact decide_eq_true hpos

theorem path_of_mem_ensure {holds : Bool} {path : List String} {message : String} {i : Issue}
    (h : i ∈ ensure holds path message) : i.path = path := by
  unfold ensure at h
  split at h
  · cases h
  · rw [List.mem_singleton.mp h]

theorem path_amountIssues {amount : Option String} {i : Issue} (h : i ∈ amountIssues amount) :
    i.path = ["amount"] := by
  cases amount with
  | none => rw [List.mem_singleton.mp h]
  | some s => exact (List.mem_append.mp h).elim path_of_mem_ensure path_of_mem_ensure

theorem path_destinationIssues {sdk : Sdk} {destination : Option String} {i : Issue}
    (h : i ∈ destinationIssues sdk destination) : i.path = ["destination"] := by
  cases destination with
  | none => rw [List.mem_singleton.mp h]
  | some d => exact (List.mem_append.mp h).elim path_of_mem_ensure path_of_mem_ensure

theorem path_memoValueIssues {memo : Option MemoValue} {i : Issue}
    (h : i ∈ memoValueIssues memo) : i.path = ["memo"] := by
  unfold memoValueIssues at h
  split at h
  · rw [List.mem_singleton.mp h]
  · cases h

theorem path_memoIssues {memoType : MemoType} {memo : Option MemoValue} {i : Issue}
    (h : i ∈ memoIssues memoType memo) : i.path = ["memo"] := by
  unfold memoIssues at h
  split at h
  · exact path_of_mem_ensure h
  · cases h

/-- What the schema finds in an input: nothing at all, or the issues of the amount among those
of other fields. -/
theorem paymentInputSchema_cases (sdk : Sdk) (raw : RawPayment) :
    (∃ input, paymentInputSchema sdk raw = .ok input ∧ amountIssues raw.amount = []) ∨
      ∃ before after,
        paymentInputSchema sdk raw = .error (before ++ amountIssues raw.amount ++ after) ∧
          ∀ i ∈ before ++ after, i.path ≠ ["amount"] := by
  have hbefore : ∀ i ∈ destinationIssues sdk raw.destination, i.path ≠ ["amount"] := by
    intro i hi
    rw [path_destinationIssues hi]
    decide
  have hafter : ∀ i ∈ memoTypeIssues raw.memoType ++ memoValueIssues raw.memo,
      i.path ≠ ["amount"] := by
    intro i hi
    obtain hi | hi := List.mem_append.mp hi
    · rw [path_of_mem_ensure hi]
      decide
    · rw [path_memoValueIssues hi]
      decide
  have hmemo : ∀ memoType, ∀ i ∈ memoIssues memoType raw.memo, i.path ≠ ["amount"] := by
    intro memoType i hi
    rw [path_memoIssues hi]
    decide
  simp only [paymentInputSchema]
  split
  · rename_i memoType hd ha ht
    split
    · rename_i hissues
      simp only [List.append_eq_nil_iff] at hissues
      exact .inl ⟨_, rfl, hissues.1.1.1.2⟩
    · refine .inr ⟨destinationIssues sdk raw.destination,
        memoTypeIssues raw.memoType ++ memoValueIssues raw.memo ++ memoIssues memoType raw.memo,
        congrArg _ (by simp only [List.append_assoc]), ?_⟩
      refine List.forall_mem_append.mpr ⟨hbefore, ?_⟩
      exact List.forall_mem_append.mpr ⟨hafter, hmemo memoType⟩
  · refine .inr ⟨destinationIssues sdk raw.destination,
      memoTypeIssues raw.memoType ++ memoValueIssues raw.memo,
      congrArg _ (by simp only [List.append_assoc]), ?_⟩
    exact List.forall_mem_append.mpr ⟨hbefore, hafter⟩

theorem objects_amount_iff (sdk : Sdk) (raw : RawPayment) :
    Objects ["amount"] (paymentInputSchema sdk raw) ↔ amountIssues raw.amount ≠ [] := by
  obtain ⟨input, hok, hnil⟩ | ⟨before, after, herror, hother⟩ := paymentInputSchema_cases sdk raw
  · rw [hok]
    exact iff_of_false id fun h => h hnil
  · rw [herror]
    constructor
    · rintro ⟨i, hi, hpath⟩ hnil
      rw [hnil, List.append_nil] at hi
      exact hother i hi hpath
    · intro hne
      obtain ⟨i, hi⟩ := List.exists_mem_of_ne_nil _ hne
      exact ⟨i, List.mem_append_left after (List.mem_append_right before hi), path_amountIssues hi⟩

/-- The amounts that the schema accepts, next to whatever fields. -/
theorem amount_accepted_iff (sdk : Sdk) (raw : RawPayment) (amount : String) :
    ¬Objects ["amount"] (paymentInputSchema sdk { raw with amount := some amount }) ↔
      IsAmount amount := by
  rw [objects_amount_iff, not_not]
  exact amountIssues_iff

def isHexChar (c : Char) : Bool :=
  c.isDigit || ('a' ≤ c && c ≤ 'f') || ('A' ≤ c && c ≤ 'F')

/-- The 64 hex digits of 32 bytes, with or without `0x` in front. -/
def IsHash (s : String) : Prop :=
  ∃ ds : List Char, ds.length = 64 ∧ (∀ c ∈ ds, isHexChar c = true) ∧
    (s.toList = ds ∨ s.toList = '0' :: 'x' :: ds)

/-- The memos of a type that can be put into a transaction. -/
inductive Fits : MemoType → Option MemoValue → Prop
  | absent (memoType : MemoType) : Fits memoType none
  | text (s : String) : Fits .text (some (.string s))
  | id (n : ℕ) (h : n < 2 ^ 64) : Fits .id (some (.number (.finite n)))
  | hash (s : String) (h : IsHash s) : Fits .hash (some (.string s))
  | ret (s : String) (h : IsHash s) : Fits .ret (some (.string s))

variable {sdk : Sdk} {raw : RawPayment} {input : PaymentInput} {v : MemoValue} {s : String}

theorem toNat_le_of_isHexChar {c : Char} (h : isHexChar c = true) : c.toNat ≤ 102 := by
  simp only [isHexChar, Char.isDigit, Bool.or_eq_true, Bool.and_eq_true, decide_eq_true_eq] at h
  obtain (⟨-, h⟩ | ⟨-, h⟩) | ⟨-, h⟩ := h
  · exact (UInt32.le_iff_toNat_le.mp h).trans (by decide)
  · exact (UInt32.le_iff_toNat_le.mp h).trans (by decide)
  · exact (UInt32.le_iff_toNat_le.mp h).trans (by decide)

theorem jsLength_of_isHex (h : isHex s = true) : jsLength s = s.toList.length := by
  have hone : ∀ c ∈ s.toList, (if c.toNat < 0x10000 then 1 else 2) = 1 := by
    intro c hc
    have hle := toNat_le_of_isHexChar (List.all_eq_true.mp h c hc)
    exact if_pos (by omega)
  rw [jsLength, List.map_congr_left hone, List.map_const', List.sum_replicate_nat, mul_one]

theorem stripHexPrefix_cases (s : String) :
    (∃ ds, s.toList = '0' :: 'x' :: ds ∧ (stripHexPrefix s).toList = ds) ∨
      ((∀ ds, s.toList ≠ '0' :: 'x' :: ds) ∧ stripHexPrefix s = s) := by
  unfold stripHexPrefix
  split
  · rename_i ds hs
    exact .inl ⟨ds, hs, String.toList_ofList⟩
  · rename_i hs
    exact .inr ⟨hs, rfl⟩

theorem isHash_iff :
    IsHash s ↔ jsLength (stripHexPrefix s) = 64 ∧ isHex (stripHexPrefix s) = true := by
  have hlength : ∀ t : String, jsLength t = 64 ∧ isHex t = true ↔
      t.toList.length = 64 ∧ ∀ c ∈ t.toList, isHexChar c = true := by
    intro t
    rw [← List.all_eq_true]
    exact and_congr_left fun ht => by rw [jsLength_of_isHex ht]
  rw [hlength]
  obtain ⟨ds, hs, hstrip⟩ | ⟨hs, hstrip⟩ := stripHexPrefix_cases s
  · rw [hstrip]
    constructor
    · rintro ⟨es, hes, hall, htext | htext⟩
      · -- an `x` is no hex digit
        have hx := hall 'x' (by rw [← htext, hs]; simp)
        cases hx
      · rw [hs] at htext
        cases htext
        exact ⟨hes, hall⟩
    · rintro ⟨hds, hall⟩
      exact ⟨ds, hds, hall, .inr hs⟩
  · rw [hstrip]
    constructor
    · rintro ⟨es, hes, hall, rfl | htext⟩
      · exact ⟨hes, hall⟩
      · exact absurd htext (hs es)
    · rintro ⟨hds, hall⟩
      exact ⟨s.toList, hds, hall, .inl rfl⟩

theorem hexMemo_ok_iff {name : String} :
    (∃ hex, hexMemo name v = .ok hex) ↔ ∃ s, v = .string s ∧ IsHash s := by
  cases v with
  | number n => exact iff_of_false nofun nofun
  | string s =>
    have hstring : (∃ s', MemoValue.string s = .string s' ∧ IsHash s') ↔ IsHash s := by
      simp only [MemoValue.string.injEq, exists_eq_left']
    rw [hstring, isHash_iff, hexMemo]
    by_cases hlength : jsLength (stripHexPrefix s) = 64
    · by_cases hhex : isHex (stripHexPrefix s) = true
      · simp [hlength, hhex]
      · simp [hlength, hhex]
    · simp [hlength]

theorem idMemo_ok_iff {numberText : Number → String} :
    (∃ text, idMemo numberText v = .ok text) ↔ ∃ m : ℕ, v = .number (.finite m) ∧ m < 2 ^ 64 := by
  match v with
  | .number (.finite q) =>
    rw [idMemo]
    constructor
    · rintro ⟨text, h⟩
      split at h
      · cases h
      · rename_i hden
        split at h
        · cases h
        · rename_i hrange
          simp only [not_or, not_lt] at hrange
          have hnum : ((q.num.toNat : ℕ) : ℤ) = q.num := Int.toNat_of_nonneg hrange.1
          refine ⟨q.num.toNat, congrArg (fun r => MemoValue.number (.finite r)) ?_,
            by omega⟩
          calc q = ((q.num : ℤ) : ℚ) := (Rat.coe_int_num_of_den_eq_one (not_not.mp hden)).symm
            _ = (((q.num.toNat : ℕ) : ℤ) : ℚ) := by rw [hnum]
            _ = ((q.num.toNat : ℕ) : ℚ) := Int.cast_natCast _
    · rintro ⟨m, h, hm⟩
      cases h
      have hrange : ¬((m : ℚ).num < 0 ∨ 18446744073709551615 < (m : ℚ).num) := by
        rw [Rat.num_natCast]
        omega
      rw [if_neg (not_not.mpr (Rat.den_natCast m)), if_neg hrange]
      exact ⟨_, rfl⟩
  | .number .nan | .number (.infinity _) | .string _ => exact iff_of_false nofun nofun

theorem textMemo_ok_iff (hshort : ∀ s, v = .string s → byteLength s ≤ 28) :
    (∃ text, textMemo v = .ok text) ↔ ∃ s, v = .string s := by
  cases v with
  | number n => exact iff_of_false nofun nofun
  | string s => exact iff_of_true ⟨s, if_neg (not_lt.mpr (hshort s rfl))⟩ ⟨s, rfl⟩

theorem fits_iff {memoType : MemoType} : Fits memoType (some v) ↔
    match memoType with
    | .text => ∃ s, v = .string s
    | .id => ∃ m : ℕ, v = .number (.finite m) ∧ m < 2 ^ 64
    | .hash | .ret => ∃ s, v = .string s ∧ IsHash s := by
  constructor
  · intro h
    cases h with
    | text s => exact ⟨s, rfl⟩
    | id n hn => exact ⟨n, rfl, hn⟩
    | hash s hs => exact ⟨s, rfl, hs⟩
    | ret s hs => exact ⟨s, rfl, hs⟩
  · intro h
    cases memoType with
    | text =>
      obtain ⟨s, rfl⟩ := h
      exact .text s
    | id =>
      obtain ⟨n, rfl, hn⟩ := h
      exact .id n hn
    | hash =>
      obtain ⟨s, rfl, hs⟩ := h
      exact .hash s hs
    | ret =>
      obtain ⟨s, rfl, hs⟩ := h
      exact .ret s hs

theorem map_ok_iff {x : Except Fault String} {f : String → Option Memo} :
    (∃ memo, x.map f = .ok memo) ↔ ∃ text, x = .ok text := by
  cases x with
  | error e => exact iff_of_false nofun nofun
  | ok text => exact iff_of_true ⟨f text, rfl⟩ ⟨text, rfl⟩

theorem byteLength_le (h : paymentInputSchema sdk raw = .ok input) (ht : input.memoType = .text)
    (hs : input.memo = some (.string s)) : byteLength s ≤ 28 := by
  simp only [paymentInputSchema] at h
  split at h
  · split at h
    · rename_i hissues
      cases h
      dsimp only at ht hs
      rw [ht, hs, List.append_eq_nil_iff, memoIssues, ensure_eq_nil] at hissues
      exact of_decide_eq_true hissues.2
    · cases h
  · cases h

theorem buildMemo_ok_iff (hinput : paymentInputSchema sdk raw = .ok input) :
    (∃ memo, buildMemo sdk.numberText input.memoType input.memo = .ok memo) ↔
      Fits input.memoType input.memo := by
  have hshort := fun s => @byteLength_le sdk raw input s hinput
  generalize input.memoType = memoType at hshort ⊢
  generalize input.memo = memo at hshort ⊢
  cases memo with
  | none => exact iff_of_true ⟨none, by cases memoType <;> rfl⟩ (.absent memoType)
  | some v =>
    rw [fits_iff]
    cases memoType with
    | text =>
      rw [buildMemo, map_ok_iff]
      exact textMemo_ok_iff fun s hs => hshort s rfl (congrArg some hs)
    | id =>
      rw [buildMemo, map_ok_iff]
      exact idMemo_ok_iff
    | hash =>
      rw [buildMemo, map_ok_iff]
      exact hexMemo_ok_iff
    | ret =>
      rw [buildMemo, map_ok_iff]
      exact hexMemo_ok_iff

theorem content_ok_iff {asset : Asset} :
    (∃ p, content sdk input asset = .ok p) ↔
      sdk.payment input.destination asset input.amount = .ok () ∧
        ∃ memo, buildMemo sdk.numberText input.memoType input.memo = .ok memo := by
  constructor
  · rintro ⟨p, hp⟩
    simp only [content, bind_eq_ok] at hp
    obtain ⟨⟨⟩, hpay, memo, hmemo, -⟩ := hp
    exact ⟨hpay, memo, hmemo⟩
  · rintro ⟨hpay, memo, hmemo⟩
    exact ⟨_, bind_eq_ok.mpr ⟨(), hpay, bind_eq_ok.mpr ⟨memo, hmemo, rfl⟩⟩⟩

/-- An accepted input builds its memo, and the transaction cannot fail on it, exactly when the
memo fits its type. -/
theorem accepted_memo_iff (sdk : Sdk) (raw : RawPayment) (input : PaymentInput)
    (hinput : paymentInputSchema sdk raw = .ok input) :
    ((∃ memo, buildMemo sdk.numberText input.memoType input.memo = .ok memo) ↔
        Fits input.memoType input.memo) ∧
      ∀ asset, sdk.payment input.destination asset input.amount = .ok () →
        ((∃ p, content sdk input asset = .ok p) ↔ Fits input.memoType input.memo) := by
  have hmemo := buildMemo_ok_iff hinput
  refine ⟨hmemo, fun asset hpay => ?_⟩
  rw [content_ok_iff, hmemo]
  exact and_iff_right hpay

/-- An SDK that accepts everything. -/
def tolerant : Sdk :=
  ⟨fun _ => true, fun _ _ => .ok (), fun _ _ _ => .ok (), fun _ _ _ _ _ _ => .ok (),
    fun _ => ""⟩

def rawWithId (memo : MemoValue) : RawPayment :=
  ⟨some "GBBD47IF6LWK7P7MDEVSCWR7DPUWV3NY3DTQEVFL4NAT4AQH3ZLLFLA5", some "10", none, none,
    some "id", some memo⟩

def inputWithId (memo : MemoValue) : PaymentInput :=
  ⟨"GBBD47IF6LWK7P7MDEVSCWR7DPUWV3NY3DTQEVFL4NAT4AQH3ZLLFLA5", "10", "XLM", none, .id, some memo⟩

theorem accepted_memo_number :
    ∃ memo, buildMemo tolerant.numberText .id (some (.number (.finite 42))) = .ok memo :=
  (accepted_memo_iff tolerant (rawWithId (.number (.finite 42)))
    (inputWithId (.number (.finite 42))) (by decide +kernel)).1.mpr (.id 42 (by decide))

/-- A text as the memo of an id is accepted, and cannot be built. -/
theorem accepted_memo_text :
    paymentInputSchema tolerant (rawWithId (.string "42")) = .ok (inputWithId (.string "42")) ∧
      buildMemo tolerant.numberText .id (some (.string "42")) =
        .error (.error "Memo ID must be a number") := by
  decide +kernel

end PayFi.Tools.PaymentSchema
