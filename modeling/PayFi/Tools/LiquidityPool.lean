import PayFi.Tools.DexOffer
import PayFi.Tools.PaymentSchema

namespace PayFi.Tools.LiquidityPool

open Library.Numbers Library.Decimals Network.Submission Spending.Guard Payment PaymentSchema
open DexOffer (isPrice priceIssues dexOfferInputSchema)

structure RawLiquidityPool where
  action : Option String
  liquidityPoolId : Option String
  maxAmountA : Option String
  maxAmountB : Option String
  minPrice : Option String
  maxPrice : Option String
  amount : Option String
  minAmountA : Option String
  minAmountB : Option String

inductive LiquidityPoolInput where
  | deposit (liquidityPoolId maxAmountA maxAmountB minPrice maxPrice : String)
  | withdraw (liquidityPoolId amount minAmountA minAmountB : String)
  | info (liquidityPoolId : String)
  deriving DecidableEq

def textIssues (field : String) (pattern : List Char → Bool) (message : String) :
    Option String → List Issue
  | none => [⟨[field], "Required"⟩]
  | some s => ensure (pattern s.toList) [field] message

/-- The pattern `(?!0(\.0+)?$)\d+(\.\d{1,7})?`. -/
def isAmount (cs : List Char) : Bool := isDecimal cs && !isZero cs

def liquidityPoolIdIssues : Option String → List Issue :=
  textIssues "liquidityPoolId" (· ≠ []) "liquidityPoolId is required"

def maxAmountAIssues : Option String → List Issue :=
  textIssues "maxAmountA" isAmount "maxAmountA must be a valid positive Stellar decimal"

def maxAmountBIssues : Option String → List Issue :=
  textIssues "maxAmountB" isAmount "maxAmountB must be a valid positive Stellar decimal"

def minPriceIssues : Option String → List Issue :=
  textIssues "minPrice" isPrice "minPrice must be a positive decimal"

def maxPriceIssues : Option String → List Issue :=
  textIssues "maxPrice" isPrice "maxPrice must be a positive decimal"

def amountIssues : Option String → List Issue :=
  textIssues "amount" isAmount "amount must be a valid positive Stellar decimal"

def minAmountAIssues : Option String → List Issue :=
  textIssues "minAmountA" isDecimal "minAmountA must be a valid Stellar decimal"

def minAmountBIssues : Option String → List Issue :=
  textIssues "minAmountB" isDecimal "minAmountB must be a valid Stellar decimal"

def deposit (raw : RawLiquidityPool) : Except (List Issue) LiquidityPoolInput :=
  let issues := liquidityPoolIdIssues raw.liquidityPoolId ++ maxAmountAIssues raw.maxAmountA ++
    maxAmountBIssues raw.maxAmountB ++ minPriceIssues raw.minPrice ++ maxPriceIssues raw.maxPrice
  match raw.liquidityPoolId, raw.maxAmountA, raw.maxAmountB, raw.minPrice, raw.maxPrice with
  | some liquidityPoolId, some maxAmountA, some maxAmountB, some minPrice, some maxPrice =>
    if issues = [] then .ok (.deposit liquidityPoolId maxAmountA maxAmountB minPrice maxPrice)
    else .error issues
  | _, _, _, _, _ => .error issues

def withdraw (raw : RawLiquidityPool) : Except (List Issue) LiquidityPoolInput :=
  let issues := liquidityPoolIdIssues raw.liquidityPoolId ++ amountIssues raw.amount ++
    minAmountAIssues raw.minAmountA ++ minAmountBIssues raw.minAmountB
  match raw.liquidityPoolId, raw.amount, raw.minAmountA, raw.minAmountB with
  | some liquidityPoolId, some amount, some minAmountA, some minAmountB =>
    if issues = [] then .ok (.withdraw liquidityPoolId amount minAmountA minAmountB)
    else .error issues
  | _, _, _, _ => .error issues

def info (raw : RawLiquidityPool) : Except (List Issue) LiquidityPoolInput :=
  let issues := liquidityPoolIdIssues raw.liquidityPoolId
  match raw.liquidityPoolId with
  | some liquidityPoolId =>
    if issues = [] then .ok (.info liquidityPoolId) else .error issues
  | none => .error issues

def liquidityPoolInputSchema (raw : RawLiquidityPool) : Except (List Issue) LiquidityPoolInput :=
  match raw.action with
  | some "deposit" => deposit raw
  | some "withdraw" => withdraw raw
  | some "info" => info raw
  | _ => .error [⟨["action"],
      "Invalid discriminator value. Expected 'deposit' | 'withdraw' | 'info'"⟩]

variable {raw : RawLiquidityPool} {s : String}

theorem textIssues_eq_nil {field message : String} {pattern : List Char → Bool} :
    textIssues field pattern message (some s) = [] ↔ pattern s.toList = true := ensure_eq_nil

def LiquidityPoolInput.Checked : LiquidityPoolInput → Prop
  | .deposit _ maxAmountA maxAmountB minPrice maxPrice =>
    isAmount maxAmountA.toList = true ∧ isAmount maxAmountB.toList = true ∧
      isPrice minPrice.toList = true ∧ isPrice maxPrice.toList = true
  | .withdraw _ amount _ _ => isAmount amount.toList = true
  | .info _ => True

theorem deposit_checked {input : LiquidityPoolInput} (h : deposit raw = .ok input) :
    input.Checked := by
  simp only [deposit] at h
  split at h
  · rename_i id a b p q hid ha hb hp hq
    split at h
    · rename_i hissues
      cases h
      simp only [List.append_eq_nil_iff, maxAmountAIssues, maxAmountBIssues, minPriceIssues,
        maxPriceIssues, ha, hb, hp, hq, textIssues_eq_nil] at hissues
      exact ⟨hissues.1.1.1.2, hissues.1.1.2, hissues.1.2, hissues.2⟩
    · cases h
  · cases h

theorem withdraw_checked {input : LiquidityPoolInput} (h : withdraw raw = .ok input) :
    input.Checked := by
  simp only [withdraw] at h
  split at h
  · rename_i id amount a b hid hamount ha hb
    split at h
    · rename_i hissues
      cases h
      simp only [List.append_eq_nil_iff, amountIssues, hamount, textIssues_eq_nil] at hissues
      exact hissues.1.1.2
    · cases h
  · cases h

theorem info_checked {input : LiquidityPoolInput} (h : info raw = .ok input) : input.Checked := by
  simp only [info] at h
  split at h
  · split at h
    · cases h
      exact trivial
    · cases h
  · cases h

theorem liquidityPoolInputSchema_checked {input : LiquidityPoolInput}
    (h : liquidityPoolInputSchema raw = .ok input) : input.Checked := by
  unfold liquidityPoolInputSchema at h
  split at h
  · exact deposit_checked h
  · exact withdraw_checked h
  · exact info_checked h
  · cases h

theorem dexOfferInputSchema_checked {raw : DexOffer.RawDexOffer} {input : DexOffer.DexOfferInput}
    (h : dexOfferInputSchema raw = .ok input) :
    IsAmount input.amount ∧ isPrice input.price.toList = true := by
  simp only [dexOfferInputSchema] at h
  split at h
  · rename_i action selling buying amount price ha hs hb hm hp
    split at h
    · split at h
      · rename_i hissues
        cases h
        simp only [List.append_eq_nil_iff, hm, hp, priceIssues, ensure_eq_nil] at hissues
        exact ⟨amountIssues_iff.mp hissues.1.2, hissues.2⟩
      · cases h
    · cases h
  · cases h

/-- The fields of an offer, of a deposit and of a withdrawal that are to be positive. -/
inductive PositiveField where
  | offerAmount
  | offerPrice
  | maxAmountA
  | maxAmountB
  | minPrice
  | maxPrice
  | amount

/-- A text is accepted as a field when it stands there in an accepted input. -/
def AcceptedAs : PositiveField → String → Prop
  | .offerAmount, s => ∃ raw input, dexOfferInputSchema raw = .ok input ∧ input.amount = s
  | .offerPrice, s => ∃ raw input, dexOfferInputSchema raw = .ok input ∧ input.price = s
  | .maxAmountA, s => ∃ raw id b p q, liquidityPoolInputSchema raw = .ok (.deposit id s b p q)
  | .maxAmountB, s => ∃ raw id a p q, liquidityPoolInputSchema raw = .ok (.deposit id a s p q)
  | .minPrice, s => ∃ raw id a b q, liquidityPoolInputSchema raw = .ok (.deposit id a b s q)
  | .maxPrice, s => ∃ raw id a b p, liquidityPoolInputSchema raw = .ok (.deposit id a b p s)
  | .amount, s => ∃ raw id a b, liquidityPoolInputSchema raw = .ok (.withdraw id s a b)

/-- The text denotes a number that is greater than zero. -/
def Positive (s : String) : Prop := ∃ n : Numeral, s.toList = n.text ∧ 0 < n.value

def Zeros (least : ℕ) (s : String) : Prop := ∃ m k, least ≤ m ∧ s.toList = zeros m k

/-- The texts of a field that do not get zero past its check. -/
def Spared : PositiveField → String → Prop
  | .offerAmount, _ => True
  | .offerPrice, s | .minPrice, s | .maxPrice, s => ¬Zeros 1 s
  | .maxAmountA, s | .maxAmountB, s | .amount, s => ¬Zeros 2 s

theorem isPrice_iff {cs : List Char} : isPrice cs = true ↔ ∃ n : Numeral, cs = n.text := by
  have hnumeral := @numeral_iff cs fun _ => True
  simp only [and_true] at hnumeral
  rw [hnumeral, isPrice, Bool.and_eq_true, decide_eq_true_eq]
  refine and_congr_right fun _ => ?_
  split
  · rename_i hdrop
    exact iff_of_true rfl (.inl hdrop)
  · rename_i ds hdrop
    simp only [Bool.and_eq_true, decide_eq_true_eq, List.all_eq_true, hdrop, reduceCtorEq,
      false_or, List.cons.injEq, true_and, exists_eq_left']
  · rename_i hnil hpoint
    refine iff_of_false Bool.false_ne_true ?_
    rintro (hdrop | ⟨ds, hdrop, -⟩)
    · exact hnil hdrop
    · exact hpoint ds hdrop

theorem positive_iff {n : Numeral} (h : s.toList = n.text) : Positive s ↔ ¬Zeros 1 s := by
  have hpos : Positive s ↔ 0 < n.value := by
    constructor
    · rintro ⟨n', hs, hpos⟩
      rwa [text_injective (h.symm.trans hs)]
    · exact fun hpos => ⟨n, h, hpos⟩
  rw [hpos, value_pos_of_ne_zeros, ← h]
  simp only [Zeros, not_exists, not_and]

theorem price_positive_iff (h : isPrice s.toList = true) : Positive s ↔ ¬Zeros 1 s := by
  obtain ⟨n, hn⟩ := isPrice_iff.mp h
  exact positive_iff hn

theorem amount_positive_iff (h : isAmount s.toList = true) : Positive s ↔ ¬Zeros 2 s := by
  rw [isAmount, Bool.and_eq_true, Bool.not_eq_true'] at h
  obtain ⟨n, hn, -⟩ := isDecimal_iff.mp h.1
  rw [positive_iff hn, not_iff_not]
  constructor
  · rintro ⟨m, k, hm, hs⟩
    obtain hone | htwo := Nat.eq_or_lt_of_le hm
    · have hzero : isZero s.toList = true := isZero_iff.mpr ⟨k, hone ▸ hs⟩
      rw [h.2] at hzero
      cases hzero
    · exact ⟨m, k, htwo, hs⟩
  · rintro ⟨m, k, hm, hs⟩
    exact ⟨m, k, Nat.le_of_succ_le hm, hs⟩

/-- A text that is accepted for a positive field is positive unless it is one of the zeros that
its pattern lets pass. -/
theorem accepted_positive_iff (field : PositiveField) (s : String) (h : AcceptedAs field s) :
    Positive s ↔ Spared field s := by
  cases field with
  | offerAmount =>
    obtain ⟨raw, input, hinput, rfl⟩ := h
    obtain ⟨n, hn, -, hpos⟩ := (dexOfferInputSchema_checked hinput).1
    exact iff_of_true ⟨n, hn, hpos⟩ trivial
  | offerPrice =>
    obtain ⟨raw, input, hinput, rfl⟩ := h
    exact price_positive_iff (dexOfferInputSchema_checked hinput).2
  | maxAmountA =>
    obtain ⟨raw, id, b, p, q, hinput⟩ := h
    exact amount_positive_iff (liquidityPoolInputSchema_checked hinput).1
  | maxAmountB =>
    obtain ⟨raw, id, a, p, q, hinput⟩ := h
    exact amount_positive_iff (liquidityPoolInputSchema_checked hinput).2.1
  | minPrice =>
    obtain ⟨raw, id, a, b, q, hinput⟩ := h
    exact price_positive_iff (liquidityPoolInputSchema_checked hinput).2.2.1
  | maxPrice =>
    obtain ⟨raw, id, a, b, p, hinput⟩ := h
    exact price_positive_iff (liquidityPoolInputSchema_checked hinput).2.2.2
  | amount =>
    obtain ⟨raw, id, a, b, hinput⟩ := h
    exact amount_positive_iff (liquidityPoolInputSchema_checked hinput)

def offerAt (price : String) : DexOffer.RawDexOffer :=
  ⟨some "create", ⟨some "XLM", none⟩, ⟨some "USDC", some "GISSUER"⟩, some "10", some price, none⟩

def depositOf (maxAmountA : String) : RawLiquidityPool :=
  ⟨some "deposit", some "pool", some maxAmountA, some "5", some "0.5", some "2", none, none, none⟩

theorem accepted_price {price : String} (h : isPrice price.toList = true) :
    AcceptedAs .offerPrice price := by
  have hamount : Payment.amountIssues (some "10") = [] := by decide +kernel
  have hprice : priceIssues (some price) = [] := ensure_eq_nil.mpr h
  refine ⟨offerAt price, ⟨.create, ⟨"XLM", none⟩, ⟨"USDC", some "GISSUER"⟩, "10", price, none,
    fun hcreate => absurd rfl hcreate⟩, ?_, rfl⟩
  simp only [dexOfferInputSchema, offerAt, hamount, hprice]
  rfl

theorem accepted_positive_half : Positive "0.5" ↔ Spared .offerPrice "0.5" :=
  accepted_positive_iff .offerPrice "0.5" (accepted_price (by decide))

/-- A price of zero is accepted, and so is an amount of zero with two zeros. -/
theorem accepted_zero :
    (AcceptedAs .offerPrice "0" ∧ ¬Positive "0") ∧
      AcceptedAs .maxAmountA "00" ∧ ¬Positive "00" := by
  refine ⟨⟨accepted_price (by decide), fun h => ?_⟩, ?_, fun h => ?_⟩
  · exact (price_positive_iff (by decide)).mp h ⟨1, 0, le_rfl, by decide⟩
  · exact ⟨depositOf "00", "pool", "5", "0.5", "2", by decide +kernel⟩
  · exact (price_positive_iff (by decide)).mp h ⟨2, 0, by decide, by decide⟩

end PayFi.Tools.LiquidityPool
