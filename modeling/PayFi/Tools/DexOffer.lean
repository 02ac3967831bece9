import PayFi.Tools.Rebuilding
import PayFi.Tools.TransactionBuilder

namespace PayFi.Tools.DexOffer

open Library.Numbers Library.Results Network.Submission Payment TransactionBuilder
open Rebuilding.PathPaymentTool (RawAsset AssetInput assetSchema issuesOf)

inductive Action where
  | create
  | update
  | delete
  deriving DecidableEq

structure RawDexOffer where
  action : Option String
  selling : RawAsset
  buying : RawAsset
  amount : Option String
  price : Option String
  offerId : Option MemoValue

/-- An accepted offer; one that is not created has the id of the offer that it changes. -/
structure DexOfferInput where
  action : Action
  selling : AssetInput
  buying : AssetInput
  amount : String
  price : String
  offerId : Option MemoValue
  hasOfferId : action ≠ .create → offerId.isSome

def actionOf : Option String → Option Action
  | some "create" => some .create
  | some "update" => some .update
  | some "delete" => some .delete
  | _ => none

def actionIssues : Option String → List Issue
  | none => [⟨["action"], "Required"⟩]
  | some a => ensure (actionOf (some a)).isSome ["action"]
      ("Invalid enum value. Expected 'create' | 'update' | 'delete', received '" ++ a ++ "'")

/-- The pattern `\d+(\.\d+)?`. -/
def isPrice (cs : List Char) : Bool :=
  cs.takeWhile Char.isDigit ≠ [] &&
    match cs.dropWhile Char.isDigit with
    | [] => true
    | '.' :: ds => ds ≠ [] && ds.all Char.isDigit
    | _ => false

def priceIssues : Option String → List Issue
  | none => [⟨["price"], "Required"⟩]
  | some p => ensure (isPrice p.toList) ["price"] "Price must be a positive decimal"

def offerIdIssues (action : Action) (offerId : Option MemoValue) : List Issue :=
  ensure (action = .create || offerId.isSome) ["offerId"]
    "offerId is required for update and delete actions"

theorem isSome_of_offerIdIssues {action : Action} {offerId : Option MemoValue}
    (h : offerIdIssues action offerId = []) (ha : action ≠ .create) : offerId.isSome := by
  rw [offerIdIssues, ensure_eq_nil, Bool.or_eq_true] at h
  exact h.resolve_left fun h => ha (of_decide_eq_true h)

/-- The fields are checked one by one; the offer's id only when they all have a value. -/
def dexOfferInputSchema (raw : RawDexOffer) : Except (List Issue) DexOfferInput :=
  let issues := actionIssues raw.action ++ issuesOf (assetSchema ["selling"] raw.selling) ++
    issuesOf (assetSchema ["buying"] raw.buying) ++ amountIssues raw.amount ++
    priceIssues raw.price
  match actionOf raw.action, raw.selling.code, raw.buying.code, raw.amount, raw.price with
  | some action, some sellingCode, some buyingCode, some amount, some price =>
    if h : offerIdIssues action raw.offerId = [] then
      if issues = [] then
        .ok ⟨action, ⟨sellingCode, raw.selling.issuer⟩, ⟨buyingCode, raw.buying.issuer⟩, amount,
          price, raw.offerId, isSome_of_offerIdIssues h⟩
      else .error issues
    else .error (issues ++ offerIdIssues action raw.offerId)
  | _, _, _, _, _ => .error issues

variable {su : Setup} {bare : String → Except Fault Unit}

/-- `new Asset` on the code and the issuer as they are; `bare` is what the SDK makes of a code
without an issuer, and the asset is then the native one. -/
def resolveAsset (su : Setup) (bare : String → Except Fault Unit) (a : AssetInput) :
    Except Fault Asset :=
  if a.code = "XLM" then .ok .native
  else if truthy a.issuer then
    (su.sdk.newAsset a.code (a.issuer.getD "")).map fun _ => .issued a.code (a.issuer.getD "")
  else (bare a.code).map fun _ => .native

def offerIdOf (su : Setup) : Option MemoValue → String
  | none => "0"
  | some (.string s) => s
  | some (.number n) => su.numberText n

/-- What `execute` does up to the operation, but for the question whether the offer exists. -/
def prepare (su : Setup) (bare : String → Except Fault Unit) (raw : RawDexOffer) :
    Except Fault Operation := do
  let input ← (dexOfferInputSchema raw).mapError .zod
  let selling ← resolveAsset su bare input.selling
  let buying ← resolveAsset su bare input.buying
  let offerAmount := if input.action = .delete then "0" else input.amount
  let operation := .manageSellOffer selling buying offerAmount input.price
    (offerIdOf su input.offerId) none
  su.operation operation
  return operation

theorem dexOfferInputSchema_ok {raw : RawDexOffer} {input : DexOfferInput}
    (h : dexOfferInputSchema raw = .ok input) :
    actionOf raw.action = some input.action ∧
      raw.selling = ⟨some input.selling.code, input.selling.issuer⟩ ∧
      raw.buying = ⟨some input.buying.code, input.buying.issuer⟩ ∧
      raw.amount = some input.amount ∧ raw.price = some input.price ∧
      raw.offerId = input.offerId := by
  simp only [dexOfferInputSchema] at h
  split at h
  · rename_i action sellingCode buyingCode amount price ha hs hb hm hp
    split at h
    · split at h
      · cases h
        refine ⟨ha, ?_, ?_, hm, hp, rfl⟩
        · rw [← hs]
        · rw [← hb]
      · cases h
    · cases h
  · cases h

theorem prepare_ok {raw : RawDexOffer} {op : Operation} (h : prepare su bare raw = .ok op) :
    ∃ input selling buying, dexOfferInputSchema raw = .ok input ∧
      resolveAsset su bare input.selling = .ok selling ∧
      resolveAsset su bare input.buying = .ok buying ∧ su.operation op = .ok () ∧
      op = .manageSellOffer selling buying (if input.action = .delete then "0" else input.amount)
        input.price (offerIdOf su input.offerId) none := by
  simp only [prepare, bind_eq_ok, mapError_eq_ok] at h
  obtain ⟨input, hinput, selling, hselling, buying, hbuying, ⟨⟩, hop, h⟩ := h
  cases h
  exact ⟨input, selling, buying, hinput, hselling, hbuying, hop, rfl⟩

theorem resolveAsset_ok {a : AssetInput} {asset : Asset}
    (h : resolveAsset su bare a = .ok asset) :
    a.code = "XLM" ∧ asset = .native ∨
      a.code ≠ "XLM" ∧ truthy a.issuer = true ∧
        su.sdk.newAsset a.code (a.issuer.getD "") = .ok () ∧
        asset = .issued a.code (a.issuer.getD "") ∨
      a.code ≠ "XLM" ∧ truthy a.issuer = false ∧ bare a.code = .ok () ∧ asset = .native := by
  unfold resolveAsset at h
  split at h
  · rename_i hxlm
    cases h
    exact .inl ⟨hxlm, rfl⟩
  · rename_i hxlm
    split at h
    · rename_i ht
      cases hnew : su.sdk.newAsset a.code (a.issuer.getD "") with
      | error e =>
        rw [hnew] at h
        cases h
      | ok u =>
        rw [hnew] at h
        cases h
        exact .inr (.inl ⟨hxlm, ht, rfl, rfl⟩)
    · rename_i ht
      cases hbare : bare a.code with
      | error e =>
        rw [hbare] at h
        cases h
      | ok u =>
        rw [hbare] at h
        cases h
        exact .inr (.inr ⟨hxlm, Bool.eq_false_iff.mpr ht, rfl, rfl⟩)

end PayFi.Tools.DexOffer
