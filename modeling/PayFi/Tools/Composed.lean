import PayFi.Tools.DexOffer
import PayFi.Tools.NamedAssets

namespace PayFi.Tools.Composed

open Library.Numbers Library.Results Network.Submission Payment TransactionBuilder NamedAssets
open Rebuilding.PathPaymentTool (RawAsset RawPathPayment AssetInput)
open DexOffer (RawDexOffer resolveAsset resolveAsset_ok)

variable {su : Setup} {bare : String → Except Fault Unit}
  {strictSendPaths : Except Fault (List (List Asset))} {v payload task : Value} {op : Operation}

def optionalString : Value → Option (Option String)
  | .undefined => some none
  | .string s => some (some s)
  | _ => none

def optionalBoolean : Value → Option (Option Bool)
  | .undefined => some none
  | .boolean b => some (some b)
  | _ => none

def stringOrNumber : Value → Option (Option MemoValue)
  | .undefined => some none
  | .string s => some (some (.string s))
  | .number n => if n.isNaN then none else some (some (.number n))
  | _ => none

def assetFields : Value → Option (Value × Value)
  | .object fields =>
    some ((Value.object fields).get "code", (Value.object fields).get "issuer")
  | .asset .native => some (.string "XLM", .undefined)
  | .asset (.issued code issuer) => some (.string code, .string issuer)
  | _ => none

def rawAsset (v : Value) : Option RawAsset := do
  let (code, issuer) ← assetFields v
  return ⟨← optionalString code, ← optionalString issuer⟩

def rawPath : Value → Option (List RawAsset)
  | .undefined => some []
  | .array vs => vs.mapM rawAsset
  | _ => none

def isObject : Value → Bool
  | .object _ => true
  | _ => false

def rawPayment (payload : Value) : Option RawPayment := do
  guard (isObject payload)
  return ⟨← optionalString (payload.get "destination"), ← optionalString (payload.get "amount"),
    ← optionalString (payload.get "assetCode"), ← optionalString (payload.get "assetIssuer"),
    ← optionalString (payload.get "memoType"), ← stringOrNumber (payload.get "memo")⟩

def rawDexOffer (payload : Value) : Option RawDexOffer := do
  guard (isObject payload)
  return ⟨← optionalString (payload.get "action"), ← rawAsset (payload.get "selling"),
    ← rawAsset (payload.get "buying"), ← optionalString (payload.get "amount"),
    ← optionalString (payload.get "price"), ← stringOrNumber (payload.get "offerId")⟩

def rawPathPayment (payload : Value) : Option RawPathPayment := do
  guard (isObject payload)
  return ⟨← optionalString (payload.get "destination"), ← rawAsset (payload.get "sendAsset"),
    ← optionalString (payload.get "sendAmount"), ← rawAsset (payload.get "destAsset"),
    ← optionalString (payload.get "destMinAmount"), ← rawPath (payload.get "path"),
    ← optionalBoolean (payload.get "allowSelfPayment"),
    ← optionalString (payload.get "memoType"), ← stringOrNumber (payload.get "memo")⟩

def paymentOperation (su : Setup) (raw : RawPayment) : Except Fault Operation := do
  let (input, asset) ← Payment.prepare su.sdk su.publicKey raw
  let p ← Payment.content su.sdk input asset
  return .payment p.destination p.asset p.amount none

def pathPaymentOperation (su : Setup) (strictSendPaths : Except Fault (List (List Asset)))
    (raw : RawPathPayment) : Except Fault Operation := do
  let (input, sendAsset, destAsset, path) ←
    Rebuilding.PathPaymentTool.prepare su.sdk su.publicKey strictSendPaths raw
  let p ← Rebuilding.PathPaymentTool.content su.sdk input sendAsset destAsset path
  return .pathPaymentStrictSend p.sendAsset p.sendAmount p.destination p.destAsset p.destMin p.path
    none

/-- The operation that the dedicated tool of a type of tasks puts into its transaction for a
payload that it accepts. -/
inductive Dedicated (su : Setup) (bare : String → Except Fault Unit)
    (strictSendPaths : Except Fault (List (List Asset))) : String → Value → Operation → Prop where
  | payment {payload : Value} {op : Operation} (raw : RawPayment)
    (hraw : rawPayment payload = some raw) (h : paymentOperation su raw = .ok op) :
    Dedicated su bare strictSendPaths "stellar_payment" payload op
  | dexOffer {payload : Value} {op : Operation} (raw : RawDexOffer)
    (hraw : rawDexOffer payload = some raw) (h : DexOffer.prepare su bare raw = .ok op) :
    Dedicated su bare strictSendPaths "dex_offer" payload op
  | pathPayment {payload : Value} {op : Operation} (raw : RawPathPayment)
    (hraw : rawPathPayment payload = some raw) (hpath : raw.path ≠ [])
    (h : pathPaymentOperation su strictSendPaths raw = .ok op) :
    Dedicated su bare strictSendPaths "path_payment" payload op

def unsourced : Operation → Operation
  | .payment destination asset amount _ => .payment destination asset amount none
  | .changeTrust asset limit _ => .changeTrust asset limit none
  | .manageSellOffer selling buying amount price offerId _ =>
    .manageSellOffer selling buying amount price offerId none
  | .pathPaymentStrictReceive sendAsset sendMax destination destAsset destAmount path _ =>
    .pathPaymentStrictReceive sendAsset sendMax destination destAsset destAmount path none
  | .pathPaymentStrictSend sendAsset sendAmount destination destAsset destMin path _ =>
    .pathPaymentStrictSend sendAsset sendAmount destination destAsset destMin path none
  | .createAccount destination startingBalance _ => .createAccount destination startingBalance none
  | .accountMerge destination _ => .accountMerge destination none
  | .manageData name value _ => .manageData name value none
  | op => op

/-- What the SDK documents: a code is not empty, and an operation's source account is checked by
itself, next to the checks of the operation. -/
structure Documented (su : Setup) (bare : String → Except Fault Unit) (isSource : String → Bool) :
    Prop where
  code : ∀ issuer, su.sdk.newAsset "" issuer ≠ .ok ()
  bareCode : bare "" ≠ .ok ()
  payment : ∀ destination asset amount source,
    su.operation (.payment destination asset amount source) = .ok () ↔
      su.sdk.payment destination asset amount = .ok () ∧ source.all isSource = true
  manageSellOffer : ∀ selling buying amount price offerId source,
    su.operation (.manageSellOffer selling buying amount price offerId source) = .ok () ↔
      su.operation (.manageSellOffer selling buying amount price offerId none) = .ok () ∧
        source.all isSource = true

theorem Documented.code_ne_empty {isSource : String → Bool} (laws : Documented su bare isSource)
    {code issuer : String} (h : su.sdk.newAsset code issuer = .ok ()) : code ≠ "" := by
  rintro rfl
  exact laws.code issuer h

theorem Documented.bareCode_ne_empty {isSource : String → Bool}
    (laws : Documented su bare isSource) {code : String} (h : bare code = .ok ()) : code ≠ "" := by
  rintro rfl
  exact laws.bareCode h

def foreign : Value → Bool
  | .asset a => a ≠ .native
  | .string s => (s.splitOn ":").length = 2 && (s.splitOn ":").all (· ≠ "")
  | .object fields =>
    let v := Value.object fields
    ((v.get "code").orElse (v.get "assetCode")).truthy &&
      !((v.get "code").orElse (v.get "assetCode")).isString "XLM" &&
      ((v.get "issuer").orElse (v.get "assetIssuer")).truthy
  | _ => false

/-- The native asset of a payment is not overruled by its field `asset`. -/
def PaymentAgrees (payload : Value) : Prop :=
  (∃ code, payload.get "assetCode" = .string code ∧ code ≠ "XLM") ∨
    foreign (payload.get "asset") = false

/-- A side of an offer has no issuer under the other key only, and is no asset of the SDK that
is issued under the code of the native one. -/
def SideAgrees : Value → Prop
  | .asset (.issued code issuer) => code ≠ "XLM" ∧ issuer ≠ ""
  | v => (v.get "code").isString "XLM" = true ∨ v.get "issuer" ≠ .undefined ∨
      (v.get "assetIssuer").truthy = false

def Agrees (su : Setup) (isSource : String → Bool) (type : String) (payload : Value) : Prop :=
  (sourceOf su payload).all isSource = true ∧
    match type with
    | "stellar_payment" => PaymentAgrees payload
    | "dex_offer" => SideAgrees (payload.get "selling") ∧ SideAgrees (payload.get "buying")
    | _ => False

theorem optionalString_eq_some {s : String} :
    optionalString v = some (some s) ↔ v = .string s := by
  cases v <;> simp [optionalString]

theorem optionalString_eq_none : optionalString v = some none ↔ v = .undefined := by
  cases v <;> simp [optionalString]

theorem isObject_of_guard (h : guard (isObject payload = true) = some ()) :
    isObject payload = true := by
  by_contra hobject
  rw [guard, if_neg hobject] at h
  cases h

theorem rawPayment_ok {raw : RawPayment} (h : rawPayment payload = some raw) :
    isObject payload = true ∧ optionalString (payload.get "destination") = some raw.destination ∧
      optionalString (payload.get "amount") = some raw.amount ∧
      optionalString (payload.get "assetCode") = some raw.assetCode ∧
      optionalString (payload.get "assetIssuer") = some raw.assetIssuer := by
  simp only [rawPayment, Option.bind_eq_bind, Option.bind_eq_some_iff] at h
  obtain ⟨⟨⟩, hobject, d, hd, m, hm, c, hc, i, hi, t, ht, o, ho, h⟩ := h
  cases h
  exact ⟨isObject_of_guard hobject, hd, hm, hc, hi⟩

theorem newAsset_ne_native {code issuer : Value} : newAsset su code issuer ≠ .ok .native := by
  intro h
  obtain ⟨c, i, -, -, ha⟩ := newAsset_ok h
  cases ha

theorem parseAsset_string_eq_native {s : String} :
    parseAsset su (.string s) = .ok .native ↔ foreign (.string s) = false := by
  by_cases hs : s = "" ∨ s = "XLM" ∨ s = "native"
  · refine iff_of_true ?_ ?_
    · rcases hs with rfl | rfl | rfl <;> rfl
    · simp only [foreign, splitOn_native hs]
      rfl
  · simp only [not_or] at hs
    simp only [parseAsset, Value.truthy, hs, ne_eq, not_false_eq_true, decide_true, Bool.not_true,
      Bool.false_eq_true, if_false, or_self, foreign]
    split
    · rename_i code issuer hsplit
      by_cases hparts : code ≠ "" ∧ issuer ≠ ""
      · rw [if_pos hparts, hsplit]
        refine iff_of_false newAsset_ne_native ?_
        simp [hparts]
      · rw [if_neg hparts, hsplit]
        simp only [not_and_or, not_not] at hparts
        refine iff_of_true rfl ?_
        rcases hparts with rfl | rfl <;> simp
    · rename_i hsplit
      refine iff_of_true rfl (Bool.and_eq_false_iff.mpr (.inl (decide_eq_false fun hlength => ?_)))
      obtain ⟨code, issuer, hparts⟩ := List.length_eq_two.mp hlength
      exact hsplit code issuer hparts

theorem parseAsset_eq_native : parseAsset su v = .ok .native ↔ foreign v = false := by
  cases v with
  | string s => exact parseAsset_string_eq_native
  | asset a =>
    cases a with
    | native => exact iff_of_true rfl rfl
    | issued code issuer => exact iff_of_false nofun (by simp [foreign])
  | object fields =>
    simp only [parseAsset, object_truthy, Bool.not_true, Bool.false_eq_true, if_false, foreign]
    split
    · rename_i hguard
      refine iff_of_true rfl ?_
      rw [← Bool.not_eq_true']
      simpa only [Bool.not_and, Bool.not_not] using hguard
    · rename_i hguard
      refine iff_of_false newAsset_ne_native fun h => hguard ?_
      rw [← Bool.not_eq_true'] at h
      simpa only [Bool.not_and, Bool.not_not] using h
  | _ => simp [parseAsset, foreign]

def paymentAsset (su : Setup) (payload : Value) : Except Fault Asset :=
  if (payload.get "assetCode").truthy && !(payload.get "assetCode").isString "XLM" &&
      (payload.get "assetIssuer").truthy then
    codedAsset su payload
  else parseAsset su (payload.get "asset")

theorem payment_eq_ok : payment su payload = .ok op ↔ ∃ asset, paymentAsset su payload = .ok asset ∧
    op = .payment (field su payload "destination") asset (field su payload "amount")
      (sourceOf su payload) := by
  unfold payment paymentAsset
  split <;>
  · simp only [bind_eq_ok]
    exact exists_congr fun asset => and_congr_right fun _ =>
      ⟨fun h => (Except.ok.inj h).symm, fun h => by rw [h]; rfl⟩

theorem paymentOperation_ok {raw : RawPayment} (h : paymentOperation su raw = .ok op) :
    ∃ input asset, Payment.prepare su.sdk su.publicKey raw = .ok (input, asset) ∧
      su.sdk.payment input.destination asset input.amount = .ok () ∧
      op = .payment input.destination asset input.amount none := by
  simp only [paymentOperation, bind_eq_ok, Prod.exists] at h
  obtain ⟨input, asset, hprepare, p, hp, h⟩ := h
  cases h
  simp only [Payment.content, bind_eq_ok] at hp
  obtain ⟨⟨⟩, hpay, memo, -, hp⟩ := hp
  cases hp
  exact ⟨input, asset, hprepare, hpay, rfl⟩

theorem field_string {key s : String} (h : payload.get key = .string s) :
    field su payload key = s := by
  rw [field, h, Value.text]

theorem truthy_iff {s : Option String} : truthy s = true ↔ ∃ t, s = some t ∧ t ≠ "" := by
  cases s <;> simp [truthy]

theorem truthy_eq_false {s : Option String} : truthy s = false ↔ ∀ t, s = some t → t = "" := by
  cases s <;> simp [truthy]

theorem code_cases {code : Option String} {input : String}
    (hcode : optionalString v = some code) (hinput : input = code.getD "XLM") :
    v = .undefined ∧ input = "XLM" ∨ v = .string input := by
  cases code with
  | none => exact .inl ⟨optionalString_eq_none.mp hcode, hinput⟩
  | some code =>
    rw [hinput]
    exact .inr (optionalString_eq_some.mp hcode)

/-- The asset of an accepted payment is also the task's, unless a field `asset` overrules the
native one. -/
theorem paymentAsset_iff {isSource : String → Bool} (laws : Documented su bare isSource)
    {raw : RawPayment} {input : PaymentInput} {asset : Asset}
    (hraw : rawPayment payload = some raw)
    (h : Payment.prepare su.sdk su.publicKey raw = .ok (input, asset)) :
    paymentAsset su payload = .ok asset ↔ PaymentAgrees payload := by
  obtain ⟨-, -, -, hcode, hissuer⟩ := rawPayment_ok hraw
  obtain ⟨hinput, hasset⟩ := prepare_ok h
  obtain ⟨-, -, hdefault, hissuer', -⟩ := paymentInputSchema_ok hinput
  rw [← hissuer'] at hissuer
  have hget := code_cases hcode hdefault
  rcases hasset with ⟨hxlm, rfl⟩ | ⟨hne, hnew, rfl⟩
  · have hisString : ∀ code, payload.get "assetCode" = .string code → code = "XLM" := by
      intro code hc
      rcases hget with ⟨hu, -⟩ | hs
      · rw [hc] at hu
        cases hu
      · rw [hc] at hs
        cases hs
        exact hxlm
    have hguard : ((payload.get "assetCode").truthy && !(payload.get "assetCode").isString "XLM" &&
        (payload.get "assetIssuer").truthy) = false := by
      rcases hget with ⟨hu, -⟩ | hs
      · rw [hu]
        rfl
      · rw [hs, hxlm]
        rfl
    simp only [paymentAsset, hguard, Bool.false_eq_true, if_false, PaymentAgrees]
    rw [parseAsset_eq_native]
    exact ⟨.inr, fun h => h.resolve_left fun ⟨code, hc, hn⟩ => hn (hisString code hc)⟩
  · have hs := hget.resolve_left fun hu => hne hu.2
    obtain ⟨issuer, hsome, hi⟩ := truthy_iff.mp (prepare_issuer h hne)
    rw [hsome, optionalString_eq_some] at hissuer
    rw [hsome, Option.getD_some] at hnew ⊢
    have hempty := laws.code_ne_empty hnew
    refine iff_of_true ?_ (.inl ⟨_, hs, hne⟩)
    have hguard : ((payload.get "assetCode").truthy && !(payload.get "assetCode").isString "XLM" &&
        (payload.get "assetIssuer").truthy) = true := by
      simp [hs, hissuer, Value.truthy, Value.isString, hempty, hne, hi]
    rw [paymentAsset, if_pos hguard, codedAsset, field_string hs, field_string hissuer, newAsset,
      hnew]
    rfl

theorem payment_iff {isSource : String → Bool} (laws : Documented su bare isSource)
    {raw : RawPayment} (hraw : rawPayment payload = some raw)
    (h : paymentOperation su raw = .ok op) :
    (∃ op', payment su payload = .ok op' ∧ su.operation op' = .ok () ∧ unsourced op' = op) ↔
      (sourceOf su payload).all isSource = true ∧ PaymentAgrees payload := by
  obtain ⟨input, asset, hprepare, hpay, rfl⟩ := paymentOperation_ok h
  obtain ⟨-, hd, hm, -, -⟩ := rawPayment_ok hraw
  obtain ⟨hd', hm', -⟩ := paymentInputSchema_ok (prepare_ok hprepare).1
  rw [hd', optionalString_eq_some] at hd
  rw [hm', optionalString_eq_some] at hm
  rw [← paymentAsset_iff laws hraw hprepare]
  simp only [payment_eq_ok, field_string hd, field_string hm]
  constructor
  · rintro ⟨op', ⟨asset', hasset, rfl⟩, hop, hsame⟩
    cases hsame
    exact ⟨((laws.payment _ _ _ _).mp hop).2, hasset⟩
  · rintro ⟨hsource, hasset⟩
    exact ⟨_, ⟨asset, hasset, rfl⟩, (laws.payment _ _ _ _).mpr ⟨hpay, hsource⟩, rfl⟩

theorem rawAsset_ok {raw : RawAsset} (h : rawAsset v = some raw) :
    ∃ code issuer, assetFields v = some (code, issuer) ∧ optionalString code = some raw.code ∧
      optionalString issuer = some raw.issuer := by
  simp only [rawAsset, Option.bind_eq_bind, Option.bind_eq_some_iff, Prod.exists] at h
  obtain ⟨code, issuer, hfields, c, hc, i, hi, h⟩ := h
  cases h
  exact ⟨code, issuer, hfields, hc, hi⟩

theorem rawDexOffer_ok {raw : RawDexOffer} (h : rawDexOffer payload = some raw) :
    isObject payload = true ∧ optionalString (payload.get "action") = some raw.action ∧
      rawAsset (payload.get "selling") = some raw.selling ∧
      rawAsset (payload.get "buying") = some raw.buying ∧
      optionalString (payload.get "amount") = some raw.amount ∧
      optionalString (payload.get "price") = some raw.price ∧
      stringOrNumber (payload.get "offerId") = some raw.offerId := by
  simp only [rawDexOffer, Option.bind_eq_bind, Option.bind_eq_some_iff] at h
  obtain ⟨⟨⟩, hobject, a, ha, s, hs, b, hb, m, hm, p, hp, o, ho, h⟩ := h
  cases h
  exact ⟨isObject_of_guard hobject, ha, hs, hb, hm, hp, ho⟩

theorem parseAsset_object {fields : List (String × Value)} {code : String}
    (hcode : (Value.object fields).get "code" = .string code) :
    parseAsset su (.object fields) =
      if code = "" ∨ code = "XLM" ∨ (((Value.object fields).get "issuer").orElse
        ((Value.object fields).get "assetIssuer")).truthy = false then .ok .native
      else newAsset su (.string code) (((Value.object fields).get "issuer").orElse
        ((Value.object fields).get "assetIssuer")) := by
  have hor : ((Value.object fields).get "code").orElse ((Value.object fields).get "assetCode") =
      .string code := by
    rw [hcode]
    rfl
  simp only [parseAsset, Bool.not_true, Bool.false_eq_true, if_false, hor, Value.truthy,
    Value.isString]
  refine if_congr ?_ rfl rfl
  simp only [Bool.or_eq_true, Bool.not_eq_true', decide_eq_true_eq, decide_eq_false_iff_not,
    ne_eq, not_not, or_assoc]

theorem parseAsset_object_issued {fields : List (String × Value)} {code issuer : String}
    (hcode : (Value.object fields).get "code" = .string code)
    (hissuer : (Value.object fields).get "issuer" = .string issuer) (hne : code ≠ "XLM")
    (hempty : code ≠ "") (hi : issuer ≠ "") (hnew : su.sdk.newAsset code issuer = .ok ()) :
    parseAsset su (.object fields) = .ok (.issued code issuer) := by
  have hguard : ¬(code = "" ∨ code = "XLM" ∨ ((Value.string issuer).orElse
      ((Value.object fields).get "assetIssuer")).truthy = false) := by
    simp [hempty, hne, Value.orElse, Value.truthy, hi]
  rw [parseAsset_object hcode, hissuer, if_neg hguard]
  simp only [Value.orElse, newAsset, hnew]
  rfl

theorem parseAsset_object_bare {fields : List (String × Value)} {code : String}
    (hcode : (Value.object fields).get "code" = .string code)
    (hissuer : (Value.object fields).get "issuer" = .undefined) (hne : code ≠ "XLM")
    (hempty : code ≠ "") :
    parseAsset su (.object fields) = .ok .native ↔
      ((Value.object fields).get "assetIssuer").truthy = false := by
  rw [parseAsset_object hcode, hissuer]
  simp only [hempty, hne, false_or, Value.orElse]
  cases ((Value.object fields).get "assetIssuer").truthy with
  | false => exact iff_of_true (if_pos rfl) rfl
  | true =>
    rw [if_neg (by decide)]
    exact iff_of_false newAsset_ne_native (by simp)

/-- An object that has been resolved is read in the same way by the task, but for an issuer
under its other key. -/
theorem parseAsset_object_iff {isSource : String → Bool} (laws : Documented su bare isSource)
    {fields : List (String × Value)} {a : AssetInput} {asset : Asset}
    (hcode : (Value.object fields).get "code" = .string a.code)
    (hissuer : optionalString ((Value.object fields).get "issuer") = some a.issuer)
    (h : resolveAsset su bare a = .ok asset) :
    parseAsset su (.object fields) = .ok asset ↔ SideAgrees (.object fields) := by
  simp only [SideAgrees, hcode, Value.isString, decide_eq_true_eq]
  rcases resolveAsset_ok h with ⟨hxlm, rfl⟩ | ⟨hne, ht, hnew, rfl⟩ | ⟨hne, ht, hbare, rfl⟩
  · rw [parseAsset_object hcode, if_pos (.inr (.inl hxlm))]
    exact iff_of_true rfl (.inl hxlm)
  · obtain ⟨issuer, hsome, hi⟩ := truthy_iff.mp ht
    rw [hsome, optionalString_eq_some] at hissuer
    rw [hsome, Option.getD_some] at hnew ⊢
    refine iff_of_true ?_ (.inr (.inl (by simp [hissuer])))
    exact parseAsset_object_issued hcode hissuer hne (laws.code_ne_empty hnew) hi hnew
  · cases hsome : a.issuer with
    | none =>
      rw [hsome, optionalString_eq_none] at hissuer
      rw [parseAsset_object_bare hcode hissuer hne (laws.bareCode_ne_empty hbare)]
      simp [hne, hissuer]
    | some issuer =>
      rw [hsome, optionalString_eq_some] at hissuer
      have hi := truthy_eq_false.mp ht issuer hsome
      rw [parseAsset_object hcode, hissuer, hi]
      exact iff_of_true (if_pos (.inr (.inr rfl))) (.inr (.inl (by simp)))

theorem parseAsset_iff {isSource : String → Bool} (laws : Documented su bare isSource)
    {a : AssetInput} {asset : Asset} (hraw : rawAsset v = some ⟨some a.code, a.issuer⟩)
    (h : resolveAsset su bare a = .ok asset) :
    parseAsset su v = .ok asset ↔ SideAgrees v := by
  obtain ⟨code, issuer, hfields, hcode, hissuer⟩ := rawAsset_ok hraw
  rw [optionalString_eq_some] at hcode
  cases v with
  | object fields =>
    cases hfields
    exact parseAsset_object_iff laws hcode hissuer h
  | asset b =>
    cases b with
    | native =>
      cases hfields
      rw [resolveAsset, if_pos (Value.string.inj hcode).symm] at h
      cases h
      exact iff_of_true rfl (.inr (.inr rfl))
    | issued c i =>
      cases hfields
      have hc : c = a.code := Value.string.inj hcode
      have hi : some (some i) = some a.issuer := hissuer
      have hsome : a.issuer = some i := (Option.some.inj hi).symm
      change Except.ok (Asset.issued c i) = .ok asset ↔ c ≠ "XLM" ∧ i ≠ ""
      rw [hc]
      rcases resolveAsset_ok h with ⟨hxlm, rfl⟩ | ⟨hne, ht, -, rfl⟩ | ⟨hne, ht, -, rfl⟩
      · exact iff_of_false nofun fun h => h.1 hxlm
      · rw [hsome]
        obtain ⟨issuer, hissuer, hempty⟩ := truthy_iff.mp ht
        rw [hsome] at hissuer
        cases hissuer
        exact iff_of_true rfl ⟨hne, hempty⟩
      · exact iff_of_false nofun fun h => h.2 (truthy_eq_false.mp ht i hsome)
  | _ => cases hfields

theorem isString_delete {action : Option String} {k : DexOffer.Action}
    (hv : optionalString v = some action) (hk : DexOffer.actionOf action = some k) :
    v.isString "delete" = decide (k = .delete) := by
  unfold DexOffer.actionOf at hk
  split at hk
  · rw [optionalString_eq_some.mp hv]
    cases hk
    rfl
  · rw [optionalString_eq_some.mp hv]
    cases hk
    rfl
  · rw [optionalString_eq_some.mp hv]
    cases hk
    rfl
  · cases hk

def offerIdText (su : Setup) (v : Value) : String :=
  match v with
  | .undefined => "0"
  | _ => v.text su.numberText

theorem offerIdText_eq {offerId : Option MemoValue} (hv : stringOrNumber v = some offerId) :
    offerIdText su v = DexOffer.offerIdOf su offerId := by
  cases v with
  | undefined =>
    cases hv
    rfl
  | string s =>
    cases hv
    rfl
  | number n =>
    simp only [stringOrNumber] at hv
    split at hv
    · cases hv
    · cases hv
      rfl
  | _ => cases hv

theorem dexOffer_eq_ok : dexOffer su payload = .ok op ↔
    ∃ selling buying, parseAsset su (payload.get "selling") = .ok selling ∧
      parseAsset su (payload.get "buying") = .ok buying ∧
      op = .manageSellOffer selling buying
        (if (payload.get "action").isString "delete" then "0" else field su payload "amount")
        (field su payload "price") (offerIdText su (payload.get "offerId"))
        (sourceOf su payload) := by
  simp only [dexOffer, bind_eq_ok]
  refine exists_congr fun selling => ?_
  rw [← exists_and_left]
  refine exists_congr fun buying => and_congr_right fun _ => and_congr_right fun _ => ?_
  exact ⟨fun h => (Except.ok.inj h).symm, fun h => by rw [h]; rfl⟩

theorem dexOffer_iff {isSource : String → Bool} (laws : Documented su bare isSource)
    {raw : RawDexOffer} (hraw : rawDexOffer payload = some raw)
    (h : DexOffer.prepare su bare raw = .ok op) :
    (∃ op', dexOffer su payload = .ok op' ∧ su.operation op' = .ok () ∧ unsourced op' = op) ↔
      (sourceOf su payload).all isSource = true ∧ SideAgrees (payload.get "selling") ∧
        SideAgrees (payload.get "buying") := by
  obtain ⟨input, selling, buying, hinput, hselling, hbuying, hop, rfl⟩ := DexOffer.prepare_ok h
  obtain ⟨-, ha, hs, hb, hm, hp, ho⟩ := rawDexOffer_ok hraw
  obtain ⟨ha', hs', hb', hm', hp', ho'⟩ := DexOffer.dexOfferInputSchema_ok hinput
  rw [hs'] at hs
  rw [hb'] at hb
  rw [hm', optionalString_eq_some] at hm
  rw [hp', optionalString_eq_some] at hp
  have haction := isString_delete ha ha'
  rw [ho'] at ho
  have hofferId : offerIdText su (payload.get "offerId") = DexOffer.offerIdOf su input.offerId :=
    offerIdText_eq ho
  rw [← parseAsset_iff laws hs hselling, ← parseAsset_iff laws hb hbuying]
  simp only [dexOffer_eq_ok, haction, hofferId, field_string hm, field_string hp, decide_eq_true_eq]
  constructor
  · rintro ⟨op', ⟨selling', buying', hs, hb, rfl⟩, hop', hsame⟩
    cases hsame
    exact ⟨((laws.manageSellOffer _ _ _ _ _ _).mp hop').2, hs, hb⟩
  · rintro ⟨hsource, hs, hb⟩
    exact ⟨_, ⟨selling, buying, hs, hb, rfl⟩,
      (laws.manageSellOffer _ _ _ _ _ _).mpr ⟨hop, hsource⟩, rfl⟩

theorem rawPathPayment_isObject {raw : RawPathPayment} (h : rawPathPayment payload = some raw) :
    isObject payload = true := by
  simp only [rawPathPayment, Option.bind_eq_bind, Option.bind_eq_some_iff] at h
  obtain ⟨⟨⟩, hobject, -⟩ := h
  exact isObject_of_guard hobject

theorem pathPaymentStrictReceive_unsourced {raw : RawPathPayment}
    (h : pathPaymentOperation su strictSendPaths raw = .ok op) {op' : Operation}
    (h' : pathPaymentStrictReceive su payload = .ok op') : unsourced op' ≠ op := by
  simp only [pathPaymentOperation, bind_eq_ok, Prod.exists] at h
  obtain ⟨input, send, dest, path, -, p, -, h⟩ := h
  simp only [pathPaymentStrictReceive, bind_eq_ok] at h'
  obtain ⟨send', -, dest', -, path', -, h'⟩ := h'
  cases h
  cases h'
  simp [unsourced]

theorem taskToOperation_eq_ok {type : String} (htype : task.get "type" = .string type)
    (hpayload : task.get "payload" = payload) (hobject : isObject payload = true) :
    taskToOperation su task = .ok op ↔
      operationOf su type payload = .ok op ∧ su.operation op = .ok () := by
  cases task with
  | object fields =>
    have hpayload' : payloadOf (.object fields) = payload := by
      cases payload with
      | object fields' =>
        rw [payloadOf, hpayload]
        rfl
      | _ => cases hobject
    have htype' : ((Value.object fields).get "type").orElse (.string "") = .string type := by
      rw [htype]
      rfl
    simp only [taskToOperation, htype', hpayload', bind_eq_ok, Value.text]
    constructor
    · rintro ⟨op', hop, ⟨⟩, hok, h⟩
      cases h
      exact ⟨hop, hok⟩
    · rintro ⟨hop, hok⟩
      exact ⟨op, hop, ⟨⟩, hok, rfl⟩
  | _ => cases htype

/-- A task builds the operation of its dedicated tool, up to the source account that the tool
takes no notice of, exactly when the two agree on its payload. -/
theorem composed_iff_agrees (su : Setup) (bare : String → Except Fault Unit)
    (strictSendPaths : Except Fault (List (List Asset))) (isSource : String → Bool)
    (laws : Documented su bare isSource) (task : Value) (type : String) (op : Operation)
    (htype : task.get "type" = .string type)
    (h : Dedicated su bare strictSendPaths type (task.get "payload") op) :
    (∃ op', taskToOperation su task = .ok op' ∧ unsourced op' = op) ↔
      Agrees su isSource type (task.get "payload") := by
  generalize hpayload : task.get "payload" = payload at h ⊢
  cases h with
  | payment raw hraw h =>
    rw [Agrees, ← payment_iff laws hraw h]
    simp only [taskToOperation_eq_ok htype hpayload (rawPayment_ok hraw).1, and_assoc]
    rfl
  | dexOffer raw hraw h =>
    rw [Agrees, ← dexOffer_iff laws hraw h]
    simp only [taskToOperation_eq_ok htype hpayload (rawDexOffer_ok hraw).1, and_assoc]
    rfl
  | pathPayment raw hraw hpath h =>
    simp only [taskToOperation_eq_ok htype hpayload (rawPathPayment_isObject hraw)]
    refine iff_of_false ?_ fun h => h.2
    rintro ⟨op', ⟨hop, -⟩, hsame⟩
    exact pathPaymentStrictReceive_unsourced h hop hsame

/-- A tool whose SDK accepts everything but an asset without a code. -/
def codedTool : Setup :=
  { tool with
    sdk :=
      { tool.sdk with
        newAsset := fun code _ =>
          if code = "" then
            .error (.error "Asset code is invalid (maximum alphanumeric, 12 characters at max)")
          else .ok () } }

def bareAsset (code : String) : Except Fault Unit :=
  if code.toLower = "xlm" then .ok () else .error (.error "Issuer cannot be null")

theorem codedTool_documented : Documented codedTool bareAsset fun _ => true where
  code := fun _ => nofun
  bareCode := by decide +kernel
  payment := fun _ _ _ _ => iff_of_true rfl ⟨rfl, Option.all_true⟩
  manageSellOffer := fun _ _ _ _ _ _ => iff_of_true rfl ⟨rfl, Option.all_true⟩

def receiver : String := "GRECEIVERAAAAAAAAAAAAAAAAAAAAAAAAAAAAAAAAAAAAAAAAAAAAAAA"

def usdc : Value := .object [("code", .string "USDC"), ("issuer", .string "GISSUER")]

def xlm : Value := .object [("code", .string "XLM")]

def taskOf (type : String) (payload : List (String × Value)) : Value :=
  .object [("type", .string type), ("payload", .object payload)]

def offerTask : Value :=
  taskOf "dex_offer" [("action", .string "create"), ("selling", xlm), ("buying", usdc),
    ("amount", .string "10"), ("price", .string "0.5")]

def pathTask : Value :=
  taskOf "path_payment" [("destination", .string receiver), ("sendAsset", xlm),
    ("sendAmount", .string "10"), ("destAsset", usdc), ("destMinAmount", .string "9"),
    ("path", .array [xlm])]

theorem composed_offer : ∃ op', taskToOperation codedTool offerTask = .ok op' ∧
    unsourced op' = .manageSellOffer .native (.issued "USDC" "GISSUER") "10" "0.5" "0" none := by
  have hamount : amountIssues (some "10") = [] := by decide +kernel
  have hprice : DexOffer.priceIssues (some "0.5") = [] := by decide +kernel
  have hprepare : DexOffer.prepare codedTool bareAsset ⟨some "create", ⟨some "XLM", none⟩,
      ⟨some "USDC", some "GISSUER"⟩, some "10", some "0.5", none⟩ =
      .ok (.manageSellOffer .native (.issued "USDC" "GISSUER") "10" "0.5" "0" none) := by
    simp only [DexOffer.prepare, DexOffer.dexOfferInputSchema, hamount, hprice]
    rfl
  have hissuer : Value.string "GISSUER" ≠ .undefined := by simp
  exact (composed_iff_agrees codedTool bareAsset (.ok []) (fun _ => true) codedTool_documented
    offerTask "dex_offer" _ rfl (.dexOffer _ rfl hprepare)).mpr
      ⟨rfl, .inl rfl, .inr (.inl hissuer)⟩

def sent : Operation :=
  .pathPaymentStrictSend .native "10" receiver (.issued "USDC" "GISSUER") "9" [.native] none

def received : Operation :=
  .pathPaymentStrictReceive .native "undefined" receiver (.issued "USDC" "GISSUER") "undefined"
    [.native] none

/-- A path payment becomes a strict receive of an amount that its payload does not have. -/
theorem composed_path_payment :
    Dedicated codedTool bareAsset (.ok []) "path_payment" (pathTask.get "payload") sent ∧
      taskToOperation codedTool pathTask = .ok received ∧ unsourced received ≠ sent := by
  have hsend : Rebuilding.PathPaymentTool.amountIssues "sendAmount" (some "10") = [] := by
    decide +kernel
  have hdest : Rebuilding.PathPaymentTool.amountIssues "destMinAmount" (some "9") = [] := by
    decide +kernel
  have hlength : ensure (jsLength receiver == 56) ["destination"] "Invalid Stellar public key" =
      [] := by decide +kernel
  have hoperation : pathPaymentOperation codedTool (.ok []) ⟨some receiver, ⟨some "XLM", none⟩,
      some "10", ⟨some "USDC", some "GISSUER"⟩, some "9", [⟨some "XLM", none⟩], none, none,
      none⟩ = .ok sent := by
    simp only [pathPaymentOperation, Rebuilding.PathPaymentTool.prepare,
      Rebuilding.PathPaymentTool.pathPaymentInputSchema, hsend, hdest, hlength]
    rfl
  exact ⟨.pathPayment _ rfl (List.cons_ne_nil _ _) hoperation, rfl, nofun⟩

end PayFi.Tools.Composed
