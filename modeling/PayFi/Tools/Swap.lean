import PayFi.Library.Extrema
import PayFi.Library.Rounding
import PayFi.Spending.Accounting
import PayFi.Tools.Rebuilding

namespace PayFi.Tools.Swap

open Library.Numbers Library.Doubles Library.Extrema Library.FixedPoint Library.Results
open Library.Rounding Network.Submission Payment Spending.Accounting Spending.Guard
open Rebuilding.PathPaymentTool (RawAsset AssetInput RawPathPayment PathContent assetSchema
  issuesOf toAsset)

structure RawSwap where
  sellAsset : RawAsset
  buyAsset : RawAsset
  sellAmount : Option String
  maxSlippagePct : Option Number

structure SwapInput where
  sellAsset : AssetInput
  buyAsset : AssetInput
  sellAmount : String
  maxSlippagePct : ℚ
  nonneg : 0 ≤ maxSlippagePct
  le_hundred : maxSlippagePct ≤ 100

def maxSlippagePctIssues : Option Number → List Issue
  | none => [⟨["maxSlippagePct"], "Required"⟩]
  | some .nan => [⟨["maxSlippagePct"], "Expected number, received nan"⟩]
  | some n => ensure (!n.lt (.finite 0)) ["maxSlippagePct"] "maxSlippagePct must be at least 0" ++
      ensure (!(Number.finite 100).lt n) ["maxSlippagePct"] "maxSlippagePct must be at most 100"

def swapInputSchema (raw : RawSwap) : Except (List Issue) SwapInput :=
  let issues := issuesOf (assetSchema ["sellAsset"] raw.sellAsset) ++
    issuesOf (assetSchema ["buyAsset"] raw.buyAsset) ++
    Rebuilding.PathPaymentTool.amountIssues "sellAmount" raw.sellAmount ++
    maxSlippagePctIssues raw.maxSlippagePct
  match raw.sellAsset.code, raw.buyAsset.code, raw.sellAmount, raw.maxSlippagePct with
  | some sellCode, some buyCode, some sellAmount, some (.finite pct) =>
    if h : 0 ≤ pct ∧ pct ≤ 100 then
      if issues = [] then
        .ok ⟨⟨sellCode, raw.sellAsset.issuer⟩, ⟨buyCode, raw.buyAsset.issuer⟩, sellAmount, pct,
          h.1, h.2⟩
      else .error issues
    else .error issues
  | _, _, _, _ => .error issues

/-- A hop of a path as Horizon describes it; the fields `code` and `issuer` are read where the
other two say nothing. -/
structure Hop where
  assetType : String
  assetCode : String
  assetIssuer : Option String
  code : Option String
  issuer : Option String
  deriving DecidableEq

structure Record where
  destinationAmount : String
  path : List Hop
  deriving DecidableEq

deriving instance DecidableEq for RawAsset, RawPathPayment, AssetInput,
  Rebuilding.PathPaymentTool.PathPaymentInput

/-- The asset that a hop goes through. -/
def hopAsset (step : Hop) : Asset :=
  if step.assetType = "native" then .native
  else .issued step.assetCode (step.assetIssuer.getD "")

def pathAssetsFromRecord (path : List Hop) : List RawAsset :=
  path.map fun step =>
    if step.assetType = "native" then ⟨some "XLM", none⟩
    else ⟨some step.assetCode, if truthy step.assetIssuer then step.assetIssuer else none⟩

def amountOfIn (A : Arithmetic) (r : Record) : Number := A.parseFloat r.destinationAmount

def betterIn (A : Arithmetic) (currentBest candidate : Record) : Record :=
  if (amountOfIn A currentBest).lt (amountOfIn A candidate) then candidate else currentBest

/-- What `execute` settles before it calls the path payment tool: the best record and the
payload. -/
def planIn (A : Arithmetic) (fixed : ℕ → Number → String) (sdk : Sdk) (publicKey : String)
    (numberText : Number → String) (raw : RawSwap) (response : Except Fault (List Record)) :
    Except Fault (Record × RawPathPayment) := do
  let input ← (swapInputSchema raw).mapError .zod
  let _ ← toAsset sdk input.sellAsset
  let _ ← toAsset sdk input.buyAsset
  match ← response with
  | [] => throw (.error "No swap path found for the requested assets")
  | first :: rest =>
    let amounts := (first :: rest).map (amountOfIn A)
    let bestAmount := maximum amounts
    let worstAmount := minimum amounts
    if le bestAmount (.finite 0) then
      throw (.error "Swap path returned zero destination amount")
    let deviationPct := A.mul (A.div (A.sub bestAmount worstAmount) bestAmount) (.finite 100)
    if (Number.finite input.maxSlippagePct).lt deviationPct then
      throw (.error ("Slippage deviation " ++ fixed 2 deviationPct ++ "% exceeds tolerance " ++
        numberText (.finite input.maxSlippagePct) ++ "%"))
    let bestPath := rest.foldl (betterIn A) first
    let destMinAmount := fixed 7 (A.mul bestAmount
      (A.sub (.finite 1) (A.div (.finite input.maxSlippagePct) (.finite 100))))
    return (bestPath, ⟨some publicKey, ⟨some input.sellAsset.code, input.sellAsset.issuer⟩,
      some input.sellAmount, ⟨some input.buyAsset.code, input.buyAsset.issuer⟩, some destMinAmount,
      pathAssetsFromRecord bestPath.path, some true, none, none⟩)

/-- The same with exact numbers. -/
def plan (sdk : Sdk) (publicKey : String) (numberText : Number → String) (raw : RawSwap)
    (response : Except Fault (List Record)) : Except Fault (Record × RawPathPayment) :=
  planIn .exact toFixed sdk publicKey numberText raw response

/-- How the path payment tool reads a hop of a path that it has found itself; `bare` is what the
SDK makes of a code without an issuer, and the asset is then the native one. -/
def foundAsset (sdk : Sdk) (bare : String → Except Fault Unit) (p : Hop) : Except Fault Asset :=
  if p.assetType = "native" ∨ p.code = some "XLM" then .ok .native
  else
    let code := if p.assetCode ≠ "" then p.assetCode else p.code.getD ""
    let issuer := if truthy p.assetIssuer then p.assetIssuer else p.issuer
    if truthy issuer then
      (sdk.newAsset code (issuer.getD "")).map fun _ => .issued code (issuer.getD "")
    else (bare code).map fun _ => .native

def discovered (sdk : Sdk) (bare : String → Except Fault Unit)
    (response : Except Fault (List Record)) : Except Fault (List (List Asset)) := do
  match ← response with
  | [] => return []
  | bestRecord :: _ => return [← bestRecord.path.mapM (foundAsset sdk bare)]

/-- The best record, and the transaction that the path payment tool builds for it. -/
def built (sdk : Sdk) (bare : String → Except Fault Unit) (publicKey : String)
    (numberText : Number → String) (raw : RawSwap) (first second : Except Fault (List Record)) :
    Except Fault (Record × PathContent) := do
  let (bestPath, payload) ← plan sdk publicKey numberText raw first
  let (input, sendAsset, destAsset, path) ←
    Rebuilding.PathPaymentTool.prepare sdk publicKey (discovered sdk bare second) payload
  let content ← Rebuilding.PathPaymentTool.content sdk input sendAsset destAsset path
  return (bestPath, content)

def execute (retries : ℕ) (sdk : Sdk) (bare : String → Except Fault Unit) (publicKey : String)
    (numberText : Number → String) (raw : RawSwap) (first second : Except Fault (List Record))
    (net : Rebuilding.Network) (l : Ledger PathContent) :
    Except Fault (String × ℕ) × Ledger PathContent :=
  match plan sdk publicKey numberText raw first with
  | .error e => (.error e, l)
  | .ok (_, payload) =>
    Rebuilding.PathPaymentTool.execute retries sdk publicKey (discovered sdk bare second) payload
      net l

variable {sdk : Sdk} {bare : String → Except Fault Unit} {publicKey : String}
  {numberText : Number → String} {raw : RawSwap} {response second : Except Fault (List Record)}
  {best : Record} {payload : RawPathPayment} {records : List Record}

theorem swapInputSchema_ok {input : SwapInput} (h : swapInputSchema raw = .ok input) :
    Rebuilding.PathPaymentTool.amountIssues "sellAmount" (some input.sellAmount) = [] ∧
      raw.maxSlippagePct = some (.finite input.maxSlippagePct) := by
  simp only [swapInputSchema] at h
  split at h
  · rename_i sellCode buyCode sellAmount pct hs hb ha hp
    split at h
    · split at h
      · rename_i hissues
        cases h
        rw [ha] at hissues
        simp only [List.append_eq_nil_iff] at hissues
        exact ⟨hissues.1.2, hp⟩
      · cases h
    · cases h
  · cases h

theorem planIn_ok {A : Arithmetic} {fixed : ℕ → Number → String}
    (h : planIn A fixed sdk publicKey numberText raw response = .ok (best, payload)) :
    ∃ input first rest, swapInputSchema raw = .ok input ∧ response = .ok (first :: rest) ∧
      le (maximum ((first :: rest).map (amountOfIn A))) (.finite 0) = false ∧
      (Number.finite input.maxSlippagePct).lt (A.mul (A.div (A.sub (maximum ((first :: rest).map
        (amountOfIn A))) (minimum ((first :: rest).map (amountOfIn A)))) (maximum
          ((first :: rest).map (amountOfIn A)))) (.finite 100)) = false ∧
      best = rest.foldl (betterIn A) first ∧
      payload = ⟨some publicKey, ⟨some input.sellAsset.code, input.sellAsset.issuer⟩,
        some input.sellAmount, ⟨some input.buyAsset.code, input.buyAsset.issuer⟩,
        some (fixed 7 (A.mul (maximum ((first :: rest).map (amountOfIn A)))
          (A.sub (.finite 1) (A.div (.finite input.maxSlippagePct) (.finite 100))))),
        pathAssetsFromRecord best.path, some true, none, none⟩ := by
  simp only [planIn, bind_eq_ok, mapError_eq_ok] at h
  obtain ⟨input, hinput, -, -, -, -, records, hresponse, h⟩ := h
  cases records with
  | nil => cases h
  | cons first rest =>
    simp only [throwIf_eq_ok, Bool.not_eq_true] at h
    obtain ⟨hpositive, hdeviation, h⟩ := h
    cases h
    exact ⟨input, first, rest, hinput, hresponse, hpositive, hdeviation, rfl, rfl⟩

def amountValue (r : Record) : ℚ := value r.destinationAmount

section Finite

variable {A : Arithmetic} {f : Record → ℚ}

theorem map_amountOfIn (h : ∀ r ∈ records, amountOfIn A r = .finite (f r)) :
    records.map (amountOfIn A) = (records.map f).map Number.finite := by
  rw [List.map_map]
  exact List.map_congr_left fun r hr => h r hr

theorem foldl_betterIn_eq (first : Record) (rest : List Record)
    (h : ∀ r ∈ first :: rest, amountOfIn A r = .finite (f r)) :
    rest.foldl (betterIn A) first = rest.foldl (pick f) first := by
  induction rest generalizing first with
  | nil => rfl
  | cons r rest ih =>
    obtain ⟨hfirst, hrest⟩ := List.forall_mem_cons.mp h
    obtain ⟨hr, hrest⟩ := List.forall_mem_cons.mp hrest
    have hbetter : betterIn A first r = pick f first r := by
      simp only [betterIn, pick, hfirst, hr, Number.lt, decide_eq_true_eq]
    rw [List.foldl_cons, List.foldl_cons, hbetter]
    apply ih
    refine List.forall_mem_cons.mpr ⟨?_, hrest⟩
    rcases pick_eq f first r with hp | hp <;> rw [hp]
    · exact hfirst
    · exact hr

theorem foldl_betterIn_greatest {first : Record} {rest : List Record}
    (h : ∀ r ∈ first :: rest, amountOfIn A r = .finite (f r)) :
    rest.foldl (betterIn A) first ∈ first :: rest ∧
      ∀ r ∈ first :: rest, f r ≤ f (rest.foldl (betterIn A) first) := by
  rw [foldl_betterIn_eq first rest h]
  exact ⟨foldl_pick_mem f first rest, le_foldl_pick f first rest⟩

theorem maximum_amounts {first : Record} {rest : List Record}
    (h : ∀ r ∈ first :: rest, amountOfIn A r = .finite (f r)) :
    maximum ((first :: rest).map (amountOfIn A)) = .finite (f (rest.foldl (betterIn A) first)) := by
  obtain ⟨hmem, hgreatest⟩ := foldl_betterIn_greatest h
  have hne : (first :: rest).map f ≠ [] := List.cons_ne_nil _ _
  obtain ⟨m, hmax, hm, hle⟩ := maximum_finite hne
  obtain ⟨r, hr, rfl⟩ := List.mem_map.mp hm
  rw [map_amountOfIn h, hmax, Number.finite.injEq]
  exact le_antisymm (hgreatest r hr) (hle _ (List.mem_map_of_mem hmem))

end Finite

theorem pos_of_not_le_zero {q : ℚ} (h : le (.finite q) (.finite 0) = false) : 0 < q := by
  have hnot : ¬q < 0 ∧ q ≠ 0 := by
    simpa [le, Number.lt, Number.isNaN] using h
  exact lt_of_le_of_ne (not_lt.mp hnot.1) hnot.2.symm

theorem amountOfIn_exact {r : Record} (h : isDecimal r.destinationAmount.toList = true) :
    amountOfIn .exact r = .finite (amountValue r) := by
  obtain ⟨n, hn⟩ := exists_units h
  rw [amountOfIn, Arithmetic.parseFloat_exact, amountValue, value, hn]

theorem within_of_deviation {q w pct : ℚ} (hpos : 0 < q)
    (h : (Number.finite pct).lt (mul (div ((Number.finite q).sub (.finite w)) (.finite q))
      (.finite 100)) = false) : q * (1 - pct / 100) ≤ w := by
  have hpct : (q - w) / q * 100 ≤ pct := by
    rw [sub_eq_add_neg]
    simpa [div, mul, Number.sub, Number.add, Number.neg, Number.lt, hpos.ne'] using h
  rw [div_mul_eq_mul_div, div_le_iff₀ hpos] at hpct
  linarith

theorem factor_exact (pct : ℚ) :
    (Number.finite 1).sub (div (.finite pct) (.finite 100)) = .finite (1 - pct / 100) := by
  have hdiv : div (.finite pct) (.finite 100) = .finite (pct / 100) := by
    simp only [div]
    exact if_pos (by norm_num)
  rw [hdiv, Number.sub, Number.neg, Number.add, sub_eq_add_neg]

/-- With decimal amounts, the record that has been chosen is a greatest one, and every other one
is within the tolerance. -/
theorem plan_settled (h : plan sdk publicKey numberText raw (.ok records) = .ok (best, payload))
    (hdecimal : ∀ r ∈ records, isDecimal r.destinationAmount.toList = true) :
    ∃ input, swapInputSchema raw = .ok input ∧ best ∈ records ∧
      (∀ r ∈ records, amountValue r ≤ amountValue best) ∧ 0 < amountValue best ∧
      (∀ r ∈ records, amountValue best * (1 - input.maxSlippagePct / 100) ≤ amountValue r) ∧
      payload = ⟨some publicKey, ⟨some input.sellAsset.code, input.sellAsset.issuer⟩,
        some input.sellAmount, ⟨some input.buyAsset.code, input.buyAsset.issuer⟩,
        some (toFixed 7 (.finite (amountValue best * (1 - input.maxSlippagePct / 100)))),
        pathAssetsFromRecord best.path, some true, none, none⟩ := by
  obtain ⟨input, first, rest, hinput, hresponse, hpositive, hdeviation, rfl, hpayload⟩ :=
    planIn_ok h
  cases hresponse
  have hfinite : ∀ r ∈ first :: rest, amountOfIn .exact r = .finite (amountValue r) :=
    fun r hr => amountOfIn_exact (hdecimal r hr)
  obtain ⟨hmem, hgreatest⟩ := foldl_betterIn_greatest hfinite
  simp only [maximum_amounts hfinite, Arithmetic.mul_exact, Arithmetic.div_exact,
    Arithmetic.sub_exact] at hpositive hdeviation hpayload
  have hpos := pos_of_not_le_zero hpositive
  refine ⟨input, hinput, hmem, hgreatest, hpos, fun r hr => ?_, ?_⟩
  · have hne : (first :: rest).map amountValue ≠ [] := List.cons_ne_nil _ _
    obtain ⟨w, hmin, -, hge⟩ := minimum_finite hne
    rw [map_amountOfIn hfinite, hmin] at hdeviation
    exact (within_of_deviation hpos hdeviation).trans (hge _ (List.mem_map_of_mem hr))
  · rw [hpayload, factor_exact]
    rfl

theorem bound_mem (input : SwapInput) {q : ℚ} (hq : 0 ≤ q) :
    0 ≤ q * (1 - input.maxSlippagePct / 100) ∧ q * (1 - input.maxSlippagePct / 100) ≤ q := by
  have hnonneg := input.nonneg
  have hle := input.le_hundred
  exact ⟨mul_nonneg hq (by linarith), mul_le_of_le_one_right hq (by linarith)⟩

/-- The chosen record is a greatest one, all are within the tolerance, and the least amount that
is asked for is the rounded bound. -/
theorem swap_bound (sdk : Sdk) (publicKey : String) (numberText : Number → String) (raw : RawSwap)
    (records : List Record) (best : Record) (payload : RawPathPayment)
    (hdecimal : ∀ r ∈ records, isDecimal r.destinationAmount.toList = true)
    (h : plan sdk publicKey numberText raw (.ok records) = .ok (best, payload)) :
    best ∈ records ∧ payload.path = pathAssetsFromRecord best.path ∧
      (∀ r ∈ records, amountValue r ≤ amountValue best) ∧
      ∃ pct destMinAmount m, raw.maxSlippagePct = some (.finite pct) ∧
        (∀ r ∈ records, amountValue best * (1 - pct / 100) ≤ amountValue r) ∧
        payload.destMinAmount = some destMinAmount ∧ parseFloat destMinAmount = .finite m ∧
        m ≤ amountValue best ∧ |m - amountValue best * (1 - pct / 100)| ≤ 1 / 2 / 10 ^ 7 := by
  obtain ⟨input, hinput, hmem, hgreatest, hpos, hwithin, hpayload⟩ := plan_settled h hdecimal
  have hbound : 0 ≤ amountValue best * (1 - input.maxSlippagePct / 100) ∧
      amountValue best * (1 - input.maxSlippagePct / 100) ≤ amountValue best :=
    bound_mem input hpos.le
  obtain ⟨n, hn⟩ := exists_units (hdecimal best hmem)
  have hvalue : amountValue best = (n : ℚ) / 10 ^ 7 := by
    rw [amountValue, value, hn]
  refine ⟨hmem, by rw [hpayload], hgreatest, input.maxSlippagePct, _, _,
    (swapInputSchema_ok hinput).2, hwithin, by rw [hpayload], parseFloat_toFixed hbound.1, ?_,
    abs_nearest_sub_le hbound.1⟩
  have hnearest : nearest 7 (amountValue best * (1 - input.maxSlippagePct / 100)) ≤ n := by
    apply nearest_le hbound.1
    rw [← hvalue]
    exact hbound.2
  rw [hvalue] at hnearest ⊢
  gcongr

theorem natOfDigits_zeros {ds : List Char} (h : ∀ c ∈ ds, c = '0') : natOfDigits ds = 0 := by
  induction ds using List.reverseRecOn with
  | nil => rfl
  | append_singleton ds d ih =>
    rw [natOfDigits_concat, ih fun c hc => h c (List.mem_append_left _ hc),
      h d (List.mem_append_right _ List.mem_cons_self)]
    rfl

theorem unsignedDecimal_isZero {cs : List Char} (h : isZero cs = true) :
    unsignedDecimal cs = some 0 := by
  unfold isZero at h
  split at h
  · decide +kernel
  · rename_i ds
    rw [Bool.and_eq_true, List.all_eq_true] at h
    have hzeros : ∀ c ∈ ds, c = '0' := fun c hc => of_decide_eq_true (h.2 c hc)
    have hdigits : ∀ c ∈ ds, c.isDigit = true := by
      intro c hc
      rw [hzeros c hc]
      rfl
    have hwhole : ('0' :: '.' :: ds).takeWhile Char.isDigit = ['0'] := rfl
    have hfraction : fractionPart (('0' :: '.' :: ds).dropWhile Char.isDigit) = (ds, []) := by
      change (ds.takeWhile Char.isDigit, ds.dropWhile Char.isDigit) = (ds, [])
      rw [List.takeWhile_eq_self_iff.mpr hdigits, List.dropWhile_eq_nil_iff.mpr hdigits]
    have hvalue : natOfDigits (['0'] ++ ds) = 0 :=
      natOfDigits_zeros (List.forall_mem_cons.mpr ⟨rfl, hzeros⟩)
    simp only [unsignedDecimal, hwhole, hfraction, hvalue, Nat.cast_zero, zero_mul]
    rfl
  · cases h

theorem isZero_render {k n : ℕ} (h : isZero (render k n) = true) : n = 0 := by
  have hval := unsignedDecimal_render k n
  rw [unsignedDecimal_isZero h, Option.some.injEq, eq_comm, div_eq_zero_iff] at hval
  have hpow : (10 : ℚ) ^ k ≠ 0 := by positivity
  exact Nat.cast_eq_zero.mp (hval.resolve_right hpow)

theorem destMinAmount_accepted_iff {q : ℚ} (hq : 0 ≤ q) :
    Rebuilding.PathPaymentTool.amountIssues "destMinAmount" (some (toFixed 7 (.finite q))) = [] ↔
      1 / 2 / 10 ^ 7 ≤ q := by
  rw [← nearest_pos_iff hq]
  simp only [Rebuilding.PathPaymentTool.amountIssues, List.append_eq_nil_iff, ensure_eq_nil,
    parseFloat_toFixed hq, toList_toFixed hq, isDecimal_render, Bool.true_and, Number.lt,
    decide_eq_true_eq, Bool.not_eq_true']
  constructor
  · rintro ⟨-, hpos⟩
    by_contra hzero
    rw [Nat.eq_zero_of_not_pos hzero] at hpos
    norm_num at hpos
  · intro hpos
    refine ⟨Bool.eq_false_iff.mpr fun h => hpos.ne' (isZero_render h), ?_⟩
    positivity

theorem amountIssues_field (field field' : String) (amount : String) :
    Rebuilding.PathPaymentTool.amountIssues field (some amount) = [] ↔
      Rebuilding.PathPaymentTool.amountIssues field' (some amount) = [] := by
  simp only [Rebuilding.PathPaymentTool.amountIssues, List.append_eq_nil_iff, ensure_eq_nil]

theorem pathIssues_nil (path : List Hop) :
    Rebuilding.PathPaymentTool.pathIssues (pathAssetsFromRecord path) = [] := by
  apply List.flatten_eq_nil_iff.mpr
  intro issues hissues
  obtain ⟨⟨a, i⟩, ha, rfl⟩ := List.mem_map.mp hissues
  obtain ⟨step, -, hstep⟩ := List.mem_map.mp (List.fst_mem_of_mem_zipIdx ha)
  have hcode : ∃ code, a.code = some code := by
    change _ = a at hstep
    rw [← hstep]
    split
    · exact ⟨_, rfl⟩
    · exact ⟨_, rfl⟩
  obtain ⟨code, hcode⟩ := hcode
  simp only [assetSchema, hcode, issuesOf]

theorem payload_accepted {input : SwapInput} (hinput : swapInputSchema raw = .ok input)
    (hown : jsLength publicKey = 56) (destMinAmount : String) (path : List Hop) :
    (∃ accepted, Rebuilding.PathPaymentTool.pathPaymentInputSchema ⟨some publicKey,
      ⟨some input.sellAsset.code, input.sellAsset.issuer⟩, some input.sellAmount,
      ⟨some input.buyAsset.code, input.buyAsset.issuer⟩, some destMinAmount,
      pathAssetsFromRecord path, some true, none, none⟩ = .ok accepted) ↔
      Rebuilding.PathPaymentTool.amountIssues "destMinAmount" (some destMinAmount) = [] := by
  have howned : ensure (jsLength publicKey == 56) ["destination"] "Invalid Stellar public key" =
      [] := ensure_eq_nil.mpr (beq_iff_eq.mpr hown)
  have hsend := (amountIssues_field "sellAmount" "sendAmount" _).mp (swapInputSchema_ok hinput).1
  have hmemo : memoTypeIssues none ++ memoValueIssues none = [] := rfl
  simp only [Rebuilding.PathPaymentTool.pathPaymentInputSchema, howned, pathIssues_nil, hsend,
    assetSchema, issuesOf, List.nil_append, List.append_assoc, List.append_nil, memoTypeOf, hmemo]
  split
  · rename_i hissues
    exact iff_of_true ⟨_, rfl⟩ hissues
  · rename_i hissues
    exact iff_of_false (fun ⟨_, hok⟩ => by cases hok) hissues

theorem toDouble_amount {q : ℚ} (hq : 0 ≤ q) (h : q ≤ 10 ^ 12) :
    toDouble q = .finite (nearestDouble q) ∧ 0 ≤ nearestDouble q ∧ nearestDouble q ≤ 10 ^ 12 := by
  have hbound : nearestDouble (10 ^ 12) = 10 ^ 12 := by decide +kernel
  have hle := nearestDouble_mono hq h
  rw [hbound] at hle
  have hlarge : (10 : ℚ) ^ 12 < 2 ^ 1024 := by
    calc (10 : ℚ) ^ 12 < 2 ^ 40 := by norm_num
      _ ≤ 2 ^ 1024 := pow_le_pow_right₀ (by norm_num) (by norm_num)
  exact ⟨toDouble_finite hq (hle.trans_lt hlarge), nearestDouble_nonneg hq, hle⟩

theorem nearestDouble_mem {q : ℚ} (hq : 0 ≤ q) (h : q ≤ 1) :
    0 ≤ nearestDouble q ∧ nearestDouble q ≤ 1 := by
  have hone : nearestDouble 1 = 1 := by decide +kernel
  have hle := nearestDouble_mono hq h
  rw [hone] at hle
  exact ⟨nearestDouble_nonneg hq, hle⟩

def factor (pct : ℚ) : ℚ := nearestDouble (1 - nearestDouble (pct / 100))

theorem factor_mem {pct : ℚ} (h0 : 0 ≤ pct) (h1 : pct ≤ 100) : 0 ≤ factor pct ∧ factor pct ≤ 1 := by
  obtain ⟨hnonneg, hle⟩ := nearestDouble_mem (q := pct / 100) (by positivity) (by linarith)
  exact nearestDouble_mem (by linarith) (by linarith)

theorem factor_double {pct : ℚ} (h0 : 0 ≤ pct) (h1 : pct ≤ 100) :
    Arithmetic.double.sub (.finite 1) (Arithmetic.double.div (.finite pct) (.finite 100)) =
      .finite (factor pct) := by
  have hdiv : div (.finite pct) (.finite 100) = .finite (pct / 100) := by
    simp only [div]
    exact if_pos (by norm_num)
  obtain ⟨hnonneg, hle⟩ := nearestDouble_mem (q := pct / 100) (by positivity) (by linarith)
  have hquotient : Arithmetic.double.div (.finite pct) (.finite 100) =
      .finite (nearestDouble (pct / 100)) := by
    rw [Arithmetic.div, hdiv]
    exact (toDouble_amount (by positivity) (by linarith)).1
  rw [hquotient, Arithmetic.sub, Number.sub, Number.neg, Number.add, ← sub_eq_add_neg]
  exact (toDouble_amount (by linarith) (by linarith)).1

/-- The least amount that a record asks for, in doubles and before it is written. -/
def leastAmount (r : Record) (pct : ℚ) : ℚ :=
  nearestDouble (nearestDouble (amountValue r) * factor pct)

/-- A decimal amount that can be asked for. -/
def Amount (r : Record) : Prop :=
  isDecimal r.destinationAmount.toList = true ∧ amountValue r < 10 ^ 12

instance (r : Record) : Decidable (Amount r) := inferInstanceAs (Decidable (_ ∧ _))

theorem amountValue_nonneg {r : Record} (h : Amount r) : 0 ≤ amountValue r := by
  obtain ⟨n, hn⟩ := exists_units h.1
  rw [amountValue, value, hn]
  positivity

theorem amountOfIn_double {r : Record} (h : Amount r) :
    amountOfIn .double r = .finite (nearestDouble (amountValue r)) := by
  have hexact := amountOfIn_exact h.1
  rw [amountOfIn, Arithmetic.parseFloat_exact] at hexact
  rw [amountOfIn, Arithmetic.parseFloat, hexact]
  exact (toDouble_amount (amountValue_nonneg h) h.2.le).1

theorem leastAmount_mem {r : Record} {pct : ℚ} (h : Amount r) (h0 : 0 ≤ pct) (h1 : pct ≤ 100) :
    Arithmetic.double.mul (.finite (nearestDouble (amountValue r))) (.finite (factor pct)) =
        .finite (leastAmount r pct) ∧ 0 ≤ leastAmount r pct ∧ leastAmount r pct ≤ 10 ^ 12 := by
  obtain ⟨-, hnonneg, hle⟩ := toDouble_amount (amountValue_nonneg h) h.2.le
  obtain ⟨hfactor, hfactor'⟩ := factor_mem h0 h1
  exact toDouble_amount (mul_nonneg hnonneg hfactor)
    ((mul_le_of_le_one_right hnonneg hfactor').trans hle)

theorem leastAmount_mono {r r' : Record} {pct : ℚ} (h : Amount r)
    (hle : nearestDouble (amountValue r) ≤ nearestDouble (amountValue r')) (h0 : 0 ≤ pct)
    (h1 : pct ≤ 100) : leastAmount r pct ≤ leastAmount r' pct := by
  obtain ⟨-, hnonneg, -⟩ := toDouble_amount (amountValue_nonneg h) h.2.le
  have hfactor := (factor_mem h0 h1).1
  exact nearestDouble_mono (mul_nonneg hnonneg hfactor) (mul_le_mul_of_nonneg_right hle hfactor)

/-- The path payment tool accepts the payload of a swap exactly when, in doubles, some record
leaves at least half of the smallest unit; less is written as a zero. -/
theorem payload_accepted_iff (sdk : Sdk) (publicKey : String) (numberText : Number → String)
    (raw : RawSwap) (records : List Record) (best : Record) (payload : RawPathPayment)
    (hown : jsLength publicKey = 56) (hamounts : ∀ r ∈ records, Amount r)
    (h : planIn .double (toFixedBelow numberText) sdk publicKey numberText raw (.ok records) =
      .ok (best, payload)) :
    (∃ input, Rebuilding.PathPaymentTool.pathPaymentInputSchema payload = .ok input) ↔
      ∃ pct, raw.maxSlippagePct = some (.finite pct) ∧
        ∃ r ∈ records, 1 / 2 / 10 ^ 7 ≤ leastAmount r pct := by
  obtain ⟨input, first, rest, hinput, hresponse, -, -, rfl, rfl⟩ := planIn_ok h
  cases hresponse
  have hfinite : ∀ r ∈ first :: rest,
      amountOfIn .double r = .finite (nearestDouble (amountValue r)) :=
    fun r hr => amountOfIn_double (hamounts r hr)
  obtain ⟨hmem, hgreatest⟩ := foldl_betterIn_greatest hfinite
  obtain ⟨hleast, hnonneg, hle⟩ := leastAmount_mem (hamounts _ hmem) input.nonneg input.le_hundred
  have hsmall : ¬10 ^ 21 ≤ |leastAmount (rest.foldl (betterIn .double) first)
      input.maxSlippagePct| := by
    rw [abs_of_nonneg hnonneg]
    exact not_le.mpr (hle.trans_lt (by norm_num))
  rw [payload_accepted hinput hown, maximum_amounts hfinite,
    factor_double input.nonneg input.le_hundred, hleast, toFixedBelow, if_neg hsmall,
    destMinAmount_accepted_iff hnonneg]
  obtain ⟨-, hpct⟩ := swapInputSchema_ok hinput
  constructor
  · intro hhalf
    exact ⟨input.maxSlippagePct, hpct, _, hmem, hhalf⟩
  · rintro ⟨pct, hpct', r, hr, hhalf⟩
    rw [hpct] at hpct'
    cases hpct'
    exact hhalf.trans (leastAmount_mono (hamounts r hr) (hgreatest r hr) input.nonneg
      input.le_hundred)

theorem pathPaymentInputSchema_path {raw : RawPathPayment}
    {input : Rebuilding.PathPaymentTool.PathPaymentInput}
    (h : Rebuilding.PathPaymentTool.pathPaymentInputSchema raw = .ok input) :
    input.path = raw.path.map fun a => ⟨a.code.getD "", a.issuer⟩ := by
  unfold Rebuilding.PathPaymentTool.pathPaymentInputSchema at h
  extract_lets issues at h
  split at h
  · split at h
    · cases h
      rfl
    · cases h
  · cases h

theorem prepare_path {strictSendPaths : Except Fault (List (List Asset))} {raw : RawPathPayment}
    {input : Rebuilding.PathPaymentTool.PathPaymentInput} {sendAsset destAsset : Asset}
    {path : List Asset}
    (h : Rebuilding.PathPaymentTool.prepare sdk publicKey strictSendPaths raw =
      .ok (input, sendAsset, destAsset, path)) :
    ∃ given, (raw.path.map fun a => (⟨a.code.getD "", a.issuer⟩ : AssetInput)).mapM (toAsset sdk) =
      .ok given ∧ Rebuilding.PathPaymentTool.findPath strictSendPaths given = .ok path := by
  simp only [Rebuilding.PathPaymentTool.prepare, bind_eq_ok, mapError_eq_ok, throwIf_eq_ok] at h
  obtain ⟨input', hinput, -, send, -, dest, -, given, hgiven, path', hpath, h⟩ := h
  cases h
  rw [pathPaymentInputSchema_path hinput] at hgiven
  exact ⟨given, hgiven, hpath⟩

theorem toAsset_ok {a : AssetInput} {asset : Asset} (h : toAsset sdk a = .ok asset) :
    a.code = "XLM" ∧ asset = .native ∨
      a.code ≠ "XLM" ∧ truthy a.issuer = true ∧ asset = .issued a.code (a.issuer.getD "") := by
  unfold Rebuilding.PathPaymentTool.toAsset at h
  split at h
  · rename_i hxlm
    cases h
    exact .inl ⟨hxlm, rfl⟩
  · rename_i hxlm
    simp only [throwIf_eq_ok, bind_eq_ok] at h
    obtain ⟨hissuer, -, -, h⟩ := h
    cases h
    exact .inr ⟨hxlm, by simpa using hissuer, rfl⟩

def Handed (sdk : Sdk) (step : Hop) (asset : Asset) : Prop :=
  toAsset sdk (if step.assetType = "native" then ⟨"XLM", none⟩
    else ⟨step.assetCode, if truthy step.assetIssuer then step.assetIssuer else none⟩) = .ok asset

theorem handed_eq_iff {step : Hop} {asset : Asset} (h : Handed sdk step asset) :
    asset = hopAsset step ↔ (step.assetType ≠ "native" → step.assetCode ≠ "XLM") := by
  unfold Handed at h
  unfold hopAsset
  by_cases hnative : step.assetType = "native"
  · rw [if_pos hnative] at h ⊢
    rcases toAsset_ok h with ⟨-, ha⟩ | ⟨hcode, -, -⟩
    · exact iff_of_true ha fun hn => absurd hnative hn
    · exact absurd rfl hcode
  · rw [if_neg hnative] at h ⊢
    rcases toAsset_ok h with ⟨hcode, rfl⟩ | ⟨hcode, hissuer, rfl⟩
    · exact iff_of_false nofun fun hn => hn hnative hcode
    · refine iff_of_true ?_ fun _ => hcode
      split at hissuer
      · rename_i ht
        rw [if_pos ht]
      · cases hissuer

theorem handed_path {path : List Hop} {given : List Asset}
    (h : ((pathAssetsFromRecord path).map fun a =>
      (⟨a.code.getD "", a.issuer⟩ : AssetInput)).mapM (toAsset sdk) = .ok given) :
    List.Forall₂ (Handed sdk) path given := by
  rw [pathAssetsFromRecord, List.map_map] at h
  have hall := mapM_eq_ok.mp h
  rw [List.forall₂_map_left_iff] at hall
  refine hall.imp fun step asset hstep => ?_
  unfold Handed
  rw [← hstep]
  dsimp only [Function.comp_apply]
  split <;> rfl

theorem handed_map_iff {path : List Hop} {given : List Asset}
    (h : List.Forall₂ (Handed sdk) path given) :
    given = path.map hopAsset ↔
      ∀ step ∈ path, step.assetType ≠ "native" → step.assetCode ≠ "XLM" := by
  induction h with
  | nil => exact iff_of_true rfl (List.forall_mem_nil _)
  | cons hstep _ ih =>
    rw [List.map_cons, List.cons.injEq, ih, handed_eq_iff hstep, List.forall_mem_cons]

theorem findPath_nil {path : List Asset}
    (h : Rebuilding.PathPaymentTool.findPath (discovered sdk bare second) [] = .ok path) :
    ∃ found rest, second = .ok (found :: rest) ∧ (path = [] ↔ found.path = []) := by
  simp only [Rebuilding.PathPaymentTool.findPath, discovered, ne_eq, not_true, if_false,
    bind_eq_ok] at h
  obtain ⟨paths, ⟨records, hsecond, hpaths⟩, h⟩ := h
  cases records with
  | nil =>
    cases hpaths
    cases h
  | cons found rest =>
    simp only [bind_eq_ok] at hpaths
    obtain ⟨path', hfound, hpaths⟩ := hpaths
    cases hpaths
    cases h
    refine ⟨found, rest, hsecond, ?_⟩
    have hlength := (mapM_eq_ok.mp hfound).length_eq
    rw [← List.length_eq_zero_iff, ← hlength, List.length_eq_zero_iff]

theorem findPath_given {path given : List Asset}
    {strictSendPaths : Except Fault (List (List Asset))} (hne : given ≠ [])
    (h : Rebuilding.PathPaymentTool.findPath strictSendPaths given = .ok path) : path = given := by
  rw [Rebuilding.PathPaymentTool.findPath, if_pos hne] at h
  cases h
  rfl

theorem built_ok {content : PathContent} {first : Except Fault (List Record)}
    (h : built sdk bare publicKey numberText raw first second = .ok (best, content)) :
    ∃ given, List.Forall₂ (Handed sdk) best.path given ∧
      Rebuilding.PathPaymentTool.findPath (discovered sdk bare second) given =
        .ok content.path := by
  simp only [built, bind_eq_ok, Prod.exists] at h
  obtain ⟨best', payload, hplan, input, send, dest, path, hprepare, content', hcontent, h⟩ := h
  cases h
  obtain ⟨given, hgiven, hpath⟩ := prepare_path hprepare
  obtain ⟨input', record, records, -, -, -, -, -, hpayload⟩ := planIn_ok hplan
  rw [hpayload] at hgiven
  simp only [Rebuilding.PathPaymentTool.content, bind_eq_ok] at hcontent
  obtain ⟨⟨⟩, -, memo, -, hcontent⟩ := hcontent
  cases hcontent
  exact ⟨given, handed_path hgiven, hpath⟩

/-- The operation goes along the path of the best record exactly when no issued asset on it has
the code of the native one, and, where there is no path, when the second answer starts with a
record that has none either. -/
theorem swap_route_iff (sdk : Sdk) (bare : String → Except Fault Unit) (publicKey : String)
    (numberText : Number → String) (raw : RawSwap) (first second : Except Fault (List Record))
    (best : Record) (content : PathContent)
    (h : built sdk bare publicKey numberText raw first second = .ok (best, content)) :
    content.path = best.path.map hopAsset ↔
      (best.path ≠ [] ∧ ∀ step ∈ best.path, step.assetType ≠ "native" → step.assetCode ≠ "XLM") ∨
        (best.path = [] ∧ ∃ found rest, second = .ok (found :: rest) ∧ found.path = []) := by
  obtain ⟨given, hgiven, hpath⟩ := built_ok h
  by_cases hnil : best.path = []
  · rw [hnil, List.forall₂_nil_left_iff] at hgiven
    rw [hgiven] at hpath
    obtain ⟨found, rest, hsecond, hfound⟩ := findPath_nil hpath
    rw [hnil, List.map_nil, hfound]
    constructor
    · intro hempty
      exact .inr ⟨rfl, found, rest, hsecond, hempty⟩
    · rintro (⟨hne, -⟩ | ⟨-, found', rest', hsecond', hempty⟩)
      · exact absurd rfl hne
      · rw [hsecond] at hsecond'
        cases hsecond'
        exact hempty
  · have hne : given ≠ [] := by
      rintro rfl
      exact hnil (List.forall₂_nil_right_iff.mp hgiven)
    rw [findPath_given hne hpath, handed_map_iff hgiven]
    exact ⟨fun hall => .inl ⟨hnil, hall⟩, fun hor => (hor.resolve_right fun h => hnil h.1).2⟩

def agent : String := "GAGENTAAAAAAAAAAAAAAAAAAAAAAAAAAAAAAAAAAAAAAAAAAAAAAAAAA"

/-- An SDK that accepts everything. -/
def lenient : Sdk :=
  ⟨fun _ => true, fun _ _ => .ok (), fun _ _ _ => .ok (), fun _ _ _ _ _ _ => .ok (),
    fun _ => ""⟩

def noBare (_ : String) : Except Fault Unit := .error (.error "Issuer cannot be null")

def tenLumens (pct : ℚ) : RawSwap :=
  ⟨⟨some "XLM", none⟩, ⟨some "USDC", some "GISSUER"⟩, some "10", some (.finite pct)⟩

def eurc : Hop := ⟨"credit_alphanum4", "EURC", some "GEURO", none, none⟩

/-- Two records, along the path. -/
def twoRecords (path : List Hop) : List Record := [⟨"9.4000000", []⟩, ⟨"9.5000000", path⟩]

def payloadOf (destMinAmount : String) (path : List RawAsset) : RawPathPayment :=
  ⟨some agent, ⟨some "XLM", none⟩, some "10", ⟨some "USDC", some "GISSUER"⟩, some destMinAmount,
    path, some true, none, none⟩

def contentOf (path : List Asset) : PathContent :=
  ⟨.native, "10", agent, .issued "USDC" "GISSUER", "9.0250000", path, none⟩

theorem swap_bound_ten_lumens :
    (⟨"9.5000000", []⟩ : Record) ∈ twoRecords [] ∧
      (payloadOf "9.0250000" []).path = pathAssetsFromRecord [] ∧
      (∀ r ∈ twoRecords [], amountValue r ≤ amountValue ⟨"9.5000000", []⟩) ∧
      ∃ pct destMinAmount m, (tenLumens 5).maxSlippagePct = some (.finite pct) ∧
        (∀ r ∈ twoRecords [], amountValue ⟨"9.5000000", []⟩ * (1 - pct / 100) ≤ amountValue r) ∧
        (payloadOf "9.0250000" []).destMinAmount = some destMinAmount ∧
        parseFloat destMinAmount = .finite m ∧ m ≤ amountValue ⟨"9.5000000", []⟩ ∧
        |m - amountValue ⟨"9.5000000", []⟩ * (1 - pct / 100)| ≤ 1 / 2 / 10 ^ 7 :=
  swap_bound lenient agent (fun _ => "5") (tenLumens 5) (twoRecords []) ⟨"9.5000000", []⟩
    (payloadOf "9.0250000" []) (by decide +kernel) (by decide +kernel)

theorem payload_accepted_ten_lumens :
    ∃ input, Rebuilding.PathPaymentTool.pathPaymentInputSchema (payloadOf "9.0250000" []) =
      .ok input := by
  apply (payload_accepted_iff lenient agent (fun _ => "5") (tenLumens 5) (twoRecords [])
    ⟨"9.5000000", []⟩ (payloadOf "9.0250000" []) (by decide +kernel) (by decide +kernel)
    (by decide +kernel)).mpr
  refine ⟨5, rfl, ⟨"9.5000000", []⟩, List.mem_cons_of_mem _ List.mem_cons_self, ?_⟩
  decide +kernel

/-- With a tolerance of everything nothing is asked for, which the path payment tool refuses; and
so it is with half of the smallest unit, because its double is a little less. -/
theorem payload_rejected_full_tolerance :
    let refused : Except (List Issue) Rebuilding.PathPaymentTool.PathPaymentInput :=
      .error [⟨["destMinAmount"], "destMinAmount must be a valid Stellar decimal"⟩,
        ⟨["destMinAmount"], "destMinAmount must be greater than zero"⟩]
    (planIn .double (toFixedBelow fun _ => "100") lenient agent (fun _ => "100") (tenLumens 100)
        (.ok (twoRecords [])) = .ok (⟨"9.5000000", []⟩, payloadOf "0.0000000" []) ∧
      planIn .double (toFixedBelow fun _ => "50") lenient agent (fun _ => "50") (tenLumens 50)
        (.ok [⟨"0.0000001", []⟩]) = .ok (⟨"0.0000001", []⟩, payloadOf "0.0000000" [])) ∧
      Rebuilding.PathPaymentTool.pathPaymentInputSchema (payloadOf "0.0000000" []) = refused := by
  decide +kernel

theorem swap_route_eurc :
    (contentOf [.issued "EURC" "GEURO"]).path = ([eurc].map hopAsset) := by
  apply (swap_route_iff lenient noBare agent (fun _ => "5") (tenLumens 5) (.ok (twoRecords [eurc]))
    (.ok []) ⟨"9.5000000", [eurc]⟩ (contentOf [.issued "EURC" "GEURO"]) (by decide +kernel)).mpr
  left
  decide +kernel

/-- A direct swap goes along a path that only the second answer has. -/
theorem swap_route_direct :
    built lenient noBare agent (fun _ => "5") (tenLumens 5) (.ok (twoRecords []))
      (.ok [⟨"9.6000000", [eurc]⟩]) =
        .ok (⟨"9.5000000", []⟩, contentOf [.issued "EURC" "GEURO"]) ∧
      (contentOf [.issued "EURC" "GEURO"]).path ≠ ([] : List Hop).map hopAsset := by
  decide +kernel

end PayFi.Tools.Swap
