import PayFi.Library.Pages
import PayFi.Tools.MultiSig

namespace PayFi.Tools.AccountHistory

open Library.Numbers Library.Pages Library.Results Network.Submission Payment

structure RawAccountHistory where
  publicKey : Option String
  limit : Option Number
  cursor : Option String
  assetCode : Option String

structure AccountHistoryInput where
  publicKey : Option String
  limit : ℕ
  cursor : Option String
  assetCode : Option String
  one_le : 1 ≤ limit
  le_max : limit ≤ 200

def publicKeyIssues : Option String → List Issue
  | none => []
  | some k => ensure (jsLength k == 56) ["publicKey"] "Invalid Stellar public key"

def limitIssues : Option Number → List Issue
  | none => []
  | some .nan => [⟨["limit"], "Expected number, received nan"⟩]
  | some n => ensure (MultiSig.integer n).isSome ["limit"] "Expected integer, received float" ++
      ensure (!n.lt (.finite 1)) ["limit"] "Number must be greater than or equal to 1" ++
      ensure (!(Number.finite 200).lt n) ["limit"] "Number must be less than or equal to 200"

def accountHistoryInputSchema (raw : RawAccountHistory) :
    Except (List Issue) AccountHistoryInput :=
  let issues := publicKeyIssues raw.publicKey ++ limitIssues raw.limit
  match MultiSig.integer (raw.limit.getD (.finite 10)) with
  | some n =>
    if h : 1 ≤ n.toNat ∧ n.toNat ≤ 200 then
      if issues = [] then .ok ⟨raw.publicKey, n.toNat, raw.cursor, raw.assetCode, h.1, h.2⟩
      else .error issues
    else .error issues
  | none => .error issues

/-- An operation as Horizon describes it; only a payment has all the fields. -/
structure HorizonRecord where
  id : String
  type : String
  fromAccount : Option String
  toAccount : Option String
  amount : Option String
  assetType : String
  assetCode : Option String
  assetIssuer : Option String
  createdAt : String
  pagingToken : String
  deriving DecidableEq

structure PaymentRecord where
  id : String
  type : String
  fromAccount : String
  toAccount : String
  amount : String
  asset : String
  createdAt : String
  pagingToken : String
  deriving DecidableEq

structure AccountHistoryResult where
  records : List PaymentRecord
  nextCursor : Option String
  deriving DecidableEq

/-- A template prints a missing field as `undefined`. -/
def printed (s : Option String) : String := s.getD "undefined"

def formatAsset (assetType : String) (assetCode assetIssuer : Option String) : String :=
  if assetType = "native" then "XLM" else printed assetCode ++ ":" ++ printed assetIssuer

def matchesAssetCode (asset filterCode : String) : Bool :=
  if filterCode = "XLM" then asset = "XLM" else (filterCode ++ ":").toList.isPrefixOf asset.toList

/-- What is returned for a payment. -/
def paymentOf (r : HorizonRecord) : PaymentRecord where
  id := r.id
  type := r.type
  fromAccount := r.fromAccount.getD ""
  toAccount := r.toAccount.getD ""
  amount := r.amount.getD "0"
  asset := formatAsset r.assetType r.assetCode r.assetIssuer
  createdAt := r.createdAt
  pagingToken := r.pagingToken

def toPaymentRecord (r : HorizonRecord) : Option PaymentRecord :=
  if r.type ≠ "payment" then none else some (paymentOf r)

structure Query where
  publicKey : String
  order : String
  limit : ℕ
  cursor : Option String

def nextCursor (limit : ℕ) (response : List HorizonRecord) : Option String :=
  if 0 < response.length ∧ response.length = limit then
    response.getLast?.map HorizonRecord.pagingToken
  else none

/-- `horizon` is what calling a query brings; an empty cursor or code is as good as none. -/
def fetch (horizon : Query → Except Fault (List HorizonRecord)) (agentPublicKey : String)
    (raw : RawAccountHistory) : Except Fault AccountHistoryResult := do
  let input ← (accountHistoryInputSchema raw).mapError .zod
  let publicKey := input.publicKey.getD agentPublicKey
  let cursor := if truthy input.cursor then input.cursor else none
  let response ← horizon ⟨publicKey, "desc", input.limit, cursor⟩
  let records := response.filterMap toPaymentRecord
  let records :=
    if truthy input.assetCode then
      records.filter fun r => matchesAssetCode r.asset (input.assetCode.getD "")
    else records
  return ⟨records, nextCursor input.limit response⟩

inductive HasAsset (r : HorizonRecord) : Prop
  | native (htype : r.assetType = "native") (hcode : r.assetCode = none)
  | issued (code issuer : String) (htype : r.assetType ≠ "native")
      (hcode : r.assetCode = some code) (hissuer : r.assetIssuer = some issuer)
      (hcolon : ':' ∉ code.toList) (hcolon' : ':' ∉ issuer.toList)

/-- The asset is the native one for `XLM`, and one of the code otherwise. -/
def Matches (r : HorizonRecord) (filterCode : String) : Prop :=
  if filterCode = "XLM" then r.assetType = "native" else r.assetCode = some filterCode

instance (r : HorizonRecord) (filterCode : String) : Decidable (Matches r filterCode) :=
  inferInstanceAs (Decidable (if filterCode = "XLM" then _ else _))

theorem isPrefixOf_separated {α : Type} [DecidableEq α] {x : α} {as bs cs : List α} (ha : x ∉ as)
    (hb : x ∉ bs) : (cs ++ [x]).isPrefixOf (as ++ x :: bs) = true ↔ cs = as := by
  rw [List.isPrefixOf_iff_prefix]
  induction cs generalizing as with
  | nil =>
    cases as with
    | nil => simp
    | cons a as =>
      have hne : x ≠ a := fun h => ha (h ▸ List.mem_cons_self)
      simp [hne]
  | cons c cs ih =>
    cases as with
    | nil =>
      refine iff_of_false (fun h => hb ?_) (List.cons_ne_nil c cs)
      have htail := (List.cons_prefix_cons.mp h).2
      exact htail.subset (List.mem_append_right cs List.mem_cons_self)
    | cons a as =>
      have hih := ih fun h => ha (List.mem_cons_of_mem a h)
      rw [List.cons_append, List.cons_append, List.cons_prefix_cons, hih, List.cons.injEq]

theorem formatAsset_native {r : HorizonRecord} (h : HasAsset r) :
    formatAsset r.assetType r.assetCode r.assetIssuer = "XLM" ↔ r.assetType = "native" := by
  cases h with
  | native htype hcode => simp [formatAsset, htype]
  | issued code issuer htype hcode hissuer hcolon hcolon' =>
    refine iff_of_false (fun h => ?_) htype
    rw [formatAsset, if_neg htype] at h
    have hmem : ':' ∈ "XLM".toList := by
      rw [← h]
      simp
    exact absurd hmem (by decide)

theorem matchesAssetCode_iff {r : HorizonRecord} {filterCode : String} (h : HasAsset r) :
    matchesAssetCode (formatAsset r.assetType r.assetCode r.assetIssuer) filterCode = true ↔
      Matches r filterCode := by
  unfold matchesAssetCode Matches
  split
  · rw [decide_eq_true_iff, formatAsset_native h]
  · rename_i hne
    cases h with
    | native htype hcode =>
      rw [formatAsset, if_pos htype, hcode]
      refine iff_of_false (fun h => ?_) nofun
      have hmem : ':' ∈ "XLM".toList := (List.isPrefixOf_iff_prefix.mp h).subset (by simp)
      exact absurd hmem (by decide)
    | issued code issuer htype hcode hissuer hcolon hcolon' =>
      rw [formatAsset, if_neg htype, hcode, hissuer]
      have hsplit : _ ↔ filterCode.toList = code.toList := isPrefixOf_separated hcolon hcolon'
      simp only [printed, Option.getD_some, String.toList_append, Option.some.injEq]
      rw [List.append_assoc, ← String.toList_inj, eq_comm (a := code.toList), ← hsplit]
      rfl

/-- An account's operations, newest first. -/
structure History where
  records : List HorizonRecord
  distinct : (records.map HorizonRecord.pagingToken).Nodup
  assets : ∀ r ∈ records, r.type = "payment" → HasAsset r

/-- The payments of an account in one asset, or in all of them. -/
def paymentsOf (history : History) (assetCode : Option String) : List PaymentRecord :=
  (history.records.filter fun r => r.type = "payment" ∧ ∀ c ∈ assetCode, Matches r c).map paymentOf

/-- Horizon has the history of an account, and answers with what comes after the cursor. -/
def Answers (horizon : Query → Except Fault (List HorizonRecord)) (publicKey : String)
    (history : History) : Prop :=
  ∀ limit cursor, 1 ≤ limit → limit ≤ 200 →
    (∀ t ∈ cursor, t ∈ history.records.map HorizonRecord.pagingToken) →
    horizon ⟨publicKey, "desc", limit, cursor⟩ =
      .ok (page HorizonRecord.pagingToken limit history.records cursor)

def asGiven (limit : Option ℕ) : Option Number := limit.map fun n : ℕ => Number.finite n

/-- A call for the page that a cursor points to. -/
def fetchPage (horizon : Query → Except Fault (List HorizonRecord)) (agentPublicKey : String)
    (publicKey : Option String) (limit : Option ℕ) (assetCode cursor : Option String) :
    Except Fault (List PaymentRecord × Option String) :=
  (fetch horizon agentPublicKey ⟨publicKey, asGiven limit, cursor, assetCode⟩).map
    fun r => (r.records, r.nextCursor)

variable {horizon : Query → Except Fault (List HorizonRecord)} {agentPublicKey : String}
  {history : History} {publicKey assetCode cursor : Option String} {limit : Option ℕ}

theorem limitIssues_eq_nil (hlimit : ∀ n ∈ limit, 1 ≤ n ∧ n ≤ 200) :
    limitIssues (asGiven limit) = [] := by
  cases limit with
  | none => rfl
  | some n =>
    obtain ⟨hone, hmax⟩ := hlimit n rfl
    have hone' : ¬ (n : ℚ) < 1 := by exact_mod_cast not_lt.mpr hone
    have hmax' : ¬ (200 : ℚ) < n := by exact_mod_cast not_lt.mpr hmax
    simp [asGiven, limitIssues, MultiSig.integer, Number.lt, ensure, hone', hmax']

/-- A key of the right length and a limit in its bounds are accepted, with 10 for a limit that
is not given. -/
theorem accountHistoryInputSchema_eq (hkey : ∀ k ∈ publicKey, jsLength k = 56)
    (hlimit : ∀ n ∈ limit, 1 ≤ n ∧ n ≤ 200) :
    ∃ hone hmax, accountHistoryInputSchema ⟨publicKey, asGiven limit, cursor, assetCode⟩ =
      .ok ⟨publicKey, limit.getD 10, cursor, assetCode, hone, hmax⟩ := by
  have hissues : publicKeyIssues publicKey = [] := by
    cases publicKey with
    | none => rfl
    | some k => simp [publicKeyIssues, ensure, hkey k rfl]
  have hbounds : 1 ≤ limit.getD 10 ∧ limit.getD 10 ≤ 200 := by
    cases limit with
    | none => decide
    | some n => exact hlimit n rfl
  have hinteger : MultiSig.integer ((asGiven limit).getD (.finite 10)) =
      some ((limit.getD 10 : ℕ) : ℤ) := by
    cases limit with
    | none => rfl
    | some n => simp [asGiven, MultiSig.integer]
  refine ⟨hbounds.1, hbounds.2, ?_⟩
  simp [accountHistoryInputSchema, hinteger, hissues, limitIssues_eq_nil hlimit, hbounds]

def selected (assetCode : Option String) (r : HorizonRecord) : Option PaymentRecord :=
  (toPaymentRecord r).filter fun p => assetCode.all (matchesAssetCode p.asset)

theorem selected_eq {r : HorizonRecord} (h : r.type = "payment" → HasAsset r) :
    selected assetCode r =
      if r.type = "payment" ∧ ∀ c ∈ assetCode, Matches r c then some (paymentOf r) else none := by
  unfold selected toPaymentRecord
  by_cases htype : r.type = "payment"
  · rw [if_neg (not_not_intro htype)]
    cases assetCode with
    | none => simp [htype]
    | some c =>
      have hmatches : matchesAssetCode (paymentOf r).asset c = true ↔ Matches r c :=
        matchesAssetCode_iff (h htype)
      simp [Option.filter, htype, hmatches]
  · rw [if_pos htype, if_neg fun h => htype h.1]
    rfl

theorem filterMap_selected (history : History) (assetCode : Option String) :
    history.records.filterMap (selected assetCode) = paymentsOf history assetCode := by
  rw [paymentsOf, ← List.filterMap_eq_map', List.filterMap_filter]
  apply List.filterMap_congr
  intro r hr
  rw [selected_eq (history.assets r hr)]
  simp only [decide_eq_true_eq]

theorem nextCursor_eq (limit : ℕ) (response : List HorizonRecord) :
    nextCursor limit response = next HorizonRecord.pagingToken limit response := by
  unfold nextCursor next
  cases response with
  | nil => simp
  | cons r rs => simp

theorem filtered_eq (assetCode : Option String) (response : List HorizonRecord) :
    (if truthy assetCode then
      (response.filterMap toPaymentRecord).filter
        fun r => matchesAssetCode r.asset (assetCode.getD "")
    else response.filterMap toPaymentRecord) =
      response.filterMap (selected (assetCode.filter (· ≠ ""))) := by
  have hall : selected none = toPaymentRecord := by
    funext r
    unfold selected
    cases toPaymentRecord r with
    | none => rfl
    | some p => rfl
  cases assetCode with
  | none =>
    rw [Option.filter_none, hall]
    rfl
  | some c =>
    by_cases hc : c = ""
    · rw [hc, Option.filter_some_neg (by decide), hall]
      rfl
    · rw [Option.filter_some_pos (by simpa using hc), if_pos (by simpa [truthy] using hc),
        List.filter_filterMap]
      rfl

theorem fetchPage_eq (hanswers : Answers horizon (publicKey.getD agentPublicKey) history)
    (htokens : ∀ r ∈ history.records, r.pagingToken ≠ "")
    (hkey : ∀ k ∈ publicKey, jsLength k = 56) (hlimit : ∀ n ∈ limit, 1 ≤ n ∧ n ≤ 200)
    (hcursor : ∀ t ∈ cursor, t ∈ history.records.map HorizonRecord.pagingToken) :
    let p := page HorizonRecord.pagingToken (limit.getD 10) history.records cursor
    fetchPage horizon agentPublicKey publicKey limit assetCode cursor =
      .ok (p.filterMap (selected (assetCode.filter (· ≠ ""))),
        next HorizonRecord.pagingToken (limit.getD 10) p) := by
  intro p
  obtain ⟨hone, hmax, hinput⟩ :=
    @accountHistoryInputSchema_eq publicKey assetCode cursor limit hkey hlimit
  have hgiven : (if truthy cursor then cursor else none) = cursor := by
    cases cursor with
    | none => rfl
    | some t =>
      obtain ⟨r, hr, rfl⟩ := List.mem_map.mp (hcursor t rfl)
      simp [truthy, htokens r hr]
  have hcall := hanswers (limit.getD 10) cursor hone hmax hcursor
  simp only [fetchPage, fetch, hinput, hgiven, Except.mapError, Except.map, bind, Except.bind,
    hcall, nextCursor_eq, filtered_eq]
  rfl

/-- Following the cursors from the first page on ends, after one fetch more than there are full
pages, with the payments in the asset of the filter; an empty code is no filter. -/
theorem history_complete (hanswers : Answers horizon (publicKey.getD agentPublicKey) history)
    (htokens : ∀ r ∈ history.records, r.pagingToken ≠ "")
    (hkey : ∀ k ∈ publicKey, jsLength k = 56) (hlimit : ∀ n ∈ limit, 1 ≤ n ∧ n ≤ 200) {fuel : ℕ}
    (hfuel : history.records.length / limit.getD 10 < fuel) :
    follow (fetchPage horizon agentPublicKey publicKey limit assetCode) fuel none =
      .ok (some (paymentsOf history (assetCode.filter (· ≠ "")))) := by
  have hone : 0 < limit.getD 10 := by
    cases limit with
    | none => decide
    | some n => exact (hlimit n rfl).1
  rw [← filterMap_selected]
  apply follow_pages history.distinct hone _ hfuel
  intro cursor hcursor
  exact fetchPage_eq hanswers htokens hkey hlimit hcursor

def sample : HorizonRecord where
  id := "1"
  type := "payment"
  fromAccount := some "GA"
  toAccount := some "GB"
  amount := some "10.0000000"
  assetType := "native"
  assetCode := none
  assetIssuer := none
  createdAt := "2026-01-01T00:00:00Z"
  pagingToken := "1"

def issuedSample : HorizonRecord :=
  { sample with
    id := "3"
    assetType := "credit_alphanum4"
    assetCode := some "USDC"
    assetIssuer := some "GISSUER"
    pagingToken := "3" }

/-- A payment of dollars, a new account and a payment of lumens. -/
def sampleHistory : History where
  records := [issuedSample, { sample with id := "2", type := "create_account", pagingToken := "2" },
    sample]
  distinct := by decide
  assets := by
    intro r hr htype
    rcases List.mem_cons.mp hr with rfl | hr
    · exact .issued "USDC" "GISSUER" (by decide) rfl rfl (by decide) (by decide)
    · rcases List.mem_cons.mp hr with rfl | hr
      · exact absurd htype (by decide)
      · rw [List.mem_singleton.mp hr]
        exact .native rfl rfl

/-- A Horizon that knows one account. -/
def horizonOf (history : History) (q : Query) : Except Fault (List HorizonRecord) :=
  .ok (page HorizonRecord.pagingToken q.limit history.records q.cursor)

theorem history_complete_dollars :
    follow (fetchPage (horizonOf sampleHistory) "GAGENT" none (some 2) (some "USDC")) 2 none =
        .ok (some (paymentsOf sampleHistory (some "USDC"))) ∧
      paymentsOf sampleHistory (some "USDC") = [paymentOf issuedSample] := by
  refine ⟨?_, by decide⟩
  exact history_complete (fun _ _ _ _ _ => rfl) (by decide) (by rintro k ⟨⟩)
    (by rintro n ⟨⟩; decide) (by decide)

/-- A history with an empty token, which is no cursor. -/
def tokenless : History where
  records := [{ sample with pagingToken := "" }]
  distinct := by decide
  assets := by
    intro r hr htype
    rw [List.mem_singleton.mp hr]
    exact .native rfl rfl

theorem history_with_empty_texts :
    (∀ fuel, follow (fetchPage (horizonOf sampleHistory) "GAGENT" none (some 10) (some "")) fuel
      none ≠ .ok (some (paymentsOf sampleHistory (some "")))) ∧
    ∀ fuel, follow (fetchPage (horizonOf tokenless) "GAGENT" none (some 1) none) fuel none ≠
      .ok (some (paymentsOf tokenless none)) := by
  refine ⟨fun fuel h => ?_, fun fuel h => ?_⟩
  · have hnone : paymentsOf sampleHistory (some "") = [] := by decide
    cases fuel with
    | zero => cases h
    | succ fuel =>
      have hpage : fetchPage (horizonOf sampleHistory) "GAGENT" none (some 10) (some "") none =
          .ok ([paymentOf issuedSample, paymentOf sample], none) := rfl
      rw [follow_last hpage, hnone] at h
      cases h
  · have hpage : fetchPage (horizonOf tokenless) "GAGENT" none (some 1) none none =
        .ok (paymentsOf tokenless none, some "") := rfl
    have hagain : fetchPage (horizonOf tokenless) "GAGENT" none (some 1) none (some "") =
        .ok (paymentsOf tokenless none, some "") := rfl
    rw [follow_stuck hpage hagain] at h
    cases h

end PayFi.Tools.AccountHistory
