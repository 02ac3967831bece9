import PayFi.Tools.TransactionBuilder

namespace PayFi.Tools.NamedAssets

open Library.Results Network.Submission Payment TransactionBuilder

variable {su : Setup} {v : Value} {a : Asset}

/-- The code that a spelling gives: what a text has before its first colon, and the code of
an object under either of its keys. -/
def codeOf : Value → Value
  | .asset .native => .string "XLM"
  | .asset (.issued code _) => .string code
  | .string s => .string ((s.splitOn ":").headD "")
  | v => (v.get "code").orElse (v.get "assetCode")

def issuerOf : Value → Option Value
  | .asset .native => none
  | .asset (.issued _ issuer) => some (.string issuer)
  | .string s =>
    match s.splitOn ":" with
    | [_, issuer] => if issuer ≠ "" then some (.string issuer) else none
    | _ => none
  | v =>
    let issuer := (v.get "issuer").orElse (v.get "assetIssuer")
    if issuer.truthy then some issuer else none

def codeText (su : Setup) (v : Value) : String := (codeOf v).text su.numberText

def issuerText (su : Setup) (v : Value) : Option String :=
  (issuerOf v).map fun issuer => issuer.text su.numberText

/-- A spelling with a code that is neither empty nor that of the native asset. -/
def Named (su : Setup) (v : Value) : Prop :=
  (codeOf v).truthy = true ∧ codeText su v ≠ "" ∧ codeText su v ≠ "XLM" ∧ codeText su v ≠ "native"

/-- The asset is the one that the spelling names: of its code and, if it gives one, of its
issuer. -/
def Uses (su : Setup) (v : Value) (a : Asset) : Prop :=
  ∃ issuer, a = .issued (codeText su v) issuer ∧ ∀ i, issuerText su v = some i → issuer = i

/-- The asset at a place of an operation, in all the spellings that the payload can give it
in, and the one of them that is read. -/
structure Place where
  given : List Value
  picked : Value

def coded (payload : Value) (codeKey issuerKey : String) : Value :=
  .object [("code", payload.get codeKey), ("issuer", payload.get issuerKey)]

def place (v : Value) : Place := ⟨[v], v⟩

def paymentPlace (payload : Value) : Place :=
  let given := coded payload "assetCode" "assetIssuer"
  ⟨[given, payload.get "asset"],
    if (payload.get "assetCode").truthy && !(payload.get "assetCode").isString "XLM" &&
        (payload.get "assetIssuer").truthy then
      given
    else payload.get "asset"⟩

def splitPlace (payload : Value) (key codeKey issuerKey : String) : Place :=
  ⟨[payload.get key, coded payload codeKey issuerKey], splitAsset payload key codeKey issuerKey⟩

def wholePlace (payload : Value) (key codeKey issuerKey : String) : Place :=
  ⟨[payload.get key, coded payload codeKey issuerKey], payload.get key⟩

/-- The places of an operation's assets, in the order of `assetsOf`. -/
def placesOf (type : String) (payload : Value) : List Place :=
  match type with
  | "stellar_payment" | "payment" => [paymentPlace payload]
  | "dex_offer" => [place (payload.get "selling"), place (payload.get "buying")]
  | "path_payment" | "path_payment_strict_receive" =>
    splitPlace payload "sendAsset" "sendAssetCode" "sendAssetIssuer" ::
      splitPlace payload "destAsset" "destAssetCode" "destAssetIssuer" ::
        (arrayOf payload "path").map place
  | "path_payment_strict_send" =>
    wholePlace payload "sendAsset" "sendAssetCode" "sendAssetIssuer" ::
      wholePlace payload "destAsset" "destAssetCode" "destAssetIssuer" ::
        (arrayOf payload "path").map place
  | _ => []

def places (su : Setup) (task : Value) : List Place :=
  placesOf (((task.get "type").orElse (.string "")).text su.numberText) (payloadOf task)

/-- What an operation pays, offers, asks for and goes through. -/
def assetsOf : Operation → List Asset
  | .payment _ asset _ _ => [asset]
  | .manageSellOffer selling buying _ _ _ _ => [selling, buying]
  | .pathPaymentStrictReceive sendAsset _ _ destAsset _ path _
  | .pathPaymentStrictSend sendAsset _ _ destAsset _ path _ => sendAsset :: destAsset :: path
  | _ => []

/-- What is read at a place is a complete spelling of the asset that `v` names there. -/
def Place.Backs (su : Setup) (p : Place) (v : Value) : Prop :=
  Named su p.picked ∧ codeText su p.picked = codeText su v ∧
    ∃ issuer, issuerText su p.picked = some issuer ∧ ∀ i, issuerText su v = some i → issuer = i

/-- The asset has been read off a spelling: an issued one has its code and its issuer, and
from a complete spelling of a named one it is an issued one. -/
def Reads (su : Setup) (v : Value) (a : Asset) : Prop :=
  (∀ code issuer, a = .issued code issuer → code ≠ "" →
    (codeOf v).truthy = true ∧ codeText su v = code ∧ issuerText su v = some issuer) ∧
  (Named su v → ∀ issuer, issuerText su v = some issuer → a = .issued (codeText su v) issuer)

theorem reads_issued {code issuer : String} (ht : (codeOf v).truthy = true)
    (hcode : codeText su v = code) (hissuer : issuerText su v = some issuer) :
    Reads su v (.issued code issuer) := by
  refine ⟨fun c i h _ => ?_, fun _ i hi => ?_⟩
  · cases h
    exact ⟨ht, hcode, hissuer⟩
  · rw [hissuer] at hi
    cases hi
    rw [hcode]

theorem reads_native (h : Named su v → issuerText su v = none) : Reads su v .native := by
  refine ⟨fun c i ha _ => ?_, fun hn i hi => ?_⟩
  · cases ha
  · rw [h hn] at hi
    cases hi

theorem newAsset_ok {code issuer : Value} (h : newAsset su code issuer = .ok a) :
    ∃ c i, code = .string c ∧ issuer = .string i ∧ a = .issued c i := by
  unfold newAsset at h
  split at h
  · rename_i c i
    cases hs : su.sdk.newAsset c i with
    | error e =>
      rw [hs] at h
      cases h
    | ok u =>
      rw [hs] at h
      cases h
      exact ⟨c, i, rfl, rfl, rfl⟩
  · cases h

theorem splitOn_native {s : String} (h : s = "" ∨ s = "XLM" ∨ s = "native") :
    s.splitOn ":" = [s] := by
  rcases h with rfl | rfl | rfl
  · rw [String.splitOn, String.splitOnAux]
    decide +kernel
  · rw [String.splitOn]
    iterate 4 rw [String.splitOnAux]
    decide +kernel
  · rw [String.splitOn]
    iterate 7 rw [String.splitOnAux]
    decide +kernel

theorem parseAsset_string_reads {s : String} (h : parseAsset su (.string s) = .ok a) :
    Reads su (.string s) a := by
  by_cases hs : s = "" ∨ s = "XLM" ∨ s = "native"
  · have hnot : ¬Named su (.string s) := by
      intro hn
      simp only [Named, codeText, codeOf, splitOn_native hs, List.headD_cons, Value.text] at hn
      tauto
    have ha : a = .native := by
      rcases hs with rfl | rfl | rfl <;> cases h <;> rfl
    rw [ha]
    exact reads_native fun hn => absurd hn hnot
  · simp only [not_or] at hs
    simp only [parseAsset, Value.truthy, hs, ne_eq, not_false_eq_true, decide_true, Bool.not_true,
      Bool.false_eq_true, if_false, or_self] at h
    split at h
    · rename_i code issuer hsplit
      split at h
      · rename_i hparts
        obtain ⟨c, i, hc, hi, rfl⟩ := newAsset_ok h
        cases hc
        cases hi
        apply reads_issued
        · simp only [codeOf, hsplit, List.headD_cons, Value.truthy, ne_eq, hparts.1,
            not_false_eq_true, decide_true]
        · simp only [codeText, codeOf, hsplit, List.headD_cons, Value.text]
        · simp only [issuerText, issuerOf, hsplit, ne_eq, hparts.2, not_false_eq_true, if_true,
            Option.map_some, Value.text]
      · rename_i hparts
        cases h
        apply reads_native
        intro hn
        have hcode : code ≠ "" := by
          simpa only [codeText, codeOf, hsplit, List.headD_cons, Value.text] using hn.2.1
        have hissuer : ¬issuer ≠ "" := fun hi => hparts ⟨hcode, hi⟩
        simp only [issuerText, issuerOf, hsplit, if_neg hissuer, Option.map_none]
    · rename_i hsplit
      cases h
      apply reads_native
      intro _
      simp only [issuerText, issuerOf, Option.map_none]

theorem object_truthy (fields : List (String × Value)) : (Value.object fields).truthy = true := by
  simp [Value.truthy]

theorem parseAsset_object_reads {fields : List (String × Value)}
    (h : parseAsset su (.object fields) = .ok a) : Reads su (.object fields) a := by
  simp only [parseAsset, object_truthy, Bool.not_true, Bool.false_eq_true, if_false] at h
  split at h
  · rename_i hguard
    cases h
    apply reads_native
    intro hn
    have hcode : (codeOf (.object fields)).isString "XLM" = false := by
      cases hc : codeOf (.object fields) with
      | string s =>
        refine decide_eq_false fun hs => hn.2.2.1 ?_
        rw [codeText, hc, hs]
        rfl
      | _ => rfl
    have ht := hn.1
    simp only [codeOf] at hcode ht
    simp only [hcode, ht, Bool.not_true, Bool.false_or, Bool.not_eq_true'] at hguard
    simp only [issuerText, issuerOf, hguard, Bool.false_eq_true, if_false, Option.map_none]
  · rename_i hguard
    simp only [Bool.or_eq_true, Bool.not_eq_true', not_or, Bool.not_eq_false] at hguard
    obtain ⟨c, i, hc, hi, rfl⟩ := newAsset_ok h
    apply reads_issued
    · exact hguard.1.1
    · simp only [codeText, codeOf, hc, Value.text]
    · simp only [issuerText, issuerOf, hguard.2, if_true, Option.map_some]
      rw [hi, Value.text]

theorem parseAsset_reads (h : parseAsset su v = .ok a) : Reads su v a := by
  cases v with
  | string s => exact parseAsset_string_reads h
  | object fields => exact parseAsset_object_reads h
  | asset b =>
    cases h
    cases a with
    | native => exact reads_native fun _ => rfl
    | issued code issuer =>
      refine ⟨fun c i h hc => ?_, fun _ i hi => ?_⟩
      · cases h
        exact ⟨decide_eq_true hc, rfl, rfl⟩
      · cases hi
        rfl
  | _ =>
    simp only [parseAsset, ite_self] at h
    cases h
    exact reads_native fun _ => rfl

theorem get_coded (payload : Value) (codeKey issuerKey : String) :
    (coded payload codeKey issuerKey).get "code" = payload.get codeKey ∧
      (coded payload codeKey issuerKey).get "issuer" = payload.get issuerKey := by
  exact ⟨rfl, rfl⟩

theorem orElse_of_truthy (w : Value) (h : v.truthy = true) : v.orElse w = v := by
  cases v <;> first | rfl | cases h

theorem codedAsset_reads {payload : Value} (hcode : (payload.get "assetCode").truthy = true)
    (hissuer : (payload.get "assetIssuer").truthy = true) (h : codedAsset su payload = .ok a) :
    Reads su (coded payload "assetCode" "assetIssuer") a := by
  obtain ⟨c, i, hc, hi, rfl⟩ := newAsset_ok h
  cases hc
  cases hi
  obtain ⟨hget, hget'⟩ := get_coded payload "assetCode" "assetIssuer"
  have hcodeOf : codeOf (coded payload "assetCode" "assetIssuer") = payload.get "assetCode" := by
    change ((coded payload "assetCode" "assetIssuer").get "code").orElse _ = _
    rw [hget, orElse_of_truthy _ hcode]
  have hissuerOf : issuerOf (coded payload "assetCode" "assetIssuer") =
      some (payload.get "assetIssuer") := by
    change (if (((coded payload "assetCode" "assetIssuer").get "issuer").orElse _).truthy = true
      then some _ else none) = _
    rw [hget', orElse_of_truthy _ hissuer, if_pos hissuer]
  apply reads_issued
  · rw [hcodeOf]
    exact hcode
  · rw [codeText, hcodeOf]
    rfl
  · rw [issuerText, hissuerOf]
    rfl

theorem payment_reads {payload : Value} {op : Operation} (h : payment su payload = .ok op) :
    List.Forall₂ (fun p a => Reads su p.picked a) [paymentPlace payload] (assetsOf op) := by
  unfold payment at h
  split at h
  · rename_i hguard
    simp only [paymentPlace, if_pos hguard]
    simp only [bind_eq_ok] at h
    obtain ⟨a, ha, h⟩ := h
    cases h
    simp only [Bool.and_eq_true] at hguard
    exact .cons (codedAsset_reads hguard.1.1 hguard.2 ha) .nil
  · rename_i hguard
    simp only [paymentPlace, if_neg hguard]
    simp only [bind_eq_ok] at h
    obtain ⟨a, ha, h⟩ := h
    cases h
    exact .cons (parseAsset_reads ha) .nil

/-- Where an asset is named, it is used exactly when what is read there is complete and names
the same. -/
theorem uses_iff_backs {p : Place} (hreads : Reads su p.picked a) (hn : Named su v) :
    Uses su v a ↔ p.Backs su v := by
  constructor
  · rintro ⟨issuer, ha, hissuer⟩
    obtain ⟨ht, hcode, hi⟩ := hreads.1 _ _ ha hn.2.1
    refine ⟨⟨ht, ?_⟩, hcode, issuer, hi, hissuer⟩
    rw [hcode]
    exact hn.2
  · rintro ⟨hpicked, hcode, issuer, hi, hissuer⟩
    have ha := hreads.2 hpicked issuer hi
    rw [hcode] at ha
    exact ⟨issuer, ha, hissuer⟩

theorem path_reads {vs : List Value} {as : List Asset} (h : vs.mapM (parseAsset su) = .ok as) :
    List.Forall₂ (fun p a => Reads su p.picked a) (vs.map place) as := by
  rw [List.forall₂_map_left_iff]
  exact (mapM_eq_ok.mp h).imp fun v a hv => parseAsset_reads hv

theorem dexOffer_reads {payload : Value} {op : Operation} (h : dexOffer su payload = .ok op) :
    List.Forall₂ (fun p a => Reads su p.picked a)
      [place (payload.get "selling"), place (payload.get "buying")] (assetsOf op) := by
  simp only [dexOffer, bind_eq_ok] at h
  obtain ⟨selling, hselling, buying, hbuying, h⟩ := h
  cases h
  exact .cons (parseAsset_reads hselling) (.cons (parseAsset_reads hbuying) .nil)

theorem pathPaymentStrictReceive_reads {payload : Value} {op : Operation}
    (h : pathPaymentStrictReceive su payload = .ok op) :
    List.Forall₂ (fun p a => Reads su p.picked a)
      (splitPlace payload "sendAsset" "sendAssetCode" "sendAssetIssuer" ::
        splitPlace payload "destAsset" "destAssetCode" "destAssetIssuer" ::
          (arrayOf payload "path").map place) (assetsOf op) := by
  simp only [pathPaymentStrictReceive, bind_eq_ok] at h
  obtain ⟨send, hsend, dest, hdest, path, hpath, h⟩ := h
  cases h
  exact .cons (parseAsset_reads hsend) (.cons (parseAsset_reads hdest) (path_reads hpath))

theorem pathPaymentStrictSend_reads {payload : Value} {op : Operation}
    (h : pathPaymentStrictSend su payload = .ok op) :
    List.Forall₂ (fun p a => Reads su p.picked a)
      (wholePlace payload "sendAsset" "sendAssetCode" "sendAssetIssuer" ::
        wholePlace payload "destAsset" "destAssetCode" "destAssetIssuer" ::
          (arrayOf payload "path").map place) (assetsOf op) := by
  simp only [pathPaymentStrictSend, bind_eq_ok] at h
  obtain ⟨send, hsend, dest, hdest, path, hpath, h⟩ := h
  cases h
  exact .cons (parseAsset_reads hsend) (.cons (parseAsset_reads hdest) (path_reads hpath))

theorem changeTrust_assets {payload : Value} {op : Operation}
    (h : changeTrust su payload = .ok op) : assetsOf op = [] := by
  unfold changeTrust at h
  dsimp only at h
  by_cases hguard : ((payload.get "assetCode").truthy && (payload.get "assetIssuer").truthy) = true
  all_goals
    simp only [hguard, if_true, Bool.false_eq_true, if_false, bind_eq_ok] at h
    obtain ⟨a, ha, h⟩ := h
    cases h
    rfl

theorem named_assets {type : String} {payload : Value} {op : Operation}
    (h : named su type payload = .ok op) : assetsOf op = [] := by
  unfold named at h
  split at h
  · split at h <;> cases h
    rfl
  · cases h

theorem operationOf_reads {type : String} {payload : Value} {op : Operation}
    (h : operationOf su type payload = .ok op) :
    List.Forall₂ (fun p a => Reads su p.picked a) (placesOf type payload) (assetsOf op) := by
  unfold operationOf at h
  split at h
  · exact payment_reads h
  · exact payment_reads h
  · rw [changeTrust_assets h]
    exact .nil
  · exact dexOffer_reads h
  · exact pathPaymentStrictReceive_reads h
  · exact pathPaymentStrictReceive_reads h
  · exact pathPaymentStrictSend_reads h
  all_goals first
    | cases h
      exact .nil
    | skip
  have hplaces : placesOf type payload = [] := by
    unfold placesOf
    split <;> first | rfl | contradiction
  rw [hplaces, named_assets h]
  exact .nil

theorem taskToOperation_reads {task : Value} {op : Operation}
    (h : taskToOperation su task = .ok op) :
    List.Forall₂ (fun p a => Reads su p.picked a) (places su task) (assetsOf op) := by
  unfold taskToOperation at h
  split at h
  · cases h
  · cases h
  · simp only [bind_eq_ok] at h
    obtain ⟨op', hop, u, hu, h⟩ := h
    cases h
    exact operationOf_reads hop

theorem forall₂_iff_of_reads {ps : List Place} {as : List Asset}
    (hreads : List.Forall₂ (fun p a => Reads su p.picked a) ps as) :
    List.Forall₂ (fun p a => ∀ v ∈ p.given, Named su v → Uses su v a) ps as ↔
      ∀ p ∈ ps, ∀ v ∈ p.given, Named su v → p.Backs su v := by
  induction hreads with
  | nil => exact iff_of_true .nil fun p hp => absurd hp (List.not_mem_nil)
  | @cons p a ps as hp _ ih =>
    rw [List.forall₂_cons, ih, List.forall_mem_cons]
    refine and_congr_left fun _ => forall_congr' fun v => forall_congr' fun _ => ?_
    exact forall_congr' fun hn => uses_iff_backs hp hn

/-- A task that becomes an operation has its named assets used, each at its place, exactly
when at every place what is read is a complete spelling of each asset named there. -/
theorem named_assets_used_iff (su : Setup) (task : Value) (op : Operation)
    (h : taskToOperation su task = .ok op) :
    List.Forall₂ (fun p a => ∀ v ∈ p.given, Named su v → Uses su v a) (places su task)
      (assetsOf op) ↔
      ∀ p ∈ places su task, ∀ v ∈ p.given, Named su v → p.Backs su v :=
  forall₂_iff_of_reads (taskToOperation_reads h)

def usdcTask (issuer : List (String × Value)) : Value :=
  .object [("type", .string "payment"), ("payload", .object ([("destination",
    .string "GDESTINATION"), ("amount", .string "10"), ("assetCode", .string "USDC")] ++ issuer))]

def paid (asset : Asset) : Operation := .payment "GDESTINATION" asset "10" none

/-- A payment with the issuer is one in the asset. -/
theorem named_asset_with_issuer :
    List.Forall₂ (fun p a => ∀ v ∈ p.given, Named tool v → Uses tool v a)
      (places tool (usdcTask [("assetIssuer", .string "GISSUER")]))
      (assetsOf (paid (.issued "USDC" "GISSUER"))) := by
  apply (named_assets_used_iff tool (usdcTask [("assetIssuer", .string "GISSUER")])
    (paid (.issued "USDC" "GISSUER")) rfl).mpr
  intro p hp v hv hn
  cases List.mem_singleton.mp hp
  rcases List.mem_pair.mp hv with rfl | rfl
  · refine ⟨hn, rfl, "GISSUER", rfl, fun i hi => ?_⟩
    cases hi
    rfl
  · cases hn.1

/-- Without the issuer the payment is made in the native asset. -/
theorem named_asset_without_issuer :
    taskToOperation tool (usdcTask []) = .ok (paid .native) ∧
      ¬List.Forall₂ (fun p a => ∀ v ∈ p.given, Named tool v → Uses tool v a)
        (places tool (usdcTask [])) (assetsOf (paid .native)) := by
  refine ⟨rfl, fun h => ?_⟩
  cases h with
  | cons hp _ =>
    have hn : Named tool (coded (payloadOf (usdcTask [])) "assetCode" "assetIssuer") := by
      refine ⟨rfl, ?_, ?_, ?_⟩ <;> decide +kernel
    obtain ⟨issuer, ha, -⟩ := hp _ List.mem_cons_self hn
    cases ha

end PayFi.Tools.NamedAssets
