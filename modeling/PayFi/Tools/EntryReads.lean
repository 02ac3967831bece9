import PayFi.Library.Objects
import PayFi.Tools.AccountEntries

namespace PayFi.Tools.EntryReads

open Agent.Payload (trim)
open Library.Objects (lookup_filter_key)
open Library.Base64 Library.Bytes Library.Machine Library.Numbers Network.AccountCache
open Network.Submission Rebuilding AccountEntries

variable (su : Setup)

def isSubmission : Entry → Bool
  | .submitted .. => true
  | _ => false

def note (l : String → Settings) : Entry → String → Settings
  | .elsewhere changed => fun k => ((changed.lookup k).map Account.toSettings).getD (l k)
  | .submitted operation true _ =>
    Function.update l su.publicKey ((l su.publicKey).apply su operation)
  | _ => l

def ledgerAt (start : String → Settings) (journal : List Entry) : String → Settings :=
  journal.foldl (note su) start

@[simp] theorem ledgerAt_concat (start : String → Settings) (journal : List Entry) (e : Entry) :
    ledgerAt su start (journal ++ [e]) = note su (ledgerAt su start journal) e :=
  List.foldl_concat ..

/-- Horizon has answered with these settings, and the agent has submitted nothing since. -/
def Held (journal : List Entry) (accountId : String) (t : ℤ) (settings : Settings) : Prop :=
  ∃ xs ys account, journal = xs ++ .answered accountId account t :: ys ∧
    (∀ e ∈ ys, isSubmission e = false) ∧ account.toSettings = settings

/-- Settings that may be shown at this time: just answered, or answered less than the cache's
lifetime ago. -/
def Recent (journal : List Entry) (accountId : String) (now : ℤ) (settings : Settings) : Prop :=
  ∃ t, Held journal accountId t settings ∧
    (now < t + su.ttl ∨ ∃ account, journal.getLast? = some (.answered accountId account t))

/-- A `remove` is submitted only after an answer in which nothing was left on the trustline. An
`add` is not checked, not even one with the limit 0, which removes the trustline as well. -/
def Warranted (journal : List Entry) : Operation → Prop
  | .changeTrust assetCode assetIssuer .remove => ∃ input now settings,
      balanceCheckInputSchema su ⟨some su.publicKey, some assetIssuer, some assetCode⟩ =
        .ok input ∧ Recent su journal su.publicKey now settings ∧
      (Number.finite 0).lt (su.toNumber (balanceOf input settings)) = false
  | _ => True

/-- Horizon answers what the ledger has, a submission that succeeds has been applied, and what is
got is recent. -/
def Lawful (start : String → Settings) (journal : List Entry) : Entry → Prop
  | .elsewhere _ => True
  | .answered accountId account _ => account.toSettings = ledgerAt su start journal accountId
  | .submitted operation applied result =>
    Warranted su journal operation ∧ ∀ receipt, result = .ok receipt → applied = true
  | .gotEntry accountId name now result => ∃ settings, Recent su journal accountId now settings ∧
      result = dataEntryOf su name accountId settings
  | .gotInflation accountId now result => ∃ settings, Recent su journal accountId now settings ∧
      result = inflationOf accountId settings
  | .gotBalance input now result => ∃ settings, Recent su journal input.publicKey now settings ∧
      result = balanceOf input settings
  | .gotTrustline assetCode assetIssuer now result => ∃ settings,
      Recent su journal su.publicKey now settings ∧
        result = (lineOf assetCode assetIssuer settings).isSome

structure Accounted (start : String → Settings) (w : World) : Prop where
  accounts : ∀ k, (w.accounts k).toSettings = ledgerAt su start w.journal k
  cached : ∀ k e, w.cache k = some e →
    ∃ t, e.expiresAt = t + su.ttl ∧ Held w.journal k t e.account.toSettings
  lawful : Preceded (Lawful su start) w.journal

variable {su} {start : String → Settings} {w : World} {journal : List Entry} {e : Entry}
  {accountId : String} {t now : ℤ} {settings : Settings} {x : Exchange}

theorem Held.concat (h : Held journal accountId t settings) (he : isSubmission e = false) :
    Held (journal ++ [e]) accountId t settings := by
  obtain ⟨xs, ys, account, rfl, hquiet, hsettings⟩ := h
  refine ⟨xs, ys ++ [e], account, by simp, ?_, hsettings⟩
  exact List.forall_mem_append.mpr ⟨hquiet, List.forall_mem_singleton.mpr he⟩

theorem held_answered (journal : List Entry) (accountId : String) (account : Account) (t : ℤ) :
    Held (journal ++ [.answered accountId account t]) accountId t account.toSettings :=
  ⟨journal, [], account, rfl, nofun, rfl⟩

theorem Accounted.log (h : Accounted su start w) (hnote : ∀ l, note su l e = l)
    (he : isSubmission e = false) (hlawful : Lawful su start w.journal e) :
    Accounted su start (w.log e) := by
  refine ⟨fun k => ?_, fun k cached hk => ?_, h.lawful.concat hlawful⟩
  · rw [World.log, ledgerAt_concat, hnote]
    exact h.accounts k
  · obtain ⟨t, hexpires, hheld⟩ := h.cached k cached hk
    exact ⟨t, hexpires, hheld.concat he⟩

theorem store_cached {cache : Cache String Account} {account : Account} {k : String}
    {cached : CachedAccount Account}
    (h : store su.ttl cache accountId account now k = some cached) :
    (k = accountId ∧ cached = ⟨account, now + su.ttl⟩) ∨ cache k = some cached := by
  unfold store at h
  split at h
  · by_cases hk : k = accountId
    · subst hk
      rw [Function.update_self] at h
      exact .inl ⟨rfl, (Option.some.inj h).symm⟩
    · rw [Function.update_of_ne hk] at h
      exact .inr h
  · exact .inr h

theorem Accounted.answered (h : Accounted su start w) (accountId : String) (now : ℤ) :
    Accounted su start ({ w with
      cache := store su.ttl w.cache accountId (w.accounts accountId) now }.log
        (.answered accountId (w.accounts accountId) now)) := by
  refine ⟨fun k => ?_, fun k cached hk => ?_, h.lawful.concat (h.accounts accountId)⟩
  · rw [World.log, ledgerAt_concat]
    exact h.accounts k
  · obtain ⟨rfl, rfl⟩ | hk := store_cached hk
    · exact ⟨now, rfl, held_answered ..⟩
    · obtain ⟨t, hexpires, hheld⟩ := h.cached k cached hk
      exact ⟨t, hexpires, hheld.concat rfl⟩

theorem loadAccount_accounted (h : Accounted su start w) (accountId : String) (x : Exchange) :
    Accounted su start (loadAccount su w accountId x).2 ∧
      ∀ account, (loadAccount su w accountId x).1 = .ok account →
        Recent su (loadAccount su w accountId x).2.journal accountId x.now account.toSettings := by
  unfold loadAccount
  cases hlookup : lookup su.ttl w.cache accountId false x.now with
  | mk served cache =>
    have hcache : (lookup su.ttl w.cache accountId false x.now).2 = cache := by rw [hlookup]
    have hkept : Accounted su start { w with cache := cache } := by
      refine ⟨h.accounts, fun k e hk => h.cached k e ?_, h.lawful⟩
      rw [← hcache] at hk
      exact (lookup_cache hk).1
    cases served with
    | some account =>
      refine ⟨hkept, fun account' heq => ?_⟩
      obtain rfl := Except.ok.inj heq
      have hserved : (lookup su.ttl w.cache accountId false x.now).1 = some account := by
        rw [hlookup]
      obtain ⟨-, -, e, he, rfl, hnow⟩ := lookup_served hserved
      obtain ⟨t, hexpires, hheld⟩ := h.cached accountId e he
      exact ⟨t, hheld, .inl (hexpires ▸ hnow)⟩
    | none =>
      cases x.failure with
      | some e => exact ⟨hkept, nofun⟩
      | none =>
        refine ⟨hkept.answered accountId x.now', fun account heq => ?_⟩
        obtain rfl := Except.ok.inj heq
        exact ⟨x.now', held_answered .., .inr ⟨_, List.getLast?_concat⟩⟩

theorem Accounted.build (h : Accounted su start w) : Accounted su start (build su w) := by
  refine ⟨h.accounts, fun k cached hk => ?_, h.lawful⟩
  by_cases hown : k = su.publicKey
  · subst hown
    simp only [AccountEntries.build, Function.update_self] at hk
    obtain ⟨cached', hcached, rfl⟩ := Option.map_eq_some_iff.mp hk
    exact h.cached _ cached' hcached
  · simp only [AccountEntries.build, Function.update_of_ne hown] at hk
    exact h.cached k cached hk

theorem submit_applied_of_ok {retries : ℕ} {script : Script} {tx : Transaction Operation}
    {sequence : ℤ} {receipt : String × ℕ}
    (h : (submit retries script tx ⟨sequence, []⟩).1 = .ok receipt) :
    (submit retries script tx ⟨sequence, []⟩).2.applied ≠ [] := by
  intro hnone
  obtain ⟨out, l, hsubmit⟩ : ∃ out l, submit retries script tx ⟨sequence, []⟩ = (out, l) :=
    ⟨_, _, rfl⟩
  rw [hsubmit] at h hnone
  obtain rfl : out = .ok receipt := h
  have hlast := submit_ok hsubmit
  rw [show l.applied = [] from hnone] at hlast
  cases hlast

theorem Accounted.settle (h : Accounted su start w) (sequence : ℤ) {operation : Operation}
    {applied : Bool} {result : Except Fault (String × ℕ)}
    (hlawful : Lawful su start w.journal (.submitted operation applied result)) :
    Accounted su start ({ w with
      accounts := Function.update w.accounts su.publicKey
        (if applied then { w.accounts su.publicKey with sequence := sequence }.apply su operation
        else { w.accounts su.publicKey with sequence := sequence })
      cache := invalidateAccountCache w.cache none }.log
        (.submitted operation applied result)) := by
  refine ⟨fun k => ?_, nofun, h.lawful.concat hlawful⟩
  rw [World.log, ledgerAt_concat]
  by_cases hk : k = su.publicKey
  · subst hk
    cases applied with
    | true =>
      simp only [note, Function.update_self, ← h.accounts]
      rfl
    | false =>
      simp only [note, Function.update_self, ← h.accounts]
      rfl
  · cases applied with
    | true =>
      simp only [note, Function.update_of_ne hk]
      exact h.accounts k
    | false =>
      simp only [note, Function.update_of_ne hk]
      exact h.accounts k

theorem Accounted.submitted (h : Accounted su start w) (sequence : ℤ) {operation : Operation}
    (script : Script) (hwarranted : Warranted su w.journal operation) :
    Accounted su start (submitted su w sequence operation script) := by
  unfold AccountEntries.submitted
  cases script.refused with
  | some e => exact h
  | none =>
    refine h.settle _ ⟨hwarranted, fun receipt hreceipt => ?_⟩
    rw [Bool.not_eq_true', List.isEmpty_eq_false_iff]
    exact submit_applied_of_ok hreceipt

theorem Accounted.send (h : Accounted su start w) (cached : Bool) (sequence : ℤ)
    {operation : Operation} (script : Script) (hwarranted : Warranted su w.journal operation) :
    Accounted su start (send su w cached sequence operation script) := by
  unfold AccountEntries.send
  split
  · exact h
  · cases cached with
    | true => exact h.build.submitted _ script hwarranted
    | false => exact h.submitted _ script hwarranted

theorem Accounted.mutate (h : Accounted su start w) {operation : Operation} (x : Exchange)
    (script : Script) (hwarranted : ∀ journal, Warranted su journal operation) :
    Accounted su start (mutate su w operation x script) := by
  have hload := (loadAccount_accounted h su.publicKey x).1
  unfold AccountEntries.mutate
  generalize loadAccount su w su.publicKey x = out at hload ⊢
  obtain ⟨result, w'⟩ := out
  cases result with
  | error e => exact hload
  | ok account => exact hload.send true account.sequence script (hwarranted _)

theorem balanceCheckInputSchema_publicKey {raw : RawBalanceCheck} {input : BalanceCheckInput}
    {publicKey : String} (h : balanceCheckInputSchema su raw = .ok input)
    (hkey : raw.publicKey = some publicKey) : input.publicKey = trim publicKey := by
  unfold balanceCheckInputSchema at h
  dsimp only at h
  split at h
  · rename_i hpublicKey _
    cases h
    rw [hkey] at hpublicKey
    cases hpublicKey
    rfl
  · cases h

theorem Accounted.removeTrust (h : Accounted su start w) (input : TrustlineInput)
    (x x' : Exchange) (script : Script) :
    Accounted su start (removeTrust su w input x x' script) := by
  have hload := (loadAccount_accounted h su.publicKey x).1
  unfold AccountEntries.removeTrust
  generalize loadAccount su w su.publicKey x = out at hload ⊢
  obtain ⟨result, w'⟩ := out
  cases result with
  | error e => exact hload
  | ok account =>
    dsimp only
    split
    · exact hload
    · rename_i input' hinput
      have hown := balanceCheckInputSchema_publicKey hinput rfl
      rw [su.publicKey_bare] at hown
      obtain ⟨hcheck, hrecent⟩ := loadAccount_accounted hload input'.publicKey x'
      generalize (lookup su.ttl w'.cache input'.publicKey false x'.now).1.isSome = cached
      generalize loadAccount su w' input'.publicKey x' = out at hcheck hrecent ⊢
      obtain ⟨result, w''⟩ := out
      cases result with
      | error e => exact hcheck
      | ok account' =>
        dsimp only
        split
        · exact hcheck
        · rename_i hleft
          rw [Bool.not_eq_true] at hleft
          refine hcheck.send cached account.sequence script ?_
          exact ⟨input', x'.now, _, hinput, hown ▸ hrecent account' rfl, hleft⟩

theorem Accounted.read (h : Accounted su start w) (accountId : String) (x : Exchange)
    {entry : Settings → Entry} (hnote : ∀ settings l, note su l (entry settings) = l)
    (hquiet : ∀ settings, isSubmission (entry settings) = false)
    (hlawful : ∀ journal settings, Recent su journal accountId x.now settings →
      Lawful su start journal (entry settings)) :
    Accounted su start (read su w accountId x entry) := by
  obtain ⟨hload, hrecent⟩ := loadAccount_accounted h accountId x
  unfold AccountEntries.read
  generalize loadAccount su w accountId x = out at hload hrecent ⊢
  obtain ⟨result, w'⟩ := out
  cases result with
  | error e => exact hload
  | ok account =>
    exact hload.log (hnote _) (hquiet _) (hlawful _ _ (hrecent account rfl))

theorem Accounted.elsewhere (h : Accounted su start w) (changed : List (String × Account)) :
    Accounted su start ({ w with
      accounts := fun k => (changed.lookup k).getD (w.accounts k) }.log (.elsewhere changed)) := by
  refine ⟨fun k => ?_, fun k cached hk => ?_, h.lawful.concat trivial⟩
  · simp only [World.log, ledgerAt_concat, note, ← h.accounts]
    exact (Option.getD_map ..).symm
  · obtain ⟨t, hexpires, hheld⟩ := h.cached k cached hk
    exact ⟨t, hexpires, hheld.concat rfl⟩

theorem Accounted.next (h : Accounted su start w) (a : Action) :
    Accounted su start (step su w a) := by
  cases a with
  | dataEntry raw x script =>
    rw [AccountEntries.step]
    split
    · exact h
    · exact h.mutate x script fun _ => trivial
    · exact h.mutate x script fun _ => trivial
    · rw [getDataEntry]
      exact h.read _ x (fun _ _ => rfl) (fun _ => rfl) fun _ s hs => ⟨s, hs, rfl⟩
  | inflation raw x script =>
    rw [AccountEntries.step]
    split
    · exact h
    · exact h.mutate x script fun _ => trivial
    · rw [getInflation]
      exact h.read _ x (fun _ _ => rfl) (fun _ => rfl) fun _ s hs => ⟨s, hs, rfl⟩
  | trustline raw x x' script =>
    rw [AccountEntries.step]
    split
    · exact h
    · rw [trustline]
      split
      · exact h
      · split
        · exact h.mutate x script fun _ => trivial
        · exact h.removeTrust ..
  | checkTrustline assetCode assetIssuer x =>
    rw [AccountEntries.step, checkTrustline]
    exact h.read _ x (fun _ _ => rfl) (fun _ => rfl) fun _ s hs => ⟨s, hs, rfl⟩
  | balanceCheck raw x =>
    rw [AccountEntries.step]
    split
    · exact h
    · rw [balanceCheck]
      exact h.read _ x (fun _ _ => rfl) (fun _ => rfl) fun _ s hs => ⟨s, hs, rfl⟩
  | elsewhere changed => exact h.elsewhere changed

/-- The ledger's settings of the agent keep a property through an entry. -/
def Keeps (su : Setup) (P : Settings → Prop) : Entry → Prop
  | .elsewhere changed => ∀ a ∈ changed.lookup su.publicKey, P a.toSettings
  | .submitted operation true _ => ∀ s, P s → P (s.apply su operation)
  | _ => True

theorem ledgerAt_keeps {P : Settings → Prop} {xs ys : List Entry}
    (hxs : P (ledgerAt su start xs su.publicKey)) (hys : ∀ e ∈ ys, Keeps su P e) :
    P (ledgerAt su start (xs ++ ys) su.publicKey) := by
  induction ys using List.reverseRecOn with
  | nil =>
    rw [List.append_nil]
    exact hxs
  | append_singleton ys e ih =>
    obtain ⟨hys, he⟩ := List.forall_mem_append.mp hys
    have hbefore := ih hys
    have hkeeps := he e (List.mem_singleton_self e)
    rw [← List.append_assoc, ledgerAt_concat]
    cases e with
    | elsewhere changed =>
      simp only [note]
      cases hlookup : changed.lookup su.publicKey with
      | none => exact hbefore
      | some a => exact hkeeps a hlookup
    | submitted operation applied result =>
      cases applied with
      | true =>
        rw [note, Function.update_self]
        exact hkeeps _ hbefore
      | false => exact hbefore
    | answered | gotEntry | gotInflation | gotBalance | gotTrustline => exact hbefore

theorem Held.settled {P : Settings → Prop} {xs ys : List Entry} {operation : Operation}
    {result : Except Fault (String × ℕ)}
    (h : Held (xs ++ .submitted operation true result :: ys) su.publicKey t settings)
    (hlawful : Preceded (Lawful su start) (xs ++ .submitted operation true result :: ys))
    (hset : ∀ s : Settings, P (s.apply su operation)) (hys : ∀ e ∈ ys, Keeps su P e) :
    P settings := by
  obtain ⟨as, bs, account, heq, hquiet, rfl⟩ := h
  have hanswer : account.toSettings = ledgerAt su start as su.publicKey := hlawful as bs _ heq
  rw [hanswer]
  obtain ⟨cs, rfl, hcs⟩ | ⟨cs, rfl, hcs⟩ := List.append_eq_append_iff.mp heq
  · cases cs with
    | nil => cases hcs
    | cons c cs =>
      obtain ⟨rfl, rfl⟩ := List.cons.inj hcs
      rw [List.append_cons]
      refine ledgerAt_keeps ?_ fun e he => hys e (List.mem_append_left _ he)
      rw [ledgerAt_concat, note, Function.update_self]
      exact hset _
  · cases cs with
    | nil => cases hcs
    | cons c cs =>
      obtain ⟨rfl, rfl⟩ := List.cons.inj hcs
      have hsubmission := hquiet _ (List.mem_append_right _ List.mem_cons_self)
      cases hsubmission

end PayFi.Tools.EntryReads
