import PayFi.Network.AccountCache

namespace PayFi.Network.Sequence

open Library.Machine Library.Parties AccountCache

variable {Key : Type}

/-- A transaction at its handing over: its own sequence number, and the account's on
the ledger. -/
structure Handed where
  sequence : ℤ
  onChain : ℤ
  deriving DecidableEq

/-- The account records that Horizon has answered with, by number, each with the sequence
number that its builders have left in it; and the agent's account on the ledger. For
the agent's cached record the builds from it and the landings since its answer are
counted. -/
structure World (Key : Type) where
  cache : Cache Key ℕ
  records : ℕ → ℤ
  fresh : ℕ
  sequence : ℤ
  handed : List Handed
  builds : ℕ
  landings : ℕ

/-- What a load and the build after it meet: the readings of the clock, whether Horizon
answers, whether an earlier transaction of the agent lands after the answer, and whether
the transaction can be built. -/
structure Attempt where
  now : ℤ
  answers : Bool
  now' : ℤ
  landed : Bool
  builds : Bool

/-- What a submission meets; an envelope may fail `validateXDR`. -/
structure Submission where
  validXDR : Bool
  lands : Bool

/-- One execution of a tool, from its load on. The first phase of a multi-signature payment
submits nothing, nor does an invocation that is simulated only or fails a check. -/
inductive Execution (Key : Type) where
  | stellarPayment (first : Attempt) (submission : Submission) (badSeq : Bool) (second : Attempt)
      (resubmission : Submission)
  | multisigPayment (first : Attempt) (submission : Option Submission)
  | sorobanQuery (first : Attempt)
  | sorobanInvoke (first : Attempt) (lands : Option Bool)
  | dataEntryGet (key : Key) (sequence : ℤ) (first : Attempt)
  | dataEntry (first : Attempt) (submission : Submission)

/-- Tools run one after another; between them a transaction handed over before may land. -/
inductive Action (Key : Type) where
  | execute (e : Execution Key)
  | land

def World.advance (w : World Key) : World Key :=
  { w with sequence := w.sequence + 1, landings := w.landings + 1 }

def World.land (w : World Key) : World Key :=
  if w.sequence + 1 ∈ w.handed.map Handed.sequence then w.advance else w

/-- A record of the account with this key, unless the load fails. The answer is what
Horizon has for the key. -/
def loadAccount [DecidableEq Key] (ttl : ℕ) (own key : Key) (answer : ℤ) (w : World Key)
    (forceRefresh : Bool) (x : Attempt) : Option ℕ × World Key :=
  match lookup ttl w.cache key forceRefresh x.now with
  | (some r, cache) => (some r, { w with cache := cache })
  | (none, cache) =>
    if x.answers then
      (some w.fresh, { w with
        cache := store ttl cache key w.fresh x.now'
        records := Function.update w.records w.fresh answer
        fresh := w.fresh + 1
        builds := if key = own ∧ 0 < ttl then 0 else w.builds
        landings := if key = own ∧ 0 < ttl then 0 else w.landings })
    else (none, { w with cache := cache })

/-- `TransactionBuilder.build` takes the next sequence number and leaves it in the
record. -/
def build (own : Key) (w : World Key) (r : ℕ) : ℤ × World Key :=
  (w.records r + 1, { w with
    records := Function.update w.records r (w.records r + 1)
    builds := if (w.cache own).map CachedAccount.account = some r then w.builds + 1
      else w.builds })

def handOver (w : World Key) (sequence : ℤ) : World Key :=
  { w with handed := w.handed ++ [⟨sequence, w.sequence⟩] }

def settle (w : World Key) (sequence : ℤ) (lands : Bool) : World Key :=
  if lands ∧ sequence = w.sequence + 1 then w.advance else w

def submitTransaction [DecidableEq Key] (w : World Key) (sequence : ℤ) (x : Submission) :
    World Key :=
  if x.validXDR then
    { settle (handOver w sequence) sequence x.lands with
      cache := invalidateAccountCache w.cache none }
  else handOver w sequence

def sendTransaction (w : World Key) (sequence : ℤ) (lands : Bool) : World Key :=
  settle (handOver w sequence) sequence lands

/-- Load the agent's account, build a transaction from it, and go on with its sequence
number. -/
def withTransaction [DecidableEq Key] (ttl : ℕ) (own : Key) (w : World Key) (forceRefresh : Bool)
    (x : Attempt) (use : ℤ → World Key → World Key) : World Key :=
  match loadAccount ttl own own w.sequence w forceRefresh x with
  | (none, w) => w
  | (some r, w) =>
    let w := if x.landed then w.land else w
    if x.builds then use (build own w r).1 (build own w r).2 else w

def execute [DecidableEq Key] (ttl : ℕ) (own : Key) (w : World Key) : Execution Key → World Key
  | .stellarPayment first submission badSeq second resubmission =>
    withTransaction ttl own w false first fun sequence w =>
      let w := submitTransaction w sequence submission
      if badSeq then
        withTransaction ttl own w true second fun sequence w =>
          submitTransaction w sequence resubmission
      else w
  | .multisigPayment first submission =>
    withTransaction ttl own w false first fun sequence w =>
      submission.elim w (submitTransaction w sequence)
  | .sorobanQuery first => withTransaction ttl own w false first fun _ w => w
  | .sorobanInvoke first lands =>
    withTransaction ttl own w false first fun sequence w =>
      lands.elim w (sendTransaction w sequence)
  | .dataEntryGet key sequence first =>
    (loadAccount ttl own key (if key = own then w.sequence else sequence) w false first).2
  | .dataEntry first submission =>
    withTransaction ttl own w false first fun sequence w => submitTransaction w sequence submission

def step [DecidableEq Key] (ttl : ℕ) (own : Key) (w : World Key) : Action Key → World Key
  | .execute e => execute ttl own w e
  | .land => w.land

def idle (sequence : ℤ) : World Key := ⟨fun _ => none, fun _ => 0, 0, sequence, [], 0, 0⟩

/-- Every transaction handed over carries the next sequence number. -/
def Consistent (w : World Key) : Prop := ∀ h ∈ w.handed, h.sequence = h.onChain + 1

def Served (ttl : ℕ) (own : Key) (w : World Key) (now : ℤ) : Prop :=
  0 < ttl ∧ ∃ cached ∈ w.cache own, now < cached.expiresAt

/-- A transaction is built from the cached record only when as many have landed since
its answer as have been built from it. And nothing lands between the answer and the
handing over. -/
def Ready (ttl : ℕ) (own : Key) (w : World Key) (forceRefresh : Bool) (x : Attempt) : Prop :=
  x.builds = true → x.landed = false ∧
    (forceRefresh = false → Served ttl own w x.now → w.builds = w.landings)

/-- The condition of every execution that hands a transaction over. -/
def Clean (ttl : ℕ) (own : Key) (u : Transition (World Key) (Action Key)) : Prop :=
  match u.action with
  | .execute (.stellarPayment first _ badSeq second _) =>
    Ready ttl own u.before false first ∧ (badSeq = true → second.landed = false)
  | .execute (.multisigPayment first (some _)) => Ready ttl own u.before false first
  | .execute (.sorobanInvoke first (some _)) => Ready ttl own u.before false first
  | .execute (.dataEntry first _) => Ready ttl own u.before false first
  | _ => True

instance (ttl : ℕ) (own : Key) (w : World Key) (now : ℤ) : Decidable (Served ttl own w now) :=
  inferInstanceAs (Decidable (0 < ttl ∧ ∃ cached ∈ w.cache own, now < cached.expiresAt))

instance (ttl : ℕ) (own : Key) (w : World Key) (forceRefresh : Bool) (x : Attempt) :
    Decidable (Ready ttl own w forceRefresh x) :=
  inferInstanceAs (Decidable (x.builds = true → _ ∧ (_ → _ → _)))

instance (ttl : ℕ) (own : Key) :
    (u : Transition (World Key) (Action Key)) → Decidable (Clean ttl own u)
  | ⟨_, .execute (.stellarPayment _ _ _ _ _), _⟩ => inferInstanceAs (Decidable (_ ∧ (_ → _)))
  | ⟨_, .execute (.multisigPayment _ (some _)), _⟩ => inferInstanceAs (Decidable (Ready ..))
  | ⟨_, .execute (.multisigPayment _ none), _⟩ => .isTrue trivial
  | ⟨_, .execute (.sorobanQuery _), _⟩ => .isTrue trivial
  | ⟨_, .execute (.sorobanInvoke _ (some _)), _⟩ => inferInstanceAs (Decidable (Ready ..))
  | ⟨_, .execute (.sorobanInvoke _ none), _⟩ => .isTrue trivial
  | ⟨_, .execute (.dataEntryGet _ _ _), _⟩ => .isTrue trivial
  | ⟨_, .execute (.dataEntry _ _), _⟩ => inferInstanceAs (Decidable (Ready ..))
  | ⟨_, .land, _⟩ => .isTrue trivial

/-- The cached record has moved with its builds, and the ledger with the landings. -/
structure Tracked (own : Key) (w : World Key) : Prop where
  fresh : ∀ e, w.cache own = some e → e.account < w.fresh
  counted : ∀ e, w.cache own = some e → w.records e.account + w.landings = w.sequence + w.builds
  consistent : Consistent w

variable {own key : Key} {w w' : World Key} {ttl : ℕ} {x : Attempt} {r : ℕ} {answer : ℤ}
  {forceRefresh : Bool}

theorem idle_tracked (own : Key) (sequence : ℤ) : Tracked own (idle sequence) := by
  constructor <;> simp [idle, Consistent]

theorem Tracked.advance (h : Tracked own w) : Tracked own w.advance := by
  refine ⟨h.fresh, ?_, h.consistent⟩
  intro e he
  have hcount := h.counted e he
  simp only [World.advance]
  omega

theorem Tracked.land (h : Tracked own w) : Tracked own w.land := by
  unfold World.land
  split
  · exact h.advance
  · exact h

theorem landed_tracked (h : Tracked own w) (landed : Bool) :
    Tracked own (if landed then w.land else w) := by
  split
  · exact h.land
  · exact h

theorem Tracked.settle (h : Tracked own w) (sequence : ℤ) (lands : Bool) :
    Tracked own (settle w sequence lands) := by
  unfold Sequence.settle
  split
  · exact h.advance
  · exact h

theorem Tracked.drop (h : Tracked own w) {cache : Cache Key ℕ}
    (hc : ∀ e, cache own = some e → w.cache own = some e) :
    Tracked own { w with cache := cache } :=
  ⟨fun e he => h.fresh e (hc e he), fun e he => h.counted e (hc e he), h.consistent⟩

theorem Tracked.handOver (h : Tracked own w) : Tracked own (handOver w (w.sequence + 1)) :=
  ⟨h.fresh, h.counted, forall_mem_concat h.consistent rfl⟩

theorem Tracked.build (h : Tracked own w) (r : ℕ) : Tracked own (build own w r).2 := by
  refine ⟨h.fresh, ?_, h.consistent⟩
  intro e he
  have hcount := h.counted e he
  have he : w.cache own = some e := he
  simp only [Sequence.build, he, Option.map_some, Option.some.injEq]
  by_cases hr : e.account = r
  · subst hr
    rw [Function.update_self, if_pos rfl]
    push_cast
    omega
  · rw [Function.update_of_ne hr, if_neg hr]
    exact hcount

theorem sendTransaction_tracked (h : Tracked own w) (lands : Bool) :
    Tracked own (sendTransaction w (w.sequence + 1) lands) := h.handOver.settle _ _

variable [DecidableEq Key]

theorem store_cases {c : Cache Key ℕ} {k : Key} {e : CachedAccount ℕ} {now : ℤ}
    (h : store ttl c key r now k = some e) :
    (k = key ∧ 0 < ttl) ∧ e.account = r ∨ ¬ (k = key ∧ 0 < ttl) ∧ c k = some e := by
  unfold store at h
  split at h
  · rename_i httl
    by_cases hk : k = key
    · subst hk
      rw [Function.update_self, Option.some.injEq] at h
      exact .inl ⟨⟨rfl, httl⟩, by rw [← h]⟩
    · rw [Function.update_of_ne hk] at h
      exact .inr ⟨fun hboth => hk hboth.1, h⟩
  · rename_i httl
    exact .inr ⟨fun hboth => httl hboth.2, h⟩

/-- The agent's own record is answered with the current sequence number; the record of
another account leaves it alone. -/
theorem loadAccount_tracked (h : Tracked own w) (key : Key) (forceRefresh : Bool) (x : Attempt)
    (hanswer : key = own → answer = w.sequence) :
    Tracked own (loadAccount ttl own key answer w forceRefresh x).2 := by
  have hcache : ∀ e, (lookup ttl w.cache key forceRefresh x.now).2 own = some e →
      w.cache own = some e := fun e he => (lookup_cache he).1
  unfold loadAccount
  split
  · rename_i cache hlookup
    rw [hlookup] at hcache
    exact h.drop hcache
  · rename_i cache hlookup
    rw [hlookup] at hcache
    split
    · constructor
      · intro e he
        obtain ⟨-, hr⟩ | ⟨-, hold⟩ := store_cases he
        · simp only [hr]
          omega
        · exact Nat.lt_succ_of_lt (h.fresh e (hcache e hold))
      · intro e he
        obtain ⟨⟨hkey, httl⟩, hr⟩ | ⟨hother, hold⟩ := store_cases he
        · have hown : key = own ∧ 0 < ttl := ⟨hkey.symm, httl⟩
          simp only [hr, hown, and_self, if_true, Function.update_self, hanswer hown.1]
        · have hown : ¬ (key = own ∧ 0 < ttl) := fun hboth => hother ⟨hboth.1.symm, hboth.2⟩
          have hne : e.account ≠ w.fresh := Nat.ne_of_lt (h.fresh e (hcache e hold))
          simp only [hown, if_false, Function.update_of_ne hne]
          exact h.counted e (hcache e hold)
      · exact h.consistent
    · exact h.drop hcache

/-- A load of the agent's own account hands out the current sequence number, if what it
is served with is clean. -/
theorem loadAccount_current (h : Tracked own w) (x : Attempt)
    (hclean : forceRefresh = false → Served ttl own w x.now → w.builds = w.landings)
    (hload : loadAccount ttl own own w.sequence w forceRefresh x = (some r, w')) :
    w'.records r = w'.sequence := by
  unfold loadAccount at hload
  split at hload
  · rename_i r' cache hlookup
    cases hload
    obtain ⟨hforce, httl, e, he, rfl, hnow⟩ := lookup_served (congrArg Prod.fst hlookup)
    have heq := hclean hforce ⟨httl, e, he, hnow⟩
    have hcount := h.counted e he
    simp only
    omega
  · split at hload
    · cases hload
      exact Function.update_self ..
    · cases hload

theorem submitTransaction_tracked (h : Tracked own w) (x : Submission) :
    Tracked own (submitTransaction w (w.sequence + 1) x) := by
  unfold submitTransaction
  split
  · apply (h.handOver.settle _ _).drop
    intro e he
    cases he
  · exact h.handOver

theorem withTransaction_tracked (h : Tracked own w) {use : ℤ → World Key → World Key}
    (huse : ∀ w, Tracked own w → Tracked own (use (w.sequence + 1) w))
    (hready : Ready ttl own w forceRefresh x) :
    Tracked own (withTransaction ttl own w forceRefresh x use) := by
  have hload : Tracked own (loadAccount ttl own own w.sequence w forceRefresh x).2 :=
    loadAccount_tracked h own forceRefresh x fun _ => rfl
  unfold withTransaction
  split
  · rename_i w' hout
    rwa [hout] at hload
  · rename_i r w' hout
    rw [hout] at hload
    by_cases hbuilds : x.builds = true
    · obtain ⟨hlanded, hserved⟩ := hready hbuilds
      have hcurrent := loadAccount_current h x hserved hout
      have hseq : (build own w' r).1 = (build own w' r).2.sequence + 1 := by
        simp only [build, hcurrent]
      simp only [hlanded, hbuilds, if_true, Bool.false_eq_true, if_false]
      rw [hseq]
      exact huse _ (hload.build r)
    · rw [Bool.not_eq_true] at hbuilds
      simp only [hbuilds, Bool.false_eq_true, if_false]
      exact landed_tracked hload x.landed

theorem withTransaction_unused (h : Tracked own w) (x : Attempt) :
    Tracked own (withTransaction ttl own w false x fun _ w => w) := by
  have hload : Tracked own (loadAccount ttl own own w.sequence w false x).2 :=
    loadAccount_tracked h own false x fun _ => rfl
  unfold withTransaction
  split
  · rename_i w' hout
    rwa [hout] at hload
  · rename_i r w' hout
    rw [hout] at hload
    have hlanded := landed_tracked hload x.landed
    dsimp only
    split
    · exact hlanded.build r
    · exact hlanded

theorem execute_tracked (h : Tracked own w) (e : Execution Key)
    (hclean : Clean ttl own ⟨w, .execute e, w'⟩) : Tracked own (execute ttl own w e) := by
  cases e with
  | stellarPayment first submission badSeq second resubmission =>
    simp only [execute]
    refine withTransaction_tracked h (fun w hw => ?_) hclean.1
    have hsubmitted := submitTransaction_tracked hw submission
    by_cases hbad : badSeq = true
    · rw [if_pos hbad]
      refine withTransaction_tracked hsubmitted (fun w hw => ?_) fun _ => ⟨hclean.2 hbad, nofun⟩
      exact submitTransaction_tracked hw resubmission
    · rw [if_neg hbad]
      exact hsubmitted
  | multisigPayment first submission =>
    simp only [execute]
    cases submission with
    | none => exact withTransaction_unused h first
    | some submission =>
      refine withTransaction_tracked h (fun w hw => ?_) hclean
      exact submitTransaction_tracked hw submission
  | sorobanQuery first => exact withTransaction_unused h first
  | sorobanInvoke first lands =>
    simp only [execute]
    cases lands with
    | none => exact withTransaction_unused h first
    | some lands =>
      refine withTransaction_tracked h (fun w hw => ?_) hclean
      exact sendTransaction_tracked hw lands
  | dataEntryGet key sequence first =>
    apply loadAccount_tracked h key false first
    intro hkey
    rw [if_pos hkey]
  | dataEntry first submission =>
    simp only [execute]
    refine withTransaction_tracked h (fun w hw => ?_) hclean
    exact submitTransaction_tracked hw submission

/-- Every transaction handed over carries the next sequence number, in every run in which
none is built from a cached record that is ahead of the ledger or behind it. -/
theorem sequences_consistent (ttl : ℕ) (own : Key) (sequence : ℤ) (as : List (Action Key))
    (hgood : ∀ u ∈ trace (step ttl own) (idle sequence) as, Clean ttl own u) :
    Consistent (run (step ttl own) (idle sequence) as) := by
  have htracked : Tracked own (run (step ttl own) (idle sequence) as) := by
    refine run_invariant_of (idle_tracked own sequence) (fun w a hclean hw => ?_) as hgood
    cases a with
    | execute e => exact execute_tracked hw e hclean
    | land => exact hw.land
  exact htracked.consistent

/-- A load that Horizon answers at once, and a transaction that can be built. -/
def attempt (now : ℤ) : Attempt := ⟨now, true, now, false, true⟩

theorem sequences_consistent_after_invocation :
    Consistent (run (step 30000 "GAGENT") (idle 100)
      [.execute (.sorobanInvoke (attempt 0) (some true)),
        .execute (.dataEntry (attempt 5) ⟨true, false⟩), .land,
        .execute (.sorobanQuery (attempt 10)),
        .execute (.stellarPayment (attempt 40000) ⟨true, true⟩ true (attempt 40001)
          ⟨true, true⟩)]) :=
  sequences_consistent 30000 "GAGENT" 100 _ (by decide +kernel)

/-- A payment after a query is built from the record that the query has moved. -/
theorem sequences_inconsistent :
    ¬ Consistent (run (step 30000 "GAGENT") (idle 100)
      [.execute (.sorobanQuery (attempt 0)),
        .execute (.stellarPayment (attempt 1) ⟨true, false⟩ false (attempt 2) ⟨true, false⟩)]) := by
  intro h
  have hhanded := h ⟨102, 100⟩ (by decide +kernel)
  exact absurd hhanded (by decide)

end PayFi.Network.Sequence
