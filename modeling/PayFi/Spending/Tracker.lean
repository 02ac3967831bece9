import PayFi.Library.Doubles
import PayFi.Library.Window

namespace PayFi.Spending.Tracker

open Library.Numbers Library.Doubles Library.Window

inductive Network where
  | testnet
  | mainnet
  | futurenet
  deriving DecidableEq

/-- A decimal that starts with a digit other than 0. -/
def spendingLimitSchema (s : String) : Bool :=
  isDecimal s.toList && s.toList.head? ≠ some '0'

/-- The settings the spending guard reads, as validated when the process starts. -/
structure Config where
  network : Network
  spendingLimit : String
  windowMs : ℤ
  assetCode : String
  limit_valid : spendingLimitSchema spendingLimit = true
  window_valid : 100 ≤ windowMs

structure SpendingRecord where
  amount : Number
  timestamp : ℤ
  deriving DecidableEq

abbrev Table := List SpendingRecord

def saveSpendingRecord (db : Table) (record : SpendingRecord) : Table := db ++ [record]

/-- Records at or after `sinceMs`, oldest first. -/
def loadSpendingRecords (db : Table) (sinceMs : ℤ) : List SpendingRecord :=
  (db.filter fun r => sinceMs ≤ r.timestamp).mergeSort fun r r' => r.timestamp ≤ r'.timestamp

def pruneSpendingRecords (db : Table) (cutoffMs : ℤ) : Table :=
  db.filter fun r => ¬ r.timestamp < cutoffMs

def clearSpendingRecords (_ : Table) : Table := []

/-- The tracker's queue and the table it is mirrored to. -/
structure State where
  records : List SpendingRecord
  db : Table

structure LimitExceeded where
  total : Number
  limit : Number
  deriving DecidableEq

structure WindowStatus where
  total : Number
  recordCount : ℕ
  windowMs : ℤ
  oldestTimestamp : Option ℤ
  deriving DecidableEq

def sumAmountsIn (A : Arithmetic) (rs : List SpendingRecord) : Number :=
  A.sum (rs.map SpendingRecord.amount)

def sumAmounts (rs : List SpendingRecord) : Number := sumAmountsIn .exact rs

variable (cfg : Config)

def pruneOld (s : State) (now : ℤ) : State :=
  let cutoff := now - cfg.windowMs
  let kept := expire SpendingRecord.timestamp cutoff s.records
  if kept.length < s.records.length then ⟨kept, pruneSpendingRecords s.db cutoff⟩
  else ⟨kept, s.db⟩

def totalIn (A : Arithmetic) (s : State) (now : ℤ) : Number × State :=
  let s := pruneOld cfg s now
  (sumAmountsIn A s.records, s)

def total (s : State) (now : ℤ) : Number × State := totalIn cfg .exact s now

/-- A new tracker over a table. Its second clock reading is that of the total it logs. -/
def restore (db : Table) (now now' : ℤ) : State :=
  let s : State := ⟨loadSpendingRecords db (now - cfg.windowMs), db⟩
  if 0 < s.records.length then (total cfg s now').2 else s

/-- Record an amount: `now` stamps it, `now'` is the clock of the total. The
record stays when the limit is exceeded. -/
def recordIn (A : Arithmetic) (s : State) (amountStr : String) (now now' : ℤ) :
    Except LimitExceeded Unit × State :=
  let amount := A.parseFloat amountStr
  if amount.isNaN then (.ok (), s)
  else
    let s := pruneOld cfg s now
    let r : SpendingRecord := ⟨amount, now⟩
    let s : State := ⟨s.records ++ [r], saveSpendingRecord s.db r⟩
    let (sum, s) := totalIn cfg A s now'
    let limit := A.parseFloat cfg.spendingLimit
    if !sum.isNaN && !limit.isNaN && limit.lt sum then (.error ⟨sum, limit⟩, s)
    else (.ok (), s)

def record (s : State) (amountStr : String) (now now' : ℤ) : Except LimitExceeded Unit × State :=
  recordIn cfg .exact s amountStr now now'

def getWindowStatus (s : State) (now : ℤ) : WindowStatus × State :=
  let s := pruneOld cfg s now
  (⟨sumAmounts s.records, s.records.length, cfg.windowMs,
    s.records.head?.map SpendingRecord.timestamp⟩, s)

def clear (s : State) : State := ⟨[], clearSpendingRecords s.db⟩

/-- Queue and table both stand for what has been recorded since the last clear,
from the window of the last clock reading on. -/
structure Tracks (history : List SpendingRecord) (clock : ℤ) (s : State) : Prop where
  ordered : Ordered SpendingRecord.timestamp history
  past : ∀ r ∈ history, r.timestamp ≤ clock
  queue : Mirrors SpendingRecord.timestamp (clock - cfg.windowMs) history s.records
  subqueue : ∀ r ∈ s.records, r ∈ history
  table : Mirrors SpendingRecord.timestamp (clock - cfg.windowMs) history s.db
  subtable : ∀ r ∈ s.db, r ∈ history

def window (history : List SpendingRecord) (now : ℤ) : List SpendingRecord :=
  since SpendingRecord.timestamp (now - cfg.windowMs) history

variable {cfg} {history : List SpendingRecord} {clock now now' : ℤ} {s : State}

theorem recordIn_exact (cfg : Config) (s : State) (amountStr : String) (now now' : ℤ) :
    recordIn cfg .exact s amountStr now now' = record cfg s amountStr now now' := by
  rw [record]

theorem pruneSpendingRecords_eq (db : Table) (cutoff : ℤ) :
    pruneSpendingRecords db cutoff = since SpendingRecord.timestamp cutoff db := by
  simp [pruneSpendingRecords, since]

theorem loadSpendingRecords_eq {db : Table} (h : Ordered SpendingRecord.timestamp db)
    (cutoff : ℤ) : loadSpendingRecords db cutoff = since SpendingRecord.timestamp cutoff db := by
  apply List.mergeSort_of_pairwise
  have hs : Ordered SpendingRecord.timestamp (since SpendingRecord.timestamp cutoff db) :=
    h.since cutoff
  exact hs.imp fun hle => decide_eq_true hle

theorem Tracks.empty (cfg : Config) (clock : ℤ) : Tracks cfg [] clock ⟨[], []⟩ := by
  have h : Ordered SpendingRecord.timestamp [] := List.Pairwise.nil
  exact ⟨h, by simp, .refl h _, by simp, .refl h _, by simp⟩

theorem Tracks.later (h : Tracks cfg history clock s) (hc : clock ≤ now) :
    Tracks cfg history now s := by
  have hcut : clock - cfg.windowMs ≤ now - cfg.windowMs := by omega
  exact ⟨h.ordered, fun r hr => (h.past r hr).trans hc, h.queue.later hcut, h.subqueue,
    h.table.later hcut, h.subtable⟩

theorem pruneOld_tracks (h : Tracks cfg history clock s) (hc : clock ≤ now) :
    Tracks cfg history now (pruneOld cfg s now) ∧
      (pruneOld cfg s now).records = window cfg history now := by
  have hcut : clock - cfg.windowMs ≤ now - cfg.windowMs := by omega
  have hl := h.later hc
  have hq := h.queue.expire hcut
  have hsub : ∀ r ∈ expire SpendingRecord.timestamp (now - cfg.windowMs) s.records, r ∈ history :=
    fun r hr => h.subqueue r ((List.dropWhile_sublist _).subset hr)
  have hrec : (pruneOld cfg s now).records =
      expire SpendingRecord.timestamp (now - cfg.windowMs) s.records := by
    simp only [pruneOld]
    split <;> rfl
  refine ⟨?_, hrec.trans (h.queue.expire_eq hcut)⟩
  simp only [pruneOld]
  split
  · refine ⟨h.ordered, hl.past, hq, hsub, ?_, fun r hr => ?_⟩
    · rw [pruneSpendingRecords_eq]
      exact h.table.since hcut
    · exact h.subtable r (List.mem_of_mem_filter hr)
  · exact ⟨h.ordered, hl.past, hq, hsub, hl.table, h.subtable⟩

theorem total_tracks (h : Tracks cfg history clock s) (hc : clock ≤ now) :
    (total cfg s now).1 = sumAmounts (window cfg history now) ∧
      Tracks cfg history now (total cfg s now).2 := by
  obtain ⟨ht, hr⟩ := pruneOld_tracks h hc
  exact ⟨congrArg sumAmounts hr, ht⟩

theorem getWindowStatus_tracks (h : Tracks cfg history clock s) (hc : clock ≤ now) :
    (getWindowStatus cfg s now).1 = ⟨sumAmounts (window cfg history now),
      (window cfg history now).length, cfg.windowMs,
      (window cfg history now).head?.map SpendingRecord.timestamp⟩ ∧
      Tracks cfg history now (getWindowStatus cfg s now).2 := by
  obtain ⟨ht, hr⟩ := pruneOld_tracks h hc
  refine ⟨?_, ht⟩
  simp only [getWindowStatus, hr]

theorem restore_tracks (h : Tracks cfg history clock s) (hc : clock ≤ now) (hc' : now ≤ now') :
    Tracks cfg history now' (restore cfg s.db now now') := by
  have hcut : clock - cfg.windowMs ≤ now - cfg.windowMs := by omega
  have hl := h.later hc
  have hload : Tracks cfg history now ⟨loadSpendingRecords s.db (now - cfg.windowMs), s.db⟩ := by
    refine ⟨h.ordered, hl.past, ?_, fun r hr => ?_, hl.table, h.subtable⟩
    · rw [loadSpendingRecords_eq h.table.ordered]
      exact h.table.since hcut
    · rw [loadSpendingRecords_eq h.table.ordered] at hr
      exact h.subtable r (List.mem_of_mem_filter hr)
  simp only [restore]
  split
  · exact (total_tracks hload hc').2
  · exact hload.later hc'

theorem Tracks.concat (h : Tracks cfg history now s) (amount : Number) :
    Tracks cfg (history ++ [⟨amount, now⟩]) now
      ⟨s.records ++ [⟨amount, now⟩], saveSpendingRecord s.db ⟨amount, now⟩⟩ := by
  have hqueue : Mirrors SpendingRecord.timestamp (now - cfg.windowMs)
      (history ++ [⟨amount, now⟩]) (s.records ++ [⟨amount, now⟩]) :=
    h.queue.concat fun r hr => h.past r (h.subqueue r hr)
  have htable : Mirrors SpendingRecord.timestamp (now - cfg.windowMs)
      (history ++ [⟨amount, now⟩]) (s.db ++ [⟨amount, now⟩]) :=
    h.table.concat fun r hr => h.past r (h.subtable r hr)
  have hsub : ∀ {rs : List SpendingRecord}, (∀ r ∈ rs, r ∈ history) →
      ∀ r ∈ rs ++ [⟨amount, now⟩], r ∈ history ++ [⟨amount, now⟩] := by
    intro rs hrs
    refine List.forall_mem_append.mpr ⟨fun r hr => ?_, fun r hr => ?_⟩
    · exact List.mem_append_left _ (hrs r hr)
    · exact List.mem_append_right _ hr
  refine ⟨h.ordered.concat h.past, ?_, hqueue, hsub h.subqueue, htable, hsub h.subtable⟩
  exact List.forall_mem_append.mpr ⟨h.past, List.forall_mem_singleton.mpr le_rfl⟩

theorem record_of_nan {amountStr : String} (h : (parseFloat amountStr).isNaN = true) :
    record cfg s amountStr now now' = (.ok (), s) := by
  rw [record, recordIn, Arithmetic.parseFloat_exact, if_pos h]

/-- Whether or not it throws, `record` adds its amount to what has been recorded;
it throws when the window then exceeds the limit. -/
theorem record_tracks (h : Tracks cfg history clock s) (hc : clock ≤ now) (hc' : now ≤ now')
    {amountStr : String} (ha : (parseFloat amountStr).isNaN = false) :
    let history' := history ++ [⟨parseFloat amountStr, now⟩]
    let sum := sumAmounts (window cfg history' now')
    let limit := parseFloat cfg.spendingLimit
    (record cfg s amountStr now now').1 =
        (if !sum.isNaN && !limit.isNaN && limit.lt sum then .error ⟨sum, limit⟩ else .ok ()) ∧
      Tracks cfg history' now' (record cfg s amountStr now now').2 := by
  have hpushed := (pruneOld_tracks h hc).1.concat (parseFloat amountStr)
  obtain ⟨hsum, ht⟩ := total_tracks hpushed hc'
  change (totalIn cfg .exact _ now').1 = _ at hsum
  simp only [record, recordIn, Arithmetic.parseFloat_exact, ha, Bool.false_eq_true, if_false,
    hsum]
  split
  · exact ⟨rfl, ht⟩
  · exact ⟨rfl, ht⟩

end PayFi.Spending.Tracker
