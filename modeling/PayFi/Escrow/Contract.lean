import Mathlib.Data.Finset.Basic
import PayFi.Library.Balances
import PayFi.Library.Integers
import PayFi.Library.Transaction

namespace PayFi.Escrow.Contract

open Library.Balances Library.Integers Library.Transaction

def minRotationDelay : UInt64 := 86400

/-- The contract's instance storage, one optional entry for each `DataKey`. -/
structure Storage (Address : Type) where
  depositor : Option Address := none
  recipient : Option Address := none
  arbiter : Option Address := none
  token : Option Address := none
  amount : Option I128 := none
  expiry : Option UInt64 := none
  released : Option Bool := none
  initializedAt : Option UInt64 := none
  pendingArbiter : Option Address := none
  pendingArbiterTime : Option UInt64 := none
  deriving DecidableEq

structure EscrowState (Address : Type) where
  depositor : Address
  recipient : Address
  arbiter : Address
  token : Address
  amount : I128
  expiry : UInt64
  released : Bool
  initializedAt : UInt64
  deriving DecidableEq

inductive EscrowError where
  | alreadyInitialized
  | alreadyReleased
  | notExpired
  | notArbiter
  | notDepositor
  | invalidAmount
  | invalidExpiry
  | notInitialized
  | invalidParties
  | rotationLocked
  | noPendingRotation
  deriving DecidableEq, Repr

/-- How a call fails: an error of the contract, an `expect`, a missing
authorisation, a refused token transfer or an arithmetic overflow. -/
inductive Panic where
  | contract (error : EscrowError)
  | expect (message : String)
  | unauthorized
  | transfer
  | overflow
  deriving DecidableEq, Repr

inductive Datum (Address : Type) where
  | address (a : Address)
  | i128 (n : I128)
  | u64 (n : UInt64)
  deriving DecidableEq

structure Event (Address : Type) where
  topics : List String
  data : List (Datum Address)
  deriving DecidableEq

structure Transfer (Address : Type) where
  token : Address
  source : Address
  destination : Address
  amount : I128
  deriving DecidableEq

/-- What the host keeps between calls. `balance token holder` is the state of the
token contracts; `transfers` and `events` record what the escrow has issued. -/
structure Ledger (Address : Type) where
  timestamp : UInt64
  storage : Storage Address
  balance : Address → Address → ℕ
  transfers : List (Transfer Address)
  events : List (Event Address)

/-- The environment of one call: the contract's own address and the addresses
whose authorisation the call carries. -/
structure Env (Address : Type) where
  contract : Address
  auths : Finset Address

abbrev Invocation (Address α : Type) := Atomic (Ledger Address) Panic α

variable {Address : Type} [DecidableEq Address]

def get {α : Type} (key : Storage Address → Option α) : Invocation Address (Option α) :=
  read fun s => key s.storage

def load {α : Type} (key : Storage Address → Option α) : Invocation Address α := do
  let value ← get key
  expect (.expect "escrow: state corrupted") value

def store (f : Storage Address → Storage Address) : Invocation Address Unit :=
  write fun s => { s with storage := f s.storage }

def timestamp : Invocation Address UInt64 := read Ledger.timestamp

def publish (topics : List String) (data : List (Datum Address)) : Invocation Address Unit :=
  write fun s => { s with events := s.events ++ [⟨topics, data⟩] }

def requireAuth (env : Env Address) (a : Address) : Invocation Address Unit :=
  panicIf (a ∉ env.auths) .unauthorized

def panicWithErrorIf (p : Prop) [Decidable p] (e : EscrowError) : Invocation Address Unit :=
  panicIf p (.contract e)

def Ledger.pay (s : Ledger Address) (token source destination : Address) (amount : I128) :
    Ledger Address :=
  { s with
    balance := Function.update s.balance token
      (move (s.balance token) source destination (amount : ℤ).toNat)
    transfers := s.transfers ++ [⟨token, source, destination, amount⟩] }

/-- A token transfer goes through exactly when the source's balance covers a
non-negative amount. -/
def transfer (token source destination : Address) (amount : I128) : Invocation Address Unit := do
  let balance ← read fun s => s.balance token source
  panicIf ((amount : ℤ) < 0 ∨ (balance : ℤ) < amount) .transfer
  write fun s => s.pay token source destination amount

def assertNotReleased : Invocation Address Unit := do
  let released ← get Storage.released
  panicWithErrorIf (released.getD false = true) .alreadyReleased

def initialise (env : Env Address) (depositor recipient arbiter token : Address) (amount : I128)
    (expiry : UInt64) : Invocation Address Unit := do
  let present ← get Storage.depositor
  panicWithErrorIf (present.isSome = true) .alreadyInitialized
  requireAuth env depositor
  panicWithErrorIf (depositor = arbiter) .invalidParties
  panicWithErrorIf (depositor = recipient) .invalidParties
  panicWithErrorIf (arbiter = recipient) .invalidParties
  panicWithErrorIf ((amount : ℤ) ≤ 0) .invalidAmount
  panicWithErrorIf ((I128.MAX : ℤ) / 2 < amount) .invalidAmount
  let now ← timestamp
  panicWithErrorIf (expiry ≤ now) .invalidExpiry
  transfer token depositor env.contract amount
  let now ← timestamp
  store fun st => { st with depositor := some depositor }
  store fun st => { st with recipient := some recipient }
  store fun st => { st with arbiter := some arbiter }
  store fun st => { st with token := some token }
  store fun st => { st with amount := some amount }
  store fun st => { st with expiry := some expiry }
  store fun st => { st with released := some false }
  store fun st => { st with initializedAt := some now }
  publish ["escrow", "initialized"] [.address depositor, .address recipient, .i128 amount]

def release (env : Env Address) (arbiter : Address) : Invocation Address Unit := do
  let storedArbiter ← load Storage.arbiter
  requireAuth env storedArbiter
  panicWithErrorIf (arbiter ≠ storedArbiter) .notArbiter
  assertNotReleased
  let token ← load Storage.token
  let amount ← load Storage.amount
  let recipient ← load Storage.recipient
  store fun st => { st with released := some true }
  transfer token env.contract recipient amount
  publish ["escrow", "released"] [.address recipient, .i128 amount]

def refund (env : Env Address) (depositor : Address) : Invocation Address Unit := do
  let storedDepositor ← load Storage.depositor
  requireAuth env storedDepositor
  panicWithErrorIf (depositor ≠ storedDepositor) .notDepositor
  assertNotReleased
  let expiry ← load Storage.expiry
  let now ← timestamp
  panicWithErrorIf (now < expiry) .notExpired
  let token ← load Storage.token
  let amount ← load Storage.amount
  store fun st => { st with released := some true }
  transfer token env.contract storedDepositor amount
  publish ["refunded"] [.address storedDepositor, .i128 amount]

def getState : Invocation Address (EscrowState Address) := do
  let present ← get Storage.depositor
  panicWithErrorIf (present.isSome = false) .notInitialized
  let depositor ← load Storage.depositor
  let recipient ← load Storage.recipient
  let arbiter ← load Storage.arbiter
  let token ← load Storage.token
  let amount ← load Storage.amount
  let expiry ← load Storage.expiry
  let released ← get Storage.released
  let initializedAt ← load Storage.initializedAt
  return ⟨depositor, recipient, arbiter, token, amount, expiry, released.getD false,
    initializedAt⟩

def releasePartial (env : Env Address) (arbiter : Address) (releaseAmount : I128) :
    Invocation Address Unit := do
  let storedArbiter ← load Storage.arbiter
  requireAuth env storedArbiter
  panicWithErrorIf (arbiter ≠ storedArbiter) .notArbiter
  assertNotReleased
  let storedAmount ← load Storage.amount
  panicWithErrorIf ((releaseAmount : ℤ) ≤ 0 ∨ (storedAmount : ℤ) < releaseAmount) .invalidAmount
  let token ← load Storage.token
  let recipient ← load Storage.recipient
  let remaining ← expect .overflow (storedAmount.checkedSub releaseAmount)
  store fun st => { st with amount := some remaining }
  transfer token env.contract recipient releaseAmount
  if (remaining : ℤ) = 0 then
    store fun st => { st with released := some true }
    publish ["released"] [.address recipient, .i128 releaseAmount]
  else
    publish ["partial_released"] [.address recipient, .i128 releaseAmount, .i128 remaining]

def cancel (env : Env Address) (depositor arbiter : Address) : Invocation Address Unit := do
  let storedDepositor ← load Storage.depositor
  let storedArbiter ← load Storage.arbiter
  requireAuth env storedDepositor
  requireAuth env storedArbiter
  panicWithErrorIf (depositor ≠ storedDepositor) .notDepositor
  panicWithErrorIf (arbiter ≠ storedArbiter) .notArbiter
  assertNotReleased
  let token ← load Storage.token
  let amount ← load Storage.amount
  store fun st => { st with released := some true }
  transfer token env.contract storedDepositor amount
  publish ["escrow", "cancelled"] [.address storedDepositor, .i128 amount]

def proposeNewArbiter (env : Env Address) (depositor newArbiter : Address) :
    Invocation Address Unit := do
  let storedDepositor ← load Storage.depositor
  requireAuth env storedDepositor
  panicWithErrorIf (depositor ≠ storedDepositor) .notDepositor
  let now ← timestamp
  store fun st => { st with pendingArbiter := some newArbiter }
  store fun st => { st with pendingArbiterTime := some now }
  publish ["arbiter_rotation_proposed"] [.address depositor, .address newArbiter, .u64 now]

def acceptArbiterRotation : Invocation Address Unit := do
  let present ← get Storage.pendingArbiter
  panicWithErrorIf (present.isSome = false) .noPendingRotation
  let pendingTime ← load Storage.pendingArbiterTime
  let now ← timestamp
  let lockExpires ← expect (.expect "escrow: rotation deadline overflow")
    (checkedAdd pendingTime minRotationDelay)
  panicWithErrorIf (now < lockExpires) .rotationLocked
  let newArbiter ← load Storage.pendingArbiter
  store fun st => { st with arbiter := some newArbiter }
  store fun st => { st with pendingArbiter := none }
  store fun st => { st with pendingArbiterTime := none }
  publish ["arbiter_rotation_accepted"] [.address newArbiter, .u64 now]

inductive Call (Address : Type) where
  | initialise (depositor recipient arbiter token : Address) (amount : I128) (expiry : UInt64)
  | release (arbiter : Address)
  | refund (depositor : Address)
  | getState
  | releasePartial (arbiter : Address) (releaseAmount : I128)
  | cancel (depositor arbiter : Address)
  | proposeNewArbiter (depositor newArbiter : Address)
  | acceptArbiterRotation
  deriving DecidableEq

/-- Dispatch of a top-level call; the value `getState` returns is dropped. -/
def invoke (env : Env Address) : Call Address → Invocation Address Unit
  | .initialise d r a t n e => initialise env d r a t n e
  | .release a => release env a
  | .refund d => refund env d
  | .getState => do
      let _ ← getState
  | .releasePartial a n => releasePartial env a n
  | .cancel d a => cancel env d a
  | .proposeNewArbiter d a => proposeNewArbiter env d a
  | .acceptArbiterRotation => acceptArbiterRotation

end PayFi.Escrow.Contract
