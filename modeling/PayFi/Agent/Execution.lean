import Mathlib.Data.List.Basic
import Mathlib.Tactic.Common

namespace PayFi.Agent.Execution

inductive TaskType where
  | stellarPayment
  | sorobanInvoke
  | sorobanQuery
  | x402Respond
  | accountInfo
  | changeTrust
  | multisigPayment
  | batchPayment
  | balanceCheck
  | pathPayment
  | feeBump
  | dexOffer
  | liquidityPool
  | stellarToml
  | dataEntry
  | sequenceNumber
  | sponsoredAccount
  | anchorQuote
  | inflation
  | sorobanDeploy
  | swap
  | accountHistory
  | unknown (name : String)
  deriving DecidableEq

structure AgentTask (Payload : Type) where
  type : TaskType
  payload : Payload

structure AgentResult (Data : Type) where
  success : Bool
  taskType : TaskType
  data : Option Data
  error : Option String
  errorType : Option String
  correlationId : String
  durationMs : Option ℕ
  deriving DecidableEq

/-- What an execution does for others to see. -/
inductive Event (Data : Type) where
  | tool (resolved : Bool)
  | taskComplete (result : AgentResult Data)
  | taskFailed (result : AgentResult Data)
  | retryExhausted (taskType : TaskType) (attempts : ℕ)
  | webhook (result : AgentResult Data)
  deriving DecidableEq

/-- What one pass through a try block and its catch block meets outside the orchestrator: the
guard and the tools, the database, the errors they throw, and the listeners of the agent, which
may throw, as may describing an error and sanitising the payload that is logged with it. -/
structure Environment (Payload Data Err : Type) where
  assertWithinSpendingLimit : Payload → Except Err Unit
  tool : TaskType → Payload → Except Err Data
  withNetwork : Data → Data
  saveResult : AgentResult Data → Except Err Unit
  newError : String → Err
  describeError : Err → String
  getErrorType : Err → String
  isStellarRPCError : Err → Bool
  maxRetries : ℕ
  durationMs : ℕ
  emit : Event Data → Except Err Unit
  describes : AgentTask Payload → Err → Except Err Unit
  timestamp : String

variable {Payload Data Err : Type}

def perform (env : Environment Payload Data Err) (task : AgentTask Payload) : Except Err Data :=
  match task.type with
  | .stellarPayment => do
    env.assertWithinSpendingLimit task.payload
    let paymentResult ← env.tool .stellarPayment task.payload
    return env.withNetwork paymentResult
  | .x402Respond => do
    env.assertWithinSpendingLimit task.payload
    env.tool .x402Respond task.payload
  | .unknown name => throw (env.newError ("Unknown task type: " ++ name))
  | type => env.tool type task.payload

def completed (correlationId : String) (task : AgentTask Payload) (data : Data) :
    AgentResult Data :=
  ⟨true, task.type, some data, none, none, correlationId, none⟩

def failure (env : Environment Payload Data Err) (correlationId : String)
    (task : AgentTask Payload) (err : Err) (durationMs : Option ℕ) : AgentResult Data :=
  ⟨false, task.type, none, some (env.describeError err), some (env.getErrorType err),
    correlationId, durationMs⟩

def Event.terminal : Event Data → Bool
  | .taskComplete _ => true
  | .taskFailed _ => true
  | _ => false

def Event.resolved : Event Data → Bool
  | .tool resolved => resolved
  | _ => false

end PayFi.Agent.Execution
