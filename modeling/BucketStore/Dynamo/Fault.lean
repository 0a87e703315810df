/-
  BucketStore/Dynamo/Fault.lean
  =============================
  **What the client of the service reports, and which kind of failure that is.**
-/
import BucketStore.Failure

namespace BucketStore.Dynamo

def conditionFailed : String := "ConditionalCheckFailedException"
def notFound : String := "ResourceNotFoundException"
def inUse : String := "ResourceInUseException"

def kindOfCode (code : Option String) : Kind :=
  match code with
  | none => .backend
  | some code =>
    if code = notFound then .notFound
    else if code = inUse then .alreadyExists
    else if code ∈ [conditionFailed, "TransactionConflictException"] then .conflict
    else if code ∈ ["ProvisionedThroughputExceededException", "ThrottlingException",
        "RequestLimitExceeded", "InternalServerError", "ServiceUnavailable",
        "LimitExceededException"] then .unavailable
    else if code ∈ ["ValidationException", "ItemCollectionSizeLimitExceededException"] then .invalid
    else if code ∈ ["AccessDeniedException", "UnrecognizedClientException",
        "InvalidSignatureException", "ExpiredTokenException", "MissingAuthenticationToken"] then
      .configuration
    else .backend

/-- A fault of the client or of the service behind it. -/
inductive Fault where
  /-- The request was not sent, or not answered. -/
  | dispatch
  | timeout
  | construction
  | response
  | service (code message : Option String)
deriving DecidableEq, Repr

namespace Fault

def text : Fault → String
  | dispatch => "dispatch failure"
  | timeout => "request has timed out"
  | construction => "failed to construct request"
  | response => "response error"
  | service _ _ => "service error"

def code? : Fault → Option String
  | service code _ => code
  | _ => none

def message? : Fault → Option String
  | service _ message => message
  | _ => none

def kind : Fault → Kind
  | dispatch | timeout | response => .unavailable
  | construction => .invalid
  | service code _ => kindOfCode code

def isConditionFailure (fault : Fault) : Bool := fault.code? == some conditionFailed

def failure (fault : Fault) : Failure :=
  let message := match fault.message? with
    | some detail => s!"DynamoDB Error: {fault.text} ({detail})"
    | none => s!"DynamoDB Error: {fault.text}"
  .foreign fault.kind message { text := fault.text }

/-- The fault as a failure of a request about a bucket's table. -/
def bucketFailure (bucket : Bytes) (fault : Fault) : Failure :=
  if fault.code? = some notFound then .bucketNotFound bucket else fault.failure

end Fault

end BucketStore.Dynamo
