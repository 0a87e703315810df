/-
  BucketStore/Dynamo/Config.lean
  ==============================
  **Where the service is, and how it is paid and asked.**
-/
import BucketStore.Staging.Config

namespace BucketStore.Dynamo

/-- How the capacity of a table is paid. -/
inductive Billing where
  | onDemand
  | provisioned (read write : Int)
deriving DecidableEq, Repr

/-- The settings of the driver. -/
structure Config where
  region : String
  credentials : Credentials
  consistency : Consistency
  endpointUrl : Option String
  billing : Billing
  staging : Staging.Config
deriving DecidableEq, Repr

def Billing.ofCapacities : Option Int → Option Int → Except Failure Billing
  | none, none => .ok .onDemand
  | some read, some write =>
    if 0 < read ∧ 0 < write then .ok (.provisioned read write)
    else .error (.stated .configuration "read_capacity and write_capacity must be positive")
  | _, _ => .error (.stated .configuration "read_capacity and write_capacity must be set together")

/-- The settings that the options ask for, in a trimmed region. -/
def Config.ofOptions (region : String) (o : Options) : Except Failure Config := do
  let region := Text.trim region
  if region.isEmpty then .error (.stated .configuration "dynamodb driver needs an AWS region")
  return {
    region
    credentials := o.credentials
    consistency := o.consistency
    endpointUrl := o.endpointUrl
    billing := ← Billing.ofCapacities o.readCapacity o.writeCapacity
    staging := .ofOptions o }

def Config.consistentRead (c : Config) : Bool := c.consistency == .strong

end BucketStore.Dynamo
