/-!
Why a request failed. A fault has a kind for programs, a status for remote callers and a message for
people; only a dependency that is not ready yet makes the same request worth repeating.
-/

namespace FleetControl

inductive Fault where
  | illegalParameter (message : String) (field : Option String)
  | modelViolation (message : String)
  | dirtyData (message : String)
  | notExist (resource id : String)
  | alreadyExists (resource name : String)
  | dependentUnready (message : String)
  | storage (context : String)
  | config (message : String)
  | serialization (context : String)
  | internal (message : String)
  /-- The program stops: a record of its own cannot be read, or a number of its own has no successor. -/
  | halt (message : String)
  deriving DecidableEq, Repr

namespace Fault

def onField (message field : String) : Fault := .illegalParameter message (some field)

def kind : Fault → String
  | illegalParameter .. => "param_illegal"
  | modelViolation _ => "model_violation"
  | dirtyData _ => "dirty_data"
  | notExist .. => "record_not_exist"
  | alreadyExists .. => "record_existed"
  | dependentUnready _ => "dependent_unready"
  | storage _ => "storage_failure"
  | config _ => "config"
  | serialization _ => "serialization"
  | internal _ => "internal"
  | halt _ => "halt"

def status : Fault → Nat
  | illegalParameter .. => 400
  | modelViolation _ => 400
  | serialization _ => 400
  | notExist .. => 404
  | alreadyExists .. => 409
  | dependentUnready _ => 424
  | dirtyData _ => 500
  | storage _ => 500
  | config _ => 500
  | internal _ => 500
  | halt _ => 500

def retryable : Fault → Bool
  | dependentUnready _ => true
  | _ => false

def field : Fault → Option String
  | illegalParameter _ f => f
  | _ => none

def message : Fault → String
  | illegalParameter m _ => "Illegal parameter: " ++ m
  | modelViolation m => "Model violation: " ++ m
  | dirtyData m => "Dirty data: " ++ m
  | notExist resource id => resource ++ " '" ++ id ++ "' does not exist"
  | alreadyExists resource name => resource ++ " '" ++ name ++ "' already exists"
  | dependentUnready m => "Dependent not ready: " ++ m
  | storage context => "Storage error: " ++ context
  | config m => "Configuration error: " ++ m
  | serialization context => "Serialization error: " ++ context
  | internal m => "Internal error: " ++ m
  | halt m => m

end Fault
end FleetControl
