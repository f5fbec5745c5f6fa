import TypeReach.Files.SystemError
import TypeReach.Index.Malformed

/-!
# Failures

A failure has a cause and, around it, the contexts in which it arose.  Some
causes are data for the analysis: a type that is not found rejects a unit and
nothing else.
-/

namespace TypeReach

open Files (SystemError)

/-- Why an operation failed. -/
inductive Cause where
  /-- A container of the classpath cannot be opened or read. -/
  | unavailable (path : String) (error : SystemError)
  /-- The artifact of a type is there and cannot be used. -/
  | corrupt (name reason : String)
  | notFound (name : String)
  | malformedIndex (malformed : Index.Malformed)
  | configuration (reason : String)
  | unreadable (error : SystemError)
  /-- A refusal of the file system outside of reading what is analysed. -/
  | system (error : SystemError)
  | other (reason : String)
  deriving DecidableEq, Repr

namespace Cause

/-- The message of a cause. -/
def message : Cause → String
  | unavailable path error =>
    "classpath container unavailable: " ++ path ++ ": " ++ error.message
  | corrupt name reason => "corrupt type descriptor for " ++ name ++ ": " ++ reason
  | notFound name => "type not found: " ++ name
  | malformedIndex malformed => malformed.message
  | configuration reason => "invalid configuration: " ++ reason
  | unreadable error => "io error: " ++ error.message
  | system error => error.message
  | other reason => reason

/-- The refusal behind a cause, which its message shows as well. -/
def behind? : Cause → Option SystemError
  | unavailable _ error => some error
  | unreadable error => some error
  | _ => none

end Cause

/-- A cause and its contexts, the outermost first. -/
structure Failure where
  contexts : List String
  cause : Cause
  deriving DecidableEq, Repr

namespace Failure

/-- A failure without a context. -/
def of (cause : Cause) : Failure := ⟨[], cause⟩

/-- The whole chain in one line. -/
def message (failure : Failure) : String :=
  ": ".intercalate
    (failure.contexts ++ failure.cause.message ::
      failure.cause.behind?.toList.flatMap SystemError.messages)

/-- Put a context around a failure. -/
def within (context : String) (failure : Failure) : Failure :=
  { failure with contexts := context :: failure.contexts }

end Failure

end TypeReach
