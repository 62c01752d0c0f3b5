import PubSub.Record.Flaw
import PubSub.StartPosition
import PubSub.Url.Basic

/-!
# Errors

What registries, publishers, subscribers and subscriptions can fail with, and the causes that a
handler gives for stopping. A cause is a root under any number of contexts.
-/

namespace PubSub

mutual

inductive Error where
  | invalidUrl (flaw : Url.Flaw)
  | unknownScheme (scheme : String)
  | config (text : String)
  | cancelled
  | unsupportedStart (start : StartPosition)
  | batch (index total : Nat) (source : Error)
  | system (error : SystemError)
  | codec (error : DecodeError)
  | handler (cause : Cause)
  | closed (what : String)
  | task (text : String)
  deriving DecidableEq, Repr

inductive Cause where
  | plain (text : String)
  /-- The marker of a handler that wants no more messages. -/
  | done
  | error (e : Error)
  | context (text : String) (cause : Cause)
  deriving DecidableEq, Repr

end

/-! ## Texts -/

mutual

def Error.message : Error → String
  | .invalidUrl flaw => "invalid URL: " ++ flaw.message
  | .unknownScheme scheme => "unknown URL scheme " ++ Quoted.quote scheme
  | .config text => "config error: " ++ text
  | .cancelled => "operation cancelled"
  | .unsupportedStart start =>
    "start position " ++ start.name ++ " is not supported by this implementation"
  | .batch index total source =>
    "publish " ++ toString index ++ " of " ++ toString total ++ ": " ++ source.message
  | .system error => "io error: " ++ error.message
  | .codec error => "codec error: " ++ error.message
  | .handler cause => "handler error: " ++ cause.message
  | .closed what => what ++ " is closed"
  | .task text => "subscription task failed: " ++ text

/-- The outermost text of a cause. -/
def Cause.message : Cause → String
  | .plain text => text
  | .done => "done"
  | .error e => e.message
  | .context text _ => text

end

/-- The texts of what an error came from, the nearest first. A handler's cause is not among them. -/
def Error.sources : Error → List String
  | .invalidUrl flaw => [flaw.message]
  | .system error => [error.message]
  | .codec error => [error.message]
  | .batch _ _ source => source.message :: source.sources
  | _ => []

/-- All texts of a cause, the outermost first. -/
def Cause.chain : Cause → List String
  | .plain text => [text]
  | .done => ["done"]
  | .error e => e.message :: e.sources
  | .context text cause => text :: cause.chain

def Cause.full (c : Cause) : String := ": ".intercalate c.chain

/-! ## Kinds -/

/-- Whether the error is a cancellation, alone or within batches. -/
def Error.isCancelled : Error → Bool
  | .cancelled => true
  | .batch _ _ source => source.isCancelled
  | _ => false

/-- The cause that a handler gave, for this error or the one it wraps. -/
def Error.handlerCause? : Error → Option Cause
  | .handler cause => some cause
  | .batch _ _ source => source.handlerCause?
  | _ => none

/-- Whether the root of the cause is the marker of a handler that is done. -/
def Cause.isDone : Cause → Bool
  | .done => true
  | .context _ cause => cause.isDone
  | .plain _ | .error _ => false

def Error.unknownStart (name : String) : Error :=
  .config ("unknown start position " ++ Quoted.quote name)

/-- The start position of a name. -/
def StartPosition.parse (text : String) : Except Error StartPosition :=
  (StartPosition.read text).mapError Error.unknownStart

end PubSub
