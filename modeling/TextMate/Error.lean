/-!
# Errors

A `Fault` is the cause of a failure. An `Error` is a fault, or an error together with the rule
and the field in which it arose. The class of an error is the class of its fault, whatever
surrounds it.
-/

set_option autoImplicit false

namespace TextMate

/-- What can go wrong while a grammar is built. -/
inductive Fault where
  /-- A highlight on something that cannot be a group. -/
  | untaggable (reason : String)
  /-- The upper bound of a repetition is below its lower bound. -/
  | invertedBounds (min max : Nat)
  /-- The repeated pattern has no text, which would leave a bare quantifier. -/
  | emptyRepetition
  /-- Several captures of one regex have the declared name. -/
  | ambiguousName (name : String)
  /-- A scope without text cannot be qualified. -/
  | emptyScope
  /-- No group of the regex has the declared name. -/
  | unresolvedCapture (name : String)
  /-- The scope name of a grammar is empty or has several segments. -/
  | badScopeName (grammar reason : String)
  /-- A writer of the finished grammar failed. -/
  | serialization (text : String)
  deriving DecidableEq, Repr

/-- The broad classes of faults. -/
inductive Fault.Kind where
  | authoring
  | captureResolution
  | grammarConfig
  | serialization
  deriving DecidableEq, Repr

def Fault.kind : Fault → Fault.Kind
  | .untaggable _ | .invertedBounds _ _ | .emptyRepetition | .ambiguousName _ | .emptyScope =>
    .authoring
  | .unresolvedCapture _ => .captureResolution
  | .badScopeName _ _ => .grammarConfig
  | .serialization _ => .serialization

def Fault.message : Fault → String
  | .untaggable reason => "cannot tag pattern: " ++ reason
  | .invertedBounds min max =>
    "invalid repetition bounds \x7b" ++ min.repr ++ "," ++ max.repr ++ "\x7d"
  | .emptyRepetition => "cannot repeat an empty pattern"
  | .ambiguousName name => "capture name '" ++ name ++ "' is bound to more than one group"
  | .emptyScope => "scope name is empty"
  | .unresolvedCapture name => "no capture group named '" ++ name ++ "'"
  | .badScopeName grammar reason =>
    "invalid scope name for grammar '" ++ grammar ++ "': " ++ reason
  | .serialization text => "JSON serialization error: " ++ text

/-- The texts of what caused a fault. Only the failure of a writer has a cause of its own. -/
def Fault.sources : Fault → List String
  | .serialization text => [text]
  | _ => []

/-- A fault with the rules around it, the outermost first. -/
inductive Error where
  | plain (fault : Fault)
  | inRule (path field : String) (cause : Error)
  deriving DecidableEq, Repr

namespace Error

/-- The class of the fault inside all rules. -/
def kind : Error → Fault.Kind
  | .plain fault => fault.kind
  | .inRule _ _ cause => cause.kind

def message : Error → String
  | .plain fault => fault.message
  | .inRule path field cause => "in " ++ path ++ " (" ++ field ++ "): " ++ cause.message

/-- The messages along the chain of causes, without the error itself. -/
def sources : Error → List String
  | .plain fault => fault.sources
  | .inRule _ _ cause => cause.message :: cause.sources

end Error

end TextMate
