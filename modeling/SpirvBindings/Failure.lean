import SpirvBindings.Files.Basic
import SpirvBindings.Grammar.Hints
import SpirvBindings.Header.Generation
import SpirvBindings.Json.Fault
import SpirvBindings.Policy.Document
import SpirvBindings.TypeMap.Document

/-!
Failures of a whole run. A failure has a cause and the contexts in which it arose, the outermost one
first. Its message joins all of them; its headline is the outermost part alone. -/

namespace SpirvBindings

inductive Cause
  | file (fault : FileFault)
  | json (fault : Json.Fault)
  | typeMap (fault : TypeMap.Fault)
  | policy (fault : Policy.Fault)
  | builtins (fault : BuiltinTable.Fault)
  | hints (fault : Hints.Fault)
  | expansion (failure : ExpansionFailure)
  deriving DecidableEq, Repr

/-- The parts of the message of a cause, from outer to inner. A malformed text has none. -/
def Cause.links : Cause → List String
  | .file fault => [fault.message]
  | .json fault => fault.message?.toList
  | .typeMap fault => fault.links
  | .policy fault => [fault.message]
  | .builtins fault => [fault.message]
  | .hints fault => [fault.message]
  | .expansion failure => ["failed to expand " ++ failure.opname, failure.cause.message]

structure Failure where
  contexts : List String
  cause : Cause
  deriving DecidableEq, Repr

namespace Failure

def links (f : Failure) : List String := f.contexts ++ f.cause.links

def message (f : Failure) : String := String.intercalate ": " f.links

def headline (f : Failure) : String := f.links.headD ""

end Failure

end SpirvBindings
