import SpirvBindings.Grammar.Basic
import SpirvBindings.Naming

/-!
How an operand without a mapped type becomes a parameter. The kind of the operand, and the stripped
name of a reference operand, decide on a rule; an operand without a rule is a reason to leave the
whole instruction out. -/

namespace SpirvBindings

/-- How the pointer operands of an instruction are spelled: as a reference, as a type parameter of
its own, or as a pointer into a physical storage buffer. -/
inductive Shape
  | reference | pointerTemplate | physical
  deriving DecidableEq, Repr

/-- Why an instruction cannot be expressed. -/
inductive SkipReason
  | unsupportedKind (kind : String)
  | unsupportedOperand (kind name : String)
  | unsupportedQuantifier (kind quantifier : String)
  | requiredAfterOptional (kind : String)
  deriving DecidableEq, Repr

def SkipReason.message : SkipReason → String
  | .unsupportedKind kind => "unsupported operand kind " ++ kind
  | .unsupportedOperand kind name => "unsupported operand " ++ kind ++ " '" ++ name ++ "'"
  | .unsupportedQuantifier kind quantifier =>
    "unsupported quantifier '" ++ quantifier ++ "' on " ++ kind
  | .requiredAfterOptional kind => "required operand " ++ kind ++ " follows an optional operand"

namespace Expansion

/-- What the parameter of an operand is made from. -/
inductive Rule
  | defaultType | operandType | pointer | bool | scope | literal | memoryAccess
  deriving DecidableEq, Repr

/-- The rule for a reference operand with a given stripped name. -/
def Rule.ofReference? : String → Option Rule
  | "Pointer" => some .pointer
  | "Value" | "Object" | "Comparator" | "Base" | "Insert" | "Operand" => some .operandType
  | "Offset" | "Count" | "Id" | "Index" | "Mask" | "Delta" | "ClusterSize" => some .defaultType
  | "Predicate" => some .bool
  | _ => none

/-- The stripped name of an operand, empty if it has none. -/
def strippedName (o : Operand) : String := (o.name?.map Naming.strip).getD ""

/-- The rule for an operand, or why there is none. -/
def Rule.ofOperand (o : Operand) : Except SkipReason Rule :=
  match o.kind with
  | "IdRef" =>
    match Rule.ofReference? (strippedName o) with
    | some rule => .ok rule
    | none => .error (.unsupportedOperand o.kind (strippedName o))
  | "IdScope" => .ok .scope
  | "IdMemorySemantics" => .ok .defaultType
  | "GroupOperation" => .ok .literal
  | "MemoryAccess" => .ok .memoryAccess
  | _ => .error (.unsupportedKind o.kind)

/-- The reason against an operand that lies in its quantifier. -/
def unsupportedQuantifier? (o : Operand) : Option SkipReason :=
  match o.quantifier? with
  | some .variadic => some (.unsupportedQuantifier o.kind "*")
  | some .unknown => some (.unsupportedQuantifier o.kind "unknown")
  | some .optional => none
  | none => none

end Expansion

end SpirvBindings
