import SpirvBindings.Json.Value

/-!
The instruction grammar: instructions with their operands, and operand kinds with their enumerants.
Only the parts that declarations and enumerant sections are made from are kept. The first entry
counts wherever two entries have one name. -/

namespace SpirvBindings

/-! ### Instructions -/

/-- How often an operand may occur, if not exactly once. -/
inductive Quantifier
  | optional | variadic | unknown
  deriving DecidableEq, Repr

structure Operand where
  kind : String
  name? : Option String
  quantifier? : Option Quantifier
  deriving DecidableEq, Repr

namespace Operand

/-- Result slots are the operands that stand for the result of an instruction. -/
def isResultKind (kind : String) : Bool := kind == "IdResult" || kind == "IdResultType"

def isResultSlot (o : Operand) : Bool := isResultKind o.kind

def isOptional (o : Operand) : Bool := o.quantifier? == some .optional

/-- The name of an operand as the grammar writes it, or its kind if it has none. -/
def rawName (o : Operand) : String := o.name?.getD o.kind

end Operand

structure Instruction where
  opname : String
  className : String
  opcode : Nat
  operands : List Operand
  capabilities : List String
  extensions : List String
  version? : Option String
  deriving DecidableEq, Repr

namespace Instruction

def hasResultType (i : Instruction) : Bool := i.operands.any (·.kind == "IdResultType")

/-- The operands that can become parameters. -/
def arguments (i : Instruction) : List Operand := i.operands.filter (! ·.isResultSlot)

end Instruction

/-! ### Operand kinds -/

structure Enumerant where
  name : String
  value : Json.Value
  capabilities : List String

/-- The value of an enumerant as the grammar writes it: a string verbatim, any other value in its
compact form. -/
def Enumerant.displayValue (e : Enumerant) : String :=
  match e.value with
  | .string s => s
  | v => v.compactText

structure OperandKind where
  category : String
  kind : String
  enumerants : List Enumerant

/-! ### Grammars -/

structure Grammar where
  majorVersion? : Option Nat
  minorVersion? : Option Nat
  revision? : Option Nat
  instructions : List Instruction
  operandKinds : List OperandKind

namespace Grammar

def instruction? (g : Grammar) (opname : String) : Option Instruction :=
  g.instructions.find? (·.opname == opname)

def operandKind? (g : Grammar) (kind : String) : Option OperandKind :=
  g.operandKinds.find? (·.kind == kind)

/-- The enumerants of an operand kind. A grammar that lacks the kind has none. -/
def enumerants (g : Grammar) (kind : String) : List Enumerant :=
  ((g.operandKind? kind).map (·.enumerants)).getD []

end Grammar

end SpirvBindings
