import SpirvBindings.TypeMap.Basic

/-!
Resolution of the types of one instruction. The mapping of the instruction is asked first, then the
mapping of its class. The overload lists of the entries that are found say how many variants the
instruction has. -/

namespace SpirvBindings

/-- A type with what it needs in a signature. -/
structure ResolvedType where
  name : String
  generic : Bool
  isConst : Bool
  attributes : List String
  deriving DecidableEq, Repr

namespace ResolvedType

def concrete (name : String) : ResolvedType := ⟨name, false, false, []⟩

def ofGeneric (name : String) : ResolvedType := ⟨name, true, false, []⟩

/-- A type text on its own: a generic letter is generic, any other text is not. -/
def ofText (text : String) : ResolvedType :=
  if Identifier.isGenericLetter text then ofGeneric text else concrete text

end ResolvedType

/-- The resolved type of an entry at a variant. -/
def TypeEntry.resolve (e : TypeEntry) (variant : Nat) : Except VariantOutOfRange ResolvedType := do
  let name ← e.select variant
  return ⟨name, e.isGeneric name, e.isConst, e.attributes⟩

namespace TypeMap

/-- The mappings for an instruction, the more specific one first. -/
def layers (m : TypeMap) (i : Instruction) : List TypeMapping :=
  (m.instructionMapping? i.opname).toList ++ (m.classMapping? i.className).toList

def entryOfResult? (m : TypeMap) (i : Instruction) : Option TypeEntry :=
  (m.layers i).findSome? (·.result?)

def entryOfOperand? (m : TypeMap) (i : Instruction) (o : Operand) : Option TypeEntry :=
  (m.layers i).findSome? (·.find? o.kind o.name?)

/-- The type of the result, if it is mapped. -/
def resolveResult (m : TypeMap) (i : Instruction) (variant : Nat) :
    Except VariantOutOfRange (Option ResolvedType) :=
  match m.entryOfResult? i with
  | none => .ok none
  | some e => some <$> e.resolve variant

/-- The type of an operand, if it is mapped. -/
def resolveOperand (m : TypeMap) (i : Instruction) (o : Operand) (variant : Nat) :
    Except VariantOutOfRange (Option ResolvedType) :=
  match m.entryOfOperand? i o with
  | none => .ok none
  | some e => some <$> e.resolve variant

/-- The entries that an instruction is resolved with. -/
def entries (m : TypeMap) (i : Instruction) : List TypeEntry :=
  (m.entryOfResult? i).toList ++ i.arguments.filterMap (m.entryOfOperand? i)

/-- The number of variants of an instruction: the length of its longest overload list, and at least
one. -/
def variantCount (m : TypeMap) (i : Instruction) : Nat :=
  (m.entries i).foldl (fun n e => max n e.overloads.length) 1

end TypeMap

end SpirvBindings
