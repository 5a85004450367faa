import SpirvBindings.Expansion.Rule
import SpirvBindings.Signature.Declaration
import SpirvBindings.TypeMap.Resolution

/-!
The parameter lists of an instruction. The operands are taken in order. Required ones come first,
and each further optional one makes a further, longer list. An optional memory access comes last:
its literals extend the longest list. Names that repeat are numbered. -/

namespace SpirvBindings.Expansion

/-! ### Fresh names -/

/-- The candidates for a name: the name itself, then the name followed by 2, by 3, and so on. -/
def numbered (name : String) : Nat → String
  | 0 => name
  | k + 1 => name ++ toString (k + 2)

/-- The first candidate that is not used. One more candidate than there are used names is enough. -/
def freshName (used : List String) (name : String) : String :=
  (((List.range (used.length + 1)).map (numbered name)).find? (! used.contains ·)).getD name

/-! ### Spellings -/

def literalMark : String := "vk::ext_literal"

def referenceMark : String := "vk::ext_reference"

/-- The type parameter that stands for a pointer type. -/
def pointerTemplate : String := "P"

/-- The condition on the type parameter of a pointer. -/
def pointerCondition : String := "is_spirv_type_v<P>"

/-- The value parameter of an alignment. -/
def alignmentName : String := "alignment"

/-- The type of the literals of a memory access. -/
def literalType : String := "uint32_t"

def pointerType (shape : Shape) (pointee : String) : String :=
  match shape with
  | .reference => pointee
  | .pointerTemplate => pointerTemplate
  | .physical => "pointer_t<spv::StorageClassPhysicalStorageBuffer, " ++ pointee ++ ">"

def literal (name : String) : Parameter := .marked literalMark literalType name

/-- The lists that a memory access makes out of the longest one. An access through a physical
pointer is always aligned; any other may be left out, given, or given with its parameter. -/
def accessLists (shape : Shape) (base : List Parameter) : List (List Parameter) :=
  match shape with
  | .physical =>
    [base ++ [{ literal "__aligned" with default? := some "/*Aligned*/0x00000002" },
      { literal "__alignment" with default? := some alignmentName }]]
  | _ =>
    [base, base ++ [literal "memoryAccess"],
      base ++ [literal "memoryAccess", literal "memoryAccessParam"]]

/-! ### Drafts -/

/-- What the operands so far have made. -/
structure Draft where
  required : List Parameter
  optional : List Parameter
  /-- Whether an optional memory access was met. -/
  access : Bool
  used : List String
  /-- Whether the type parameter of a pointer was used. -/
  guarded : Bool
  /-- The names of several letters that a mapping calls generic. -/
  generics : List String
  deriving DecidableEq, Repr

/-- What all operands of one signature share. -/
structure Setting where
  shape : Shape
  operandType : String
  variant : Nat
  deriving DecidableEq, Repr

namespace Draft

def empty : Draft := ⟨[], [], false, [], false, []⟩

/-- Adds a parameter for an operand under a fresh name. -/
def add (d : Draft) (o : Operand) (name : String) (parameter : String → Parameter) : Draft :=
  let fresh := freshName d.used name
  let d := { d with used := d.used ++ [fresh] }
  if o.isOptional then { d with optional := d.optional ++ [parameter fresh] }
  else { d with required := d.required ++ [parameter fresh] }

/-- The reason against an operand that lies in its place: nothing follows an optional memory access,
and only optional operands follow an optional one. -/
def outOfPlace? (d : Draft) (o : Operand) : Option SkipReason :=
  if d.access || (! o.isOptional && ! d.optional.isEmpty) then
    some (.requiredAfterOptional o.kind)
  else none

/-- Notes a name of several letters that is generic. -/
def noteGeneric (d : Draft) (type : ResolvedType) : Draft :=
  if type.generic && 1 < type.name.utf8ByteSize && ! d.generics.contains type.name then
    { d with generics := d.generics ++ [type.name] }
  else d

/-- Adds the parameter of an operand with a mapped type. -/
def addMapped (d : Draft) (o : Operand) (type : ResolvedType) : Draft :=
  (d.noteGeneric type).add o (Naming.parameterName o.rawName) fun name =>
    ⟨type.attributes, type.isConst, type.name, name, none⟩

/-- Adds the parameter of a pointer operand. -/
def addPointer (d : Draft) (s : Setting) (o : Operand) : Draft :=
  let name := Naming.lowerFirst (Naming.strip o.rawName)
  let type := pointerType s.shape s.operandType
  match s.shape with
  | .reference => d.add o name (.marked referenceMark type)
  | .pointerTemplate => { d.add o name (.plain type) with guarded := true }
  | .physical => d.add o name (.plain type)

/-- Adds the parameter of an operand by its rule. -/
def addByRule (d : Draft) (defaultType : String) (s : Setting) (o : Operand) : Rule → Draft
  | .memoryAccess =>
    if o.isOptional then { d with access := true }
    else d.add o (Naming.parameterName o.rawName) (.marked literalMark defaultType)
  | .literal => d.add o (Naming.parameterName o.rawName) (.marked literalMark defaultType)
  | .defaultType => d.add o (Naming.parameterName o.rawName) (.plain defaultType)
  | .operandType => d.add o (Naming.parameterName o.rawName) (.plain s.operandType)
  | .bool => d.add o (Naming.parameterName o.rawName) (.plain "bool")
  | .scope => d.add o (Naming.scopeName o.rawName) (.plain defaultType)
  | .pointer => d.addPointer s o

end Draft

/-! ### Parameter sets -/

/-- Why the expansion of an instruction ends early: the instruction is left out, or the type map has
no type for a variant. -/
inductive Stop
  | skipped (reason : SkipReason)
  | outOfRange (e : VariantOutOfRange)
  deriving DecidableEq, Repr

/-- The parameter lists of a signature, from short to long, with what they ask for. -/
structure ParameterSet where
  lists : List (List Parameter)
  conditions : List String
  generics : List String
  deriving DecidableEq, Repr

/-- Takes in one operand. Its quantifier is looked at first, then its place, its mapping, its
rule. -/
def place (m : TypeMap) (i : Instruction) (s : Setting) (d : Draft) (o : Operand) :
    Except Stop Draft :=
  match unsupportedQuantifier? o with
  | some reason => .error (.skipped reason)
  | none =>
    match d.outOfPlace? o with
    | some reason => .error (.skipped reason)
    | none =>
      match m.resolveOperand i o s.variant with
      | .error e => .error (.outOfRange e)
      | .ok (some type) => .ok (d.addMapped o type)
      | .ok none =>
        match Rule.ofOperand o with
        | .error reason => .error (.skipped reason)
        | .ok rule => .ok (d.addByRule m.defaultType s o rule)

/-- The lists with the first, the first two, … of the optional parameters. -/
def Draft.lists (d : Draft) (shape : Shape) : List (List Parameter) :=
  let prefixed := (List.range (d.optional.length + 1)).map fun k => d.required ++ d.optional.take k
  if d.access then prefixed.dropLast ++ accessLists shape (d.required ++ d.optional)
  else prefixed

def Draft.conditions (d : Draft) : List String := if d.guarded then [pointerCondition] else []

/-- The parameter lists of an instruction. -/
def parameters (m : TypeMap) (i : Instruction) (s : Setting) : Except Stop ParameterSet := do
  let d ← i.arguments.foldlM (place m i s) .empty
  return ⟨d.lists s.shape, d.conditions, d.generics⟩

end SpirvBindings.Expansion
