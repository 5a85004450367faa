import SpirvBindings.Expansion.Overload

/-!
Generation policies. A policy says which enumerant sections are written, which names are left out
by their endings, and which instructions are declared. An instruction that is listed is declared
as its rule says, with what the rule leaves open taken from the rule of its class. One that is not
listed is declared by the rule of its class, unless that covers listed instructions only. -/

namespace SpirvBindings

/-- The enumerant sections of a header, in the order in which they are written. -/
inductive SectionKind
  | builtIn | executionMode | groupOperation
  deriving DecidableEq, Repr

/-- The operand kind that holds the enumerants of a section. -/
def SectionKind.operandKind : SectionKind → String
  | .builtIn => "BuiltIn"
  | .executionMode => "ExecutionMode"
  | .groupOperation => "GroupOperation"

def SectionKind.all : List SectionKind := [.builtIn, .executionMode, .groupOperation]

/-! ### Rules -/

structure ClassRule where
  shapes : List Shape
  onlyListed : Bool
  typeClass? : Option TypeClass
  deriving DecidableEq, Repr

structure InstructionRule where
  shapes? : Option (List Shape)
  resultType? : Option String
  operandType? : Option String
  conditions : List String
  deriving DecidableEq, Repr

/-- How one instruction is declared: one request for each shape. -/
structure Strategy where
  shapes : List Shape
  resultType? : Option String
  operandType? : Option String
  typeClass? : Option TypeClass
  conditions : List String
  deriving DecidableEq, Repr

def Strategy.requests (s : Strategy) : List Request :=
  s.shapes.map fun shape => ⟨shape, s.resultType?, s.operandType?, s.typeClass?, s.conditions⟩

/-! ### Policies -/

structure Policy where
  excludedSuffixes : List String
  sections : List SectionKind
  classes : List (String × ClassRule)
  instructions : List (String × InstructionRule)
  deriving DecidableEq, Repr

namespace Policy

/-- The shapes of an instruction when nothing says otherwise. -/
def standardShapes : List Shape := [.reference]

def isExcluded (p : Policy) (name : String) : Bool :=
  p.excludedSuffixes.any fun suffix => suffix.toList.isSuffixOf name.toList

def emits (p : Policy) (s : SectionKind) : Bool := p.sections.contains s

def classRule? (p : Policy) (className : String) : Option ClassRule := p.classes.lookup className

def instructionRule? (p : Policy) (opname : String) : Option InstructionRule :=
  p.instructions.lookup opname

/-- The strategy for a listed instruction, given the rule of its class. -/
def listedStrategy (rule : InstructionRule) (byClass : Option ClassRule) : Strategy where
  shapes := (rule.shapes?.or (byClass.map (·.shapes))).getD standardShapes
  resultType? := rule.resultType?
  operandType? := rule.operandType?
  typeClass? := byClass.bind (·.typeClass?)
  conditions := rule.conditions

/-- The strategy for an instruction that is declared by the rule of its class. -/
def classStrategy (rule : ClassRule) : Strategy where
  shapes := rule.shapes
  resultType? := none
  operandType? := none
  typeClass? := rule.typeClass?
  conditions := []

/-- How an instruction is declared, if it is declared at all. -/
def strategy? (p : Policy) (i : Instruction) : Option Strategy :=
  if p.isExcluded i.opname then none
  else
    let byClass := p.classRule? i.className
    match p.instructionRule? i.opname with
    | some rule => some (listedStrategy rule byClass)
    | none => (byClass.filter (! ·.onlyListed)).map classStrategy

/-- A rule that leaves all but the result and operand types of an instruction open. -/
def typedRule (resultType? operandType? : Option String) : InstructionRule :=
  ⟨none, resultType?, operandType?, []⟩

/-- The policy that is used when no other is given. -/
def standard : Policy where
  excludedSuffixes := ["INTEL"]
  sections := [.builtIn, .executionMode, .groupOperation]
  classes := [
    ("Atomic", ⟨[.reference, .pointerTemplate, .physical], false, none⟩),
    ("Barrier", ⟨standardShapes, false, none⟩),
    ("Bit", ⟨standardShapes, false, some .integer⟩),
    ("Memory", ⟨standardShapes, true, none⟩),
    ("Reserved", ⟨standardShapes, true, none⟩),
    ("Non-Uniform", ⟨standardShapes, false, none⟩)]
  instructions := [
    ("OpLoad", ⟨some [.pointerTemplate, .physical], none, none, []⟩),
    ("OpStore", ⟨some [.pointerTemplate, .physical], none, none, []⟩),
    ("OpBitcast", ⟨none, none, none,
      ["sizeof(T) == sizeof(U)", "(is_spirv_type_v<T> || is_vector_v<T>)"]⟩),
    ("OpBeginInvocationInterlockEXT", typedRule none none),
    ("OpEndInvocationInterlockEXT", typedRule none none),
    ("OpGroupNonUniformElect", typedRule (some "bool") none),
    ("OpGroupNonUniformAll", typedRule (some "bool") (some "bool")),
    ("OpGroupNonUniformAny", typedRule (some "bool") (some "bool")),
    ("OpGroupNonUniformAllEqual", typedRule (some "bool") (some "T")),
    ("OpGroupNonUniformBallot", typedRule (some "uint32_t4") (some "bool")),
    ("OpGroupNonUniformInverseBallot", typedRule (some "bool") (some "uint32_t4")),
    ("OpGroupNonUniformBallotBitExtract", typedRule (some "bool") (some "uint32_t4")),
    ("OpGroupNonUniformBallotBitCount", typedRule (some "uint32_t") (some "uint32_t4")),
    ("OpGroupNonUniformBallotFindLSB", typedRule (some "uint32_t") (some "uint32_t4")),
    ("OpGroupNonUniformBallotFindMSB", typedRule (some "uint32_t") (some "uint32_t4")),
    ("OpGroupNonUniformLogicalAnd", typedRule (some "bool") none),
    ("OpGroupNonUniformLogicalOr", typedRule (some "bool") none),
    ("OpGroupNonUniformLogicalXor", typedRule (some "bool") none)]

end Policy

end SpirvBindings
