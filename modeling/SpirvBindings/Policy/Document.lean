import SpirvBindings.Policy.Basic
import SpirvBindings.Json.Decoder

/-!
Policy documents. No object of a policy document may have members that are not described here. A
document is decoded first and validated after that: its version is 1, no list of shapes is empty,
and no class, instruction or section is there twice. The first violation counts, classes before
instructions before sections. -/

namespace SpirvBindings

open Json (Decoder Field Record)

/-! ### Words -/

def Shape.decoder : Decoder Shape :=
  Decoder.variant [("default", .reference), ("ptr_template", .pointerTemplate), ("bda", .physical)]

def TypeClass.decoder : Decoder TypeClass :=
  Decoder.variant [("integer", .integer), ("signed", .signed), ("unsigned", .unsigned),
    ("float", .float)]

def SectionKind.decoder : Decoder SectionKind :=
  Decoder.variant (SectionKind.all.map fun s => (s.operandKind, s))

namespace Policy

/-! ### Documents -/

structure ClassDocument where
  className : String
  shapes? : Option (List Shape)
  onlyListed : Bool
  typeClass? : Option TypeClass
  deriving DecidableEq, Repr

structure InstructionDocument where
  opname : String
  rule : InstructionRule
  deriving DecidableEq, Repr

structure Document where
  version : Nat
  excludedSuffixes : List String
  sections : List SectionKind
  classes : List ClassDocument
  instructions : List InstructionDocument
  deriving DecidableEq, Repr

def classRecord : Record ClassDocument where
  name := "ClassPolicyJson"
  isOpen := false
  blank := ⟨"", none, false, none⟩
  fields := [
    .required "class" Decoder.text fun x d => { d with className := x },
    .defaulted "shapes" Shape.decoder.list.orNull fun x d => { d with shapes? := x },
    .defaulted "only_listed" Decoder.flag fun x d => { d with onlyListed := x },
    .defaulted "type_class" TypeClass.decoder.orNull fun x d => { d with typeClass? := x }]

def instructionRecord : Record InstructionDocument where
  name := "InstructionPolicyJson"
  isOpen := false
  blank := ⟨"", none, none, none, []⟩
  fields := [
    .required "instruction" Decoder.text fun x d => { d with opname := x },
    .defaulted "shapes" Shape.decoder.list.orNull
      fun x d => { d with rule := { d.rule with shapes? := x } },
    .defaulted "result_type" Decoder.text.orNull
      fun x d => { d with rule := { d.rule with resultType? := x } },
    .defaulted "operand_type" Decoder.text.orNull
      fun x d => { d with rule := { d.rule with operandType? := x } },
    .defaulted "conditions" Decoder.text.list
      fun x d => { d with rule := { d.rule with conditions := x } }]

def documentRecord : Record Document where
  name := "PolicyJson"
  isOpen := false
  blank := ⟨0, [], [], [], []⟩
  fields := [
    .required "version" Decoder.word fun x d => { d with version := x },
    .defaulted "exclude_suffixes" Decoder.text.list
      fun x d => { d with excludedSuffixes := x },
    .defaulted "enumerants" SectionKind.decoder.list fun x d => { d with sections := x },
    .defaulted "classes" classRecord.decode.list fun x d => { d with classes := x },
    .defaulted "instructions" instructionRecord.decode.list
      fun x d => { d with instructions := x }]

/-! ### Validation -/

inductive Fault
  | unsupportedVersion (version : Nat)
  | emptyClassShapes (className : String)
  | emptyInstructionShapes (opname : String)
  | repeatedClass (className : String)
  | repeatedInstruction (opname : String)
  | repeatedSection (kind : SectionKind)
  deriving DecidableEq, Repr

/-- The version of policy documents. -/
def supportedVersion : Nat := 1

def ClassDocument.rule (d : ClassDocument) : ClassRule :=
  ⟨d.shapes?.getD standardShapes, d.onlyListed, d.typeClass?⟩

/-- Validates class rules behind those that are already accepted. -/
def validateClasses (accepted : List (String × ClassRule)) :
    List ClassDocument → Except Fault (List (String × ClassRule))
  | [] => .ok accepted
  | d :: ds =>
    if d.shapes? = some [] then .error (.emptyClassShapes d.className)
    else if (accepted.lookup d.className).isSome then .error (.repeatedClass d.className)
    else validateClasses (accepted ++ [(d.className, d.rule)]) ds

/-- Validates instruction rules behind those that are already accepted. -/
def validateInstructions (accepted : List (String × InstructionRule)) :
    List InstructionDocument → Except Fault (List (String × InstructionRule))
  | [] => .ok accepted
  | d :: ds =>
    if d.rule.shapes? = some [] then .error (.emptyInstructionShapes d.opname)
    else if (accepted.lookup d.opname).isSome then .error (.repeatedInstruction d.opname)
    else validateInstructions (accepted ++ [(d.opname, d.rule)]) ds

/-- Validates sections behind those that are already accepted. -/
def validateSections (accepted : List SectionKind) :
    List SectionKind → Except Fault (List SectionKind)
  | [] => .ok accepted
  | s :: ss =>
    if accepted.contains s then .error (.repeatedSection s)
    else validateSections (accepted ++ [s]) ss

def Document.validate (d : Document) : Except Fault Policy := do
  if d.version ≠ supportedVersion then throw (.unsupportedVersion d.version)
  let classes ← validateClasses [] d.classes
  let instructions ← validateInstructions [] d.instructions
  let sections ← validateSections [] d.sections
  return ⟨d.excludedSuffixes, sections, classes, instructions⟩

/-! ### Messages -/

def Fault.message : Fault → String
  | .unsupportedVersion version =>
    "unsupported fields version " ++ toString version ++ " (expected " ++
      toString supportedVersion ++ ")"
  | .emptyClassShapes className => "class " ++ className ++ " has an empty shapes list"
  | .emptyInstructionShapes opname => "instruction " ++ opname ++ " has an empty shapes list"
  | .repeatedClass className => "duplicate class policy: " ++ className
  | .repeatedInstruction opname => "duplicate instruction policy: " ++ opname
  | .repeatedSection kind => "duplicate enumerant section: " ++ kind.operandKind

end Policy

end SpirvBindings
