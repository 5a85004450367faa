import SpirvBindings.Expansion.Parameters
import SpirvBindings.Mnemonic
import SpirvBindings.Signature.Templates

/-!
The overloads of an instruction. For each variant of its types, each candidate for the element type
and each capability that it can be guarded by there is one declaration per parameter list, in this
order. A capability that does not admit the candidate gives none. An instruction of the kernel
capability alone is not meant for shaders at all. -/

namespace SpirvBindings

/-- What is asked of an expansion. -/
structure Request where
  shape : Shape
  resultType? : Option String
  operandType? : Option String
  typeClass? : Option TypeClass
  conditions : List String
  deriving DecidableEq, Repr

inductive Expansion
  | declarations (ds : List Declaration)
  | filtered
  | skipped (reason : SkipReason)
  deriving DecidableEq, Repr

namespace Expansion

/-- The type parameter that stands for an element type left open. -/
def elementTemplate : String := "T"

/-- The value parameter of a vector size. -/
def vectorSize : ValueParameter := ⟨"uint32_t", "N"⟩

def alignment : ValueParameter := ⟨"uint32_t", alignmentName⟩

/-! ### Alternatives and candidates -/

/-- The capabilities that overloads are guarded by, one at a time: those of the instruction other
than the base capability. An instruction without such a capability has the one alternative of no
guard. There are no alternatives for a kernel instruction. -/
def alternatives? (i : Instruction) : Option (List (Option String)) :=
  if i.capabilities = ["Kernel"] then none
  else
    match i.capabilities.filter (· != "Shader") with
    | [] => some [none]
    | capabilities => some (capabilities.map some)

/-- The function name of an instruction without its type letter. -/
def baseName (i : Instruction) : String :=
  let name := Naming.functionName i.opname
  match TypeLetter.find? name with
  | some letter => letter.removeFrom name
  | none => name

/-- The type class of an instruction: that of its type letter, or else the requested one. -/
def typeClass? (i : Instruction) (r : Request) : Option TypeClass :=
  ((TypeLetter.find? (Naming.functionName i.opname)).map (·.typeClass)).or r.typeClass?

/-- The element types of an instruction that has no explicit and no mapped result type. -/
def elementsOfClass : Option TypeClass → List ResolvedType
  | some c => c.scalars.map fun s => .concrete s.name
  | none => [.ofGeneric elementTemplate]

/-- The element types of a variant: the requested result type, or else the mapped one, or else those
of the type class. -/
def elements (m : TypeMap) (i : Instruction) (r : Request) (variant : Nat) :
    Except VariantOutOfRange (List ResolvedType) :=
  match r.resultType? with
  | some text => .ok [.ofText text]
  | none => do
    match ← m.resolveResult i variant with
    | some type => return [type]
    | none => return elementsOfClass (typeClass? i r)

/-! ### One guarded element -/

/-- An element type under a guard, with the value parameters that its spelling needs. -/
structure GuardedElement where
  type : ResolvedType
  values : List ValueParameter
  deriving DecidableEq, Repr

/-- The spelling of an element type under a guard, if the guard admits it. A generic type is
admitted only by capabilities without a width. A vector capability widens the element to a vector.
-/
def guardedElement? (element : ResolvedType) : Option String → Option GuardedElement
  | none => some ⟨element, []⟩
  | some capability =>
    if Capability.admits capability (if element.generic then "" else element.name) then
      if Capability.mentions capability "Vector" then
        let name := "vector<" ++ element.name ++ ", " ++ vectorSize.name ++ ">"
        some ⟨{ element with name := name }, [vectorSize]⟩
      else some ⟨element, []⟩
    else none

/-- What a wide integer asks for in an atomic instruction. -/
def atomicCapabilities (i : Instruction) (s : Scalar) : List String :=
  if i.className = "Atomic" ∧ s.isInteger ∧ s.width = .bits64 then ["Int64Atomics"] else []

/-- The capabilities that the use of a type asks for. A generic type asks for none. -/
def typeCapabilities (i : Instruction) (type : ResolvedType) : List String :=
  match if type.generic then none else Scalar.ofName? type.name with
  | none => []
  | some s => s.capability?.toList ++ atomicCapabilities i s

/-- Adds a capability that neither the instruction nor the list has. -/
def addCapability (i : Instruction) (capabilities : List String) (c : String) : List String :=
  if i.capabilities.contains c || capabilities.contains c then capabilities
  else capabilities ++ [c]

/-- The capabilities of a declaration: its guard, then what its types and its pointers ask for. -/
def declaredCapabilities (i : Instruction) (shape : Shape) (guard? : Option String)
    (types : List ResolvedType) : List String :=
  let needed := types.flatMap (typeCapabilities i) ++
    (if shape = .physical then ["PhysicalStorageBufferAddresses"] else [])
  needed.foldl (addCapability i) guard?.toList

/-- Adds the names of generic types that are not there yet. -/
def addGenerics (names : List String) (types : List ResolvedType) : List String :=
  types.foldl (fun names t =>
    if t.generic && ! names.contains t.name then names ++ [t.name] else names) names

/-- The value parameters of a signature: those of its element, and the alignment if a default
mentions it. -/
def valueParameters (element : GuardedElement) (ps : List Parameter) : List ValueParameter :=
  if ps.any (·.default? == some alignmentName) then element.values ++ [alignment]
  else element.values

/-- The template parameters of a signature, with the pointer type behind the other types. -/
def signatureTemplates (result : String) (ps : List Parameter) (generics : List String)
    (values : List ValueParameter) : List TemplateParameter :=
  Signature.moveBehindTypes pointerTemplate (Signature.templates result ps generics values)

/-- The name of an overload. It ends in the guard when there are several. -/
def overloadName (name : String) (several : Bool) : Option String → String
  | some capability => if several then name ++ "_" ++ capability else name
  | none => name

/-- The type of operands that follow the element: the requested one, or else the element itself. -/
def operandType (r : Request) (element : ResolvedType) : ResolvedType :=
  (r.operandType?.map .ofText).getD element

/-- The result type of a declaration. -/
def resultType (i : Instruction) (element : ResolvedType) : ResolvedType :=
  if i.hasResultType then element else .concrete "void"

/-- The declaration of an element type under a guard with one of the lists of its parameter set. -/
def declare (i : Instruction) (r : Request) (several : Bool) (element : ResolvedType)
    (guard? : Option String) (guarded : GuardedElement) (set : ParameterSet)
    (ps : List Parameter) : Declaration :=
  let operand := operandType r guarded.type
  let result := resultType i guarded.type
  let generics := addGenerics set.generics [result, operand]
  { templates := signatureTemplates result.name ps generics (valueParameters guarded ps)
    capabilities := declaredCapabilities i r.shape guard? [element, operand]
    extensions := i.extensions
    opname := i.opname
    name := overloadName (baseName i) several guard?
    conditions := r.conditions ++ set.conditions
    result := result.name
    parameters := ps }

/-- The declarations of one element type under one guard. -/
def overloads (m : TypeMap) (i : Instruction) (r : Request) (several : Bool) (variant : Nat)
    (element : ResolvedType) (guard? : Option String) : Except Stop (List Declaration) :=
  match guardedElement? element guard? with
  | none => .ok []
  | some guarded => do
    let set ← parameters m i ⟨r.shape, (operandType r guarded.type).name, variant⟩
    return set.lists.map (declare i r several element guard? guarded set)

/-! ### All overloads -/

/-- The results of all members of a list, in order. The first error counts. -/
def collect {ε α β : Type} (f : α → Except ε (List β)) : List α → Except ε (List β)
  | [] => .ok []
  | a :: as => do
    let bs ← f a
    let rest ← collect f as
    return bs ++ rest

/-- The declarations of one variant. -/
def variantOverloads (m : TypeMap) (i : Instruction) (r : Request) (guards : List (Option String))
    (variant : Nat) : Except Stop (List Declaration) := do
  let types ← (elements m i r variant).mapError .outOfRange
  collect (fun type => collect (overloads m i r (1 < guards.length) variant type) guards) types

end Expansion

/-- Expands an instruction into declarations for one request. -/
def Instruction.expand (i : Instruction) (r : Request) (m : TypeMap) :
    Except VariantOutOfRange Expansion :=
  match Expansion.alternatives? i with
  | none => .ok .filtered
  | some guards =>
    match Expansion.collect (Expansion.variantOverloads m i r guards)
        (List.range (m.variantCount i)) with
    | .ok ds => .ok (.declarations ds)
    | .error (.skipped reason) => .ok (.skipped reason)
    | .error (.outOfRange e) => .error e

end SpirvBindings
