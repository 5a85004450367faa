import SpirvBindings.Grammar.Basic
import SpirvBindings.Naming

/-!
Type maps. A type map has a default type and two layers of mappings, one by opcode name and one by
instruction class. A mapping has at most one entry for the result and any number of entries for
operands. An entry that names no operand covers all operands of its kind; an entry for a name comes
before it. An entry may list one type for each overload variant of an instruction. -/

namespace SpirvBindings

/-- The types of an operand or a result. The name is a stripped one. -/
structure TypeEntry where
  kind : String
  name? : Option String
  type : String
  generic? : Option Bool
  isConst : Bool
  attributes : List String
  overloads : List String
  deriving DecidableEq, Repr

/-- An entry has fewer overloads than the variants that are asked for. -/
structure VariantOutOfRange where
  variant : Nat
  kind : String
  name? : Option String
  variants : Nat
  deriving DecidableEq, Repr

def VariantOutOfRange.message (e : VariantOutOfRange) : String :=
  "overload variant " ++ toString e.variant ++ " out of range for " ++ e.kind ++ " " ++
    e.name?.getD "<result>" ++ " (" ++ toString e.variants ++ " variants)"

namespace TypeEntry

def isResult (e : TypeEntry) : Bool := Operand.isResultKind e.kind

/-- The type of a variant. An entry without overloads has one type for all variants. -/
def select (e : TypeEntry) (variant : Nat) : Except VariantOutOfRange String :=
  if e.overloads.isEmpty then .ok e.type
  else
    match e.overloads[variant]? with
    | some type => .ok type
    | none => .error ⟨variant, e.kind, e.name?, e.overloads.length⟩

/-- Whether a type of the entry is generic: as the entry says, or else if it is a generic letter. -/
def isGeneric (e : TypeEntry) (type : String) : Bool :=
  e.generic?.getD (Identifier.isGenericLetter type)

end TypeEntry

/-! ### Mappings -/

structure TypeMapping where
  result? : Option TypeEntry
  parameters : List TypeEntry
  deriving DecidableEq, Repr

namespace TypeMapping

/-- The first entry for an operand of a given kind with a given stripped name. -/
def findNamed? (m : TypeMapping) (kind name : String) : Option TypeEntry :=
  m.parameters.find? fun e => e.kind == kind && e.name? == some name

/-- The first entry for all operands of a given kind. -/
def findForKind? (m : TypeMapping) (kind : String) : Option TypeEntry :=
  m.parameters.find? fun e => e.kind == kind && e.name?.isNone

/-- The entry for an operand: one for its name before one for its kind. -/
def find? (m : TypeMapping) (kind : String) (name? : Option String) : Option TypeEntry :=
  (name?.bind fun name => m.findNamed? kind (Naming.strip name)).or (m.findForKind? kind)

end TypeMapping

/-! ### Type maps -/

structure TypeMap where
  defaultType : String
  classes : List (String × TypeMapping)
  instructions : List (String × TypeMapping)
  deriving DecidableEq, Repr

namespace TypeMap

def classMapping? (m : TypeMap) (className : String) : Option TypeMapping :=
  m.classes.lookup className

def instructionMapping? (m : TypeMap) (opname : String) : Option TypeMapping :=
  m.instructions.lookup opname

/-- The type map that is used when no other is given. -/
def standard : TypeMap where
  defaultType := "uint32_t"
  classes := []
  instructions := [("OpBitcast", {
    result? := some ⟨"IdResultType", none, "T", none, false, [], []⟩
    parameters := [⟨"IdRef", some "Operand", "U", none, false, [], []⟩] })]

end TypeMap

end SpirvBindings
