/-!
Scalar types of the shading language: three kinds, three widths. A scalar of 16 or 64 bits needs a
capability of its own. A type class collects the kinds that one letter of an instruction mnemonic
stands for. A capability whose name carries a kind and a width admits the scalars of exactly that
kind and width. -/

namespace SpirvBindings

inductive Scalar.Kind
  | signed | unsigned | float
  deriving DecidableEq, Repr

inductive Scalar.Width
  | bits16 | bits32 | bits64
  deriving DecidableEq, Repr

structure Scalar where
  kind : Scalar.Kind
  width : Scalar.Width
  deriving DecidableEq, Repr

namespace Scalar

def Width.bits : Width → Nat
  | .bits16 => 16
  | .bits32 => 32
  | .bits64 => 64

/-- The name of a scalar type: its kind, its width in bits, then `_t`. -/
def name : Scalar → String
  | ⟨.signed, .bits16⟩ => "int16_t"
  | ⟨.signed, .bits32⟩ => "int32_t"
  | ⟨.signed, .bits64⟩ => "int64_t"
  | ⟨.unsigned, .bits16⟩ => "uint16_t"
  | ⟨.unsigned, .bits32⟩ => "uint32_t"
  | ⟨.unsigned, .bits64⟩ => "uint64_t"
  | ⟨.float, .bits16⟩ => "float16_t"
  | ⟨.float, .bits32⟩ => "float32_t"
  | ⟨.float, .bits64⟩ => "float64_t"

/-- The scalars of one kind, narrow to wide. -/
def ofKind (k : Kind) : List Scalar := [⟨k, .bits16⟩, ⟨k, .bits32⟩, ⟨k, .bits64⟩]

def all : List Scalar := [.signed, .unsigned, .float].flatMap ofKind

/-- The scalar type that a type text names. -/
def ofName? (text : String) : Option Scalar := all.find? (·.name == text)

def isInteger (s : Scalar) : Bool := s.kind != .float

def isFloat (s : Scalar) : Bool := s.kind == .float

/-- The capability a scalar needs beyond the base shader capability. -/
def capability? : Scalar → Option String
  | ⟨_, .bits32⟩ => none
  | ⟨.float, .bits16⟩ => some "Float16"
  | ⟨.float, .bits64⟩ => some "Float64"
  | ⟨_, .bits16⟩ => some "Int16"
  | ⟨_, .bits64⟩ => some "Int64"

/-- Reading back the name of a scalar gives the scalar. -/
theorem ofName?_name (s : Scalar) : ofName? s.name = some s := by
  obtain ⟨k, w⟩ := s
  cases k <;> cases w <;> decide

end Scalar

/-! ### Type classes -/

/-- The scalars that a letter of a mnemonic stands for. -/
inductive TypeClass
  | integer | signed | unsigned | float
  deriving DecidableEq, Repr

namespace TypeClass

/-- `I` is any integer, `S` a signed and `U` an unsigned one, `F` a float. -/
def ofLetter? : Char → Option TypeClass
  | 'I' => some .integer
  | 'S' => some .signed
  | 'U' => some .unsigned
  | 'F' => some .float
  | _ => none

def kinds : TypeClass → List Scalar.Kind
  | .integer => [.signed, .unsigned]
  | .signed => [.signed]
  | .unsigned => [.unsigned]
  | .float => [.float]

/-- The scalars of a class: signed before unsigned, narrow before wide. -/
def scalars (c : TypeClass) : List Scalar := c.kinds.flatMap Scalar.ofKind

end TypeClass

/-! ### Capabilities that name a width -/

namespace Capability

/-- Whether one text occurs in another as a contiguous part. -/
def occursIn (part : List Char) : List Char → Bool
  | [] => part.isEmpty
  | c :: cs => part.isPrefixOf (c :: cs) || occursIn part cs

/-- Whether `part` occurs in the name of a capability. -/
def mentions (capability part : String) : Bool := occursIn part.toList capability.toList

/-- What a width tag in a capability name asks for. -/
structure WidthTag where
  text : String
  isFloat : Bool
  width : Scalar.Width
  deriving DecidableEq, Repr

/-- The width tags, in the order in which they are looked for: floats first. -/
def widthTags : List WidthTag := [
  ⟨"Float16", true, .bits16⟩, ⟨"Float32", true, .bits32⟩, ⟨"Float64", true, .bits64⟩,
  ⟨"Int16", false, .bits16⟩, ⟨"Int64", false, .bits64⟩]

/-- The first width tag in the name of a capability. -/
def widthTag? (capability : String) : Option WidthTag :=
  widthTags.find? (mentions capability ·.text)

def WidthTag.admits (tag : WidthTag) (s : Scalar) : Bool :=
  s.isFloat == tag.isFloat && s.width == tag.width

/-- Whether a capability admits the type of a given name. A capability without a width tag admits
every text; one with a tag admits the scalars of that kind and width and nothing else. -/
def admits (capability typeName : String) : Bool :=
  match widthTag? capability with
  | none => true
  | some tag => (Scalar.ofName? typeName).any tag.admits

end Capability

end SpirvBindings
