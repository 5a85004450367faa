import SpirvBindings.Scalar

/-!
Type letters in function names. A name such as `atomicIAdd` carries the class of its operands as an
upper-case letter that is followed by an upper-case and a lower-case letter. The scan goes over the
bytes from left to right and takes the first such letter that names a class. A triple whose letter
names no class is passed over as a whole. -/

namespace SpirvBindings

/-- A type letter of a name: the class it stands for and the number of bytes before it. -/
structure TypeLetter where
  typeClass : TypeClass
  position : Nat
  deriving DecidableEq, Repr

namespace TypeLetter

/-- Whether three neighbouring bytes read as a letter in front of a capitalised word. -/
def opensWord (a b c : UInt8) : Bool :=
  (Char.ofUInt8 a).isUpper && (Char.ofUInt8 b).isUpper && (Char.ofUInt8 c).isLower

/-- The first type letter of the bytes from position `pos` on. -/
def scan (pos : Nat) : List UInt8 → Option TypeLetter
  | a :: b :: c :: rest =>
    if opensWord a b c then
      match TypeClass.ofLetter? (Char.ofUInt8 a) with
      | some cls => some ⟨cls, pos⟩
      | none => scan (pos + 3) rest
    else scan (pos + 1) (b :: c :: rest)
  | _ => none

/-- The type letter of a name, if it has one. -/
def find? (name : String) : Option TypeLetter := scan 0 name.toUTF8.data.toList

/-- The name without this type letter: what is before its byte and what is behind it. -/
def removeFrom (letter : TypeLetter) (name : String) : String :=
  String.Pos.Raw.extract name 0 ⟨letter.position⟩ ++
    String.Pos.Raw.extract name ⟨letter.position + 1⟩ name.rawEndPos

end TypeLetter

end SpirvBindings
