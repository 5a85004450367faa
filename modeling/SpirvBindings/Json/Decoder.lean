import SpirvBindings.Json.Fault

/-!
Decoding of JSON documents. A decoder takes what can be read of a text and gives a value of the
domain or the first fault in reading order. A record is described by its fields. It is written as
an object, in any order of the fields, or as an array of its fields in order. The description says
which fields may be left out of an object and which may be left off the end of an array, and
whether an object may have other members. -/

namespace SpirvBindings.Json

abbrev Decoder (α : Type) := Tree → Except Fault α

namespace Decoder

/-! ### Single values -/

def text : Decoder String
  | .string s => .ok s
  | t => .error (t.mismatch "a string")

def flag : Decoder Bool
  | .bool b => .ok b
  | t => .error (t.mismatch "a boolean")

/-- An unsigned integer of 32 bits. -/
def word : Decoder Nat
  | .number (.integer n) =>
    if 0 ≤ n ∧ n < Nat.pow 2 32 then .ok n.toNat else .error (.outOfRange n "u32")
  | t => .error (t.mismatch "u32")

/-- How many arrays and objects may be inside each other, down to the innermost one of a value. -/
def nestingLimit : Nat := 127

/-- Any value, as it stands, that is inside a given number of arrays and objects. If too many are
inside each other, the text counts as malformed. -/
def value (depth : Nat) : Decoder Value := fun t =>
  match t.toValue? with
  | some v => if depth + t.nesting ≤ nestingLimit then .ok v else .error .malformed
  | none => .error .malformed

/-- Any well-formed value, which is passed over. There is no limit to its nesting. -/
def skip : Decoder Unit := fun t => if t.isWhole then .ok () else .error .malformed

/-- The value of another decoder, or `null`. -/
def orNull {α : Type} (d : Decoder α) : Decoder (Option α)
  | .null => .ok none
  | t => some <$> d t

/-! ### Lists -/

def items {α : Type} (d : Decoder α) : Tree.Items → Except Fault (List α)
  | .closed => .ok []
  | .broken => .error .malformed
  | .cons item rest => do
    let a ← d item
    let as ← items d rest
    return a :: as

def list {α : Type} (d : Decoder α) : Decoder (List α)
  | .array is => items d is
  | t => .error (t.mismatch "a sequence")

/-! ### Choices -/

/-- A word out of a fixed set, also written as the only key of an object with the value `null`. -/
def choice {α : Type} (choose : String → Except Fault α) : Decoder α
  | .string s => choose s
  | .object (.cons (some key) content rest) => do
    let a ← choose key
    match content, rest with
    | .null, .closed => return a
    | .null, _ => throw .malformed
    | _, _ => throw (content.mismatch "unit")
  | _ => .error .malformed

/-- The choice among named variants. -/
def variant {α : Type} (table : List (String × α)) : Decoder α :=
  choice fun name =>
    match table.lookup name with
    | some a => .ok a
    | none => .error (.unknownVariant name (table.map (·.1)))

end Decoder

/-! ### Records -/

/-- A field of a record. Its content is decoded into the change that it makes to the record. -/
structure Field (α : Type) where
  name : String
  decode : Decoder (α → α)
  /-- Whether an object may lack the field. -/
  mayLack : Bool
  /-- Whether an array may end before the field. -/
  mayEnd : Bool

namespace Field

variable {α β : Type}

/-- A field that must be there. -/
def required (name : String) (d : Decoder β) (set : β → α → α) : Field α :=
  ⟨name, fun t => set <$> d t, false, false⟩

/-- A field that keeps its initial content when it is not there. -/
def defaulted (name : String) (d : Decoder β) (set : β → α → α) : Field α :=
  ⟨name, fun t => set <$> d t, true, true⟩

/-- A field that an object may lack, but an array may not. -/
def nullable (name : String) (d : Decoder β) (set : Option β → α → α) : Field α :=
  ⟨name, fun t => set <$> d.orNull t, true, false⟩

end Field

/-- The description of a record: its name, its fields in order, whether an object may hold members
other than these, and the initial content of the fields. -/
structure Record (α : Type) where
  name : String
  fields : List (Field α)
  isOpen : Bool
  blank : α

namespace Record

variable {α : Type}

def field? (r : Record α) (name : String) : Option (Field α) := r.fields.find? (·.name == name)

/-- The first field that an object must have and does not, given the names it has. -/
def missing? (r : Record α) (seen : List String) : Option String :=
  (r.fields.find? fun f => ! f.mayLack && ! seen.contains f.name).map (·.name)

def describe (r : Record α) : String := "struct " ++ r.name

/-- Decodes the members of an object, given the record and the field names so far. -/
def decodeMembers (r : Record α) : List String → α → Tree.Members → Except Fault α
  | seen, a, .closed =>
    match r.missing? seen with
    | some name => .error (.missingField name)
    | none => .ok a
  | _, _, .broken => .error .malformed
  | _, _, .cons none _ _ => .error .malformed
  | seen, a, .cons (some key) content rest =>
    match r.field? key with
    | none =>
      if r.isOpen then do
        Decoder.skip content
        decodeMembers r seen a rest
      else .error (.unknownField key (r.fields.map (·.name)))
    | some f =>
      if seen.contains key then .error (.duplicateField key)
      else do
        let change ← f.decode content
        decodeMembers r (key :: seen) (change a) rest

/-- What is left of the record when an array ends before some of its fields. -/
def endItems (r : Record α) (fields : List (Field α)) (a : α) : Except Fault α :=
  match fields.dropWhile (·.mayEnd) with
  | [] => .ok a
  | late => .error (.invalidLength (r.fields.length - late.length) r.describe r.fields.length)

/-- Decodes the items of an array, given the fields that are still to come. -/
def decodeItems (r : Record α) : List (Field α) → α → Tree.Items → Except Fault α
  | fields, a, .closed => r.endItems fields a
  | f :: fields, a, .cons item rest => do
    let change ← f.decode item
    decodeItems r fields (change a) rest
  | _, _, _ => .error .malformed

def decode (r : Record α) : Decoder α
  | .object members => r.decodeMembers [] r.blank members
  | .array is => r.decodeItems r.fields r.blank is
  | t => .error (t.mismatch r.describe)

end Record

/-! ### Documents -/

/-- Decodes a text that holds one value and blanks. -/
def Decoder.document {α : Type} (d : Decoder α) (source : String) : Except Fault α := do
  let (tree, rest) := Tree.read source.toList
  let a ← d tree
  match rest.map skipBlanks with
  | some [] => return a
  | _ => throw .malformed

end SpirvBindings.Json
