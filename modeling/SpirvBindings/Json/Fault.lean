import SpirvBindings.Character.Hidden
import SpirvBindings.Character.Joining
import SpirvBindings.Json.Tree

/-!
Why a JSON text cannot be read as a document of a given shape. A text is either malformed, or well
formed up to a place whose shape is wrong there. Each of the latter faults has a message. -/

namespace SpirvBindings.Json

inductive Fault
  | malformed
  | missingField (name : String)
  | duplicateField (name : String)
  | unknownField (name : String) (known : List String)
  | unknownVariant (name : String) (known : List String)
  | invalidType (found : Found) (expected : String)
  | outOfRange (n : Int) (expected : String)
  | invalidLength (length : Nat) (record : String) (fields : Nat)
  deriving DecidableEq, Repr

/-- The fault of a tree that is not of an expected shape. -/
def Tree.mismatch (t : Tree) (expected : String) : Fault :=
  match t.found? with
  | none => .malformed
  | some found => .invalidType found expected

/-! ### Messages -/

namespace Quoted

/-- Whether a character prints on its own: it is visible and does not join the one before it. -/
def isPrintable (c : Char) : Bool :=
  ! Character.hidden.contains c && ! Character.joining.contains c

/-- A character between quotation marks: quote and backslash get a backslash, and what does not
print is named by its escape or its code. -/
def escape (c : Char) : List Char :=
  if c = '"' then ['\\', '"']
  else if c = '\\' then ['\\', '\\']
  else if c = '\t' then ['\\', 't']
  else if c = '\r' then ['\\', 'r']
  else if c = '\n' then ['\\', 'n']
  else if c = '\x00' then ['\\', '0']
  else if isPrintable c then [c]
  else ['\\', 'u', '\x7b'] ++ Nat.toDigits 16 c.toNat ++ ['\x7d']

def render (text : String) : String :=
  String.ofList ('"' :: (text.toList.flatMap escape ++ ['"']))

end Quoted

/-- A word between grave accents. -/
def ticked (word : String) : String := "`" ++ word ++ "`"

def Found.describe : Found → String
  | .null => "null"
  | .bool b => "boolean " ++ ticked (if b then "true" else "false")
  | .number (.integer n) => "integer " ++ ticked (String.ofList (Number.integer n).render)
  | .number n => "floating point " ++ ticked (String.ofList n.render)
  | .string s => "string " ++ Quoted.render s
  | .sequence => "sequence"
  | .map => "map"

/-- The words that would have been accepted. -/
def alternatives : List String → String
  | [] => "nothing"
  | [a] => ticked a
  | [a, b] => ticked a ++ " or " ++ ticked b
  | names => "one of " ++ String.intercalate ", " (names.map ticked)

/-- The message of a fault. A malformed text has none. -/
def Fault.message? : Fault → Option String
  | .malformed => none
  | .missingField name => some ("missing field " ++ ticked name)
  | .duplicateField name => some ("duplicate field " ++ ticked name)
  | .unknownField name known =>
    some ("unknown field " ++ ticked name ++ ", expected " ++ alternatives known)
  | .unknownVariant name known =>
    some ("unknown variant " ++ ticked name ++ ", expected " ++ alternatives known)
  | .invalidType found expected =>
    some ("invalid type: " ++ found.describe ++ ", expected " ++ expected)
  | .outOfRange n expected =>
    some ("invalid value: " ++ (Found.number (.integer n)).describe ++ ", expected " ++ expected)
  | .invalidLength length record fields =>
    some ("invalid length " ++ toString length ++ ", expected " ++ record ++ " with " ++
      toString fields ++ " elements")

end SpirvBindings.Json
