import SpirvBindings.Json.Value

/-!
What can be read of a JSON text. A tree records a document in reading order up to the first place
where the text is malformed: members keep their order and their repetitions, and a container ends
either with its closing bracket or where the reading broke off. A well-formed token without a
value, such as a number too large for a double, has a leaf of its own, since it only matters where
its value is asked for. -/

namespace SpirvBindings.Json

/-- What stands at the beginning of a value. -/
inductive Found
  | null
  | bool (b : Bool)
  | number (n : Number)
  | string (s : String)
  | sequence
  | map
  deriving DecidableEq, Repr

mutual

inductive Tree
  | null
  | bool (b : Bool)
  | number (n : Number)
  | string (s : String)
  | valueless
  | array (items : Tree.Items)
  | object (members : Tree.Members)
  | broken

/-- The items of an array and how it ends. -/
inductive Tree.Items
  | closed
  | broken
  | cons (item : Tree) (rest : Tree.Items)

/-- The members of an object and how it ends. A key without text is `none`. -/
inductive Tree.Members
  | closed
  | broken
  | cons (key : Option String) (value : Tree) (rest : Tree.Members)

end

/-! ### Reading -/

def isBlank (c : Char) : Bool := c == ' ' || c == '\t' || c == '\n' || c == '\r'

def skipBlanks (cs : List Char) : List Char := cs.dropWhile isBlank

namespace Tree

/-- What stands in front of a tree, if a token with a value does. -/
def found? : Tree → Option Found
  | .null => some .null
  | .bool b => some (.bool b)
  | .number n => some (.number n)
  | .string s => some (.string s)
  | .array _ => some .sequence
  | .object _ => some .map
  | .valueless => none
  | .broken => none

/-- Reads a word or a number in front of a text. Reading breaks off if there is none. -/
def readScalar (cs : List Char) : Tree × Option (List Char) :=
  match cs with
  | 'n' :: 'u' :: 'l' :: 'l' :: rest => (.null, some rest)
  | 't' :: 'r' :: 'u' :: 'e' :: rest => (.bool true, some rest)
  | 'f' :: 'a' :: 'l' :: 's' :: 'e' :: rest => (.bool false, some rest)
  | '"' :: rest =>
    match StringLiteral.read? rest with
    | none => (.broken, none)
    | some (none, rest) => (.valueless, some rest)
    | some (some s, rest) => (.string s, some rest)
  | cs =>
    match NumberText.read? cs with
    | none => (.broken, none)
    | some (t, rest) =>
      match t.value? with
      | none => (.valueless, some rest)
      | some n => (.number n, some rest)

/-- Reads a key and its colon. -/
def readKey? (cs : List Char) : Option (Option String × Option (List Char)) :=
  match skipBlanks cs with
  | '"' :: rest =>
    (StringLiteral.read? rest).map fun (key, rest) =>
      match skipBlanks rest with
      | ':' :: rest => (key, some rest)
      | _ => (key, none)
  | _ => none

mutual

/-- Reads the value in front of a text, and gives what follows it unless reading broke off. The fuel
bounds the number of nested and successive values. -/
def readValue : Nat → List Char → Tree × Option (List Char)
  | 0, _ => (.broken, none)
  | fuel + 1, cs =>
    match skipBlanks cs with
    | '[' :: rest =>
      match skipBlanks rest with
      | ']' :: rest => (.array .closed, some rest)
      | rest =>
        let (items, rest) := readItem fuel rest
        (.array items, rest)
    | '\x7b' :: rest =>
      match skipBlanks rest with
      | '\x7d' :: rest => (.object .closed, some rest)
      | rest =>
        let (members, rest) := readMember fuel rest
        (.object members, rest)
    | cs => readScalar cs

/-- Reads an item of an array and all that follows it up to the closing bracket. -/
def readItem : Nat → List Char → Items × Option (List Char)
  | 0, _ => (.broken, none)
  | fuel + 1, cs =>
    match readValue fuel cs with
    | (item, none) => (.cons item .broken, none)
    | (item, some rest) =>
      match skipBlanks rest with
      | ']' :: rest => (.cons item .closed, some rest)
      | ',' :: rest =>
        let (items, rest) := readItem fuel rest
        (.cons item items, rest)
      | _ => (.cons item .broken, none)

/-- Reads a member of an object and all that follows it up to the closing brace. -/
def readMember : Nat → List Char → Members × Option (List Char)
  | 0, _ => (.broken, none)
  | fuel + 1, cs =>
    match readKey? cs with
    | none => (.broken, none)
    | some (key, none) => (.cons key .broken .broken, none)
    | some (key, some rest) =>
      match readValue fuel rest with
      | (value, none) => (.cons key value .broken, none)
      | (value, some rest) =>
        match skipBlanks rest with
        | '\x7d' :: rest => (.cons key value .closed, some rest)
        | ',' :: rest =>
          let (members, rest) := readMember fuel rest
          (.cons key value members, rest)
        | _ => (.cons key value .broken, none)

end

/-- Reads the value in front of a text, however deep it is: the limit to nesting counts only where a
value is made of what was read. -/
def read (cs : List Char) : Tree × Option (List Char) := readValue (2 * cs.length + 2) cs

/-! ### Whole trees -/

mutual

/-- Whether a tree was read to its end. -/
def isWhole : Tree → Bool
  | .array items => items.isWhole
  | .object members => members.isWhole
  | .broken => false
  | _ => true

def Items.isWhole : Items → Bool
  | .closed => true
  | .broken => false
  | .cons item rest => item.isWhole && rest.isWhole

def Members.isWhole : Members → Bool
  | .closed => true
  | .broken => false
  | .cons _ value rest => value.isWhole && rest.isWhole

end

mutual

/-- How many arrays and objects are inside each other. -/
def nesting : Tree → Nat
  | .array items => items.nesting + 1
  | .object members => members.nesting + 1
  | _ => 0

def Items.nesting : Items → Nat
  | .cons item rest => max item.nesting rest.nesting
  | _ => 0

def Members.nesting : Members → Nat
  | .cons _ value rest => max value.nesting rest.nesting
  | _ => 0

end

mutual

/-- The value of a tree that was read to its end and has no leaf without a value. Of the members
with one key the last one counts. -/
def toValue? : Tree → Option Value
  | .null => some .null
  | .bool b => some (.bool b)
  | .number n => some (.number n)
  | .string s => some (.string s)
  | .array items => items.toValues?.map .array
  | .object members => members.toMembers?.map .object
  | .valueless => none
  | .broken => none

def Items.toValues? : Items → Option (List Value)
  | .closed => some []
  | .broken => none
  | .cons item rest => do
    let v ← item.toValue?
    let vs ← rest.toValues?
    return v :: vs

def Members.toMembers? : Members → Option Value.Members
  | .closed => some []
  | .broken => none
  | .cons key value rest => do
    let k ← key
    let v ← value.toValue?
    let ms ← rest.toMembers?
    return ms.putNew k v

end

end Tree

end SpirvBindings.Json
