import SpirvBindings.Json.Number
import SpirvBindings.Json.StringLiteral

/-!
JSON values and their two printed forms. The members of an object are kept in the order of their
keys, each key once. The compact form has no blanks. The indented form puts every item and member on
a line of its own, two blanks deeper than the line of its container, and leaves empty containers on
one line. -/

namespace SpirvBindings.Json

inductive Value
  | null
  | bool (b : Bool)
  | number (n : Number)
  | string (s : String)
  | array (items : List Value)
  | object (members : List (String × Value))

namespace Value

/-! ### Members -/

/-- The members of an object by key. -/
abbrev Members := List (String × Value)

def Members.get? (members : Members) (key : String) : Option Value := members.lookup key

/-- Changes the content of the first member with a given key. -/
def Members.modify (key : String) (f : Value → Value) : Members → Members
  | [] => []
  | (k, v) :: rest => if k = key then (k, f v) :: rest else (k, v) :: modify key f rest

/-- Adds a member in front of the first one with a larger key. -/
def Members.insert (key : String) (value : Value) : Members → Members
  | [] => [(key, value)]
  | (k, v) :: rest =>
    if key < k then (key, value) :: (k, v) :: rest else (k, v) :: insert key value rest

/-- Sets the member with a given key. A new one goes to its place in the order of keys. -/
def Members.put (key : String) (value : Value) (members : Members) : Members :=
  if (members.get? key).isSome then members.modify key fun _ => value
  else members.insert key value

/-- Sets the member with a given key unless there is one. -/
def Members.putNew (key : String) (value : Value) (members : Members) : Members :=
  if (members.get? key).isSome then members else members.insert key value

/-- The member of an object with a given key. -/
def member? (key : String) : Value → Option Value
  | .object members => Members.get? members key
  | _ => none

def string? : Value → Option String
  | .string s => some s
  | _ => none

/-! ### The compact form -/

mutual

def compact : Value → List Char
  | .null => "null".toList
  | .bool b => if b then "true".toList else "false".toList
  | .number n => n.render
  | .string s => StringLiteral.render s
  | .array [] => ['[', ']']
  | .array (v :: vs) => '[' :: (v.compact ++ compactItems vs)
  | .object [] => ['\x7b', '\x7d']
  | .object ((k, v) :: ms) =>
    '\x7b' :: (StringLiteral.render k ++ ':' :: (v.compact ++ compactMembers ms))

/-- What follows an item of an array, up to the closing bracket. -/
def compactItems : List Value → List Char
  | [] => [']']
  | v :: vs => ',' :: (v.compact ++ compactItems vs)

/-- What follows a member of an object, up to the closing brace. -/
def compactMembers : List (String × Value) → List Char
  | [] => ['\x7d']
  | (k, v) :: ms => ',' :: (StringLiteral.render k ++ ':' :: (v.compact ++ compactMembers ms))

end

/-! ### The indented form -/

/-- A line break and the blanks of a given depth. -/
def newline (depth : Nat) : List Char := '\n' :: List.replicate (2 * depth) ' '

mutual

/-- The indented form of a value that starts on a line of a given depth. -/
def indented (depth : Nat) : Value → List Char
  | .null => "null".toList
  | .bool b => if b then "true".toList else "false".toList
  | .number n => n.render
  | .string s => StringLiteral.render s
  | .array [] => ['[', ']']
  | .array (v :: vs) =>
    '[' :: (newline (depth + 1) ++ (v.indented (depth + 1) ++ indentedItems depth vs))
  | .object [] => ['\x7b', '\x7d']
  | .object ((k, v) :: ms) =>
    '\x7b' :: (newline (depth + 1) ++ (StringLiteral.render k ++
      ':' :: ' ' :: (v.indented (depth + 1) ++ indentedMembers depth ms)))

/-- What follows an item of an array, up to the closing bracket on a line of its own. -/
def indentedItems (depth : Nat) : List Value → List Char
  | [] => newline depth ++ [']']
  | v :: vs =>
    ',' :: (newline (depth + 1) ++ (v.indented (depth + 1) ++ indentedItems depth vs))

/-- What follows a member of an object, up to the closing brace on a line of its own. -/
def indentedMembers (depth : Nat) : List (String × Value) → List Char
  | [] => newline depth ++ ['\x7d']
  | (k, v) :: ms =>
    ',' :: (newline (depth + 1) ++ (StringLiteral.render k ++
      ':' :: ' ' :: (v.indented (depth + 1) ++ indentedMembers depth ms)))

end

/-- The text of a value on one line. -/
def compactText (v : Value) : String := String.ofList v.compact

/-- The text of a value with indentation and without a line break at its end. -/
def indentedText (v : Value) : String := String.ofList (v.indented 0)

end Value

end SpirvBindings.Json
