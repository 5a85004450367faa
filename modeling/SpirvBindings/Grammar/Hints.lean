import SpirvBindings.Json.Value

/-!
Type hints in a grammar document. Every operand of an instruction that has a name or is the result
type gets a hint, and so does every enumerant of the first operand kind of builtin variables. All
else in the document stays as it is. A document without a list of instructions is refused. -/

namespace SpirvBindings.Hints

open Json (Value)

/-- The key of a hint. -/
def hintKey : String := "hlsl_type"

/-- A value with a hint, if it is an object. -/
def hinted (hint : String) : Value → Value
  | .object members => .object (Value.Members.put hintKey (.string hint) members)
  | v => v

def isObject : Value → Bool
  | .object _ => true
  | _ => false

/-! ### What gets a hint -/

/-- Whether an operand gets a hint: it is an object with a name or of the result type kind. -/
def takesHint : Value → Bool
  | .object members =>
    (Value.Members.get? members "name").isSome ||
      (Value.Members.get? members "kind").bind Value.string? == some "IdResultType"
  | _ => false

def isBuiltinKind (v : Value) : Bool := (v.member? "kind").bind Value.string? == some "BuiltIn"

/-! ### Changes inside a document -/

/-- Changes the list under a given key of an object. Anything else stays as it is. -/
def overList (key : String) (f : List Value → List Value) : Value → Value
  | .object members =>
    .object (Value.Members.modify key (fun v =>
      match v with
      | .array items => .array (f items)
      | v => v) members)
  | v => v

/-- The list under a given key of an object. -/
def list? (key : String) (v : Value) : Option (List Value) :=
  match v.member? key with
  | some (.array items) => some items
  | _ => none

/-- Changes the first item that satisfies a condition. -/
def modifyFirst (p : Value → Bool) (f : Value → Value) : List Value → List Value
  | [] => []
  | v :: vs => if p v then f v :: vs else v :: modifyFirst p f vs

def hintOperands (type : String) (operands : List Value) : List Value :=
  operands.map fun v => if takesHint v then hinted type v else v

def hintInstructions (type : String) : Value → Value :=
  overList "instructions" fun instructions =>
    instructions.map (overList "operands" (hintOperands type))

def hintBuiltins (type : String) : Value → Value :=
  overList "operand_kinds" (modifyFirst isBuiltinKind
    (overList "enumerants" (·.map (hinted ("static const " ++ type)))))

/-! ### Documents -/

/-- The operands of all instructions of a document. -/
def operands (v : Value) : List Value :=
  ((list? "instructions" v).getD []).flatMap fun i => (list? "operands" i).getD []

/-- The enumerants of the first operand kind of builtin variables. -/
def builtinEnumerants (v : Value) : List Value :=
  ((((list? "operand_kinds" v).getD []).find? isBuiltinKind).bind (list? "enumerants")).getD []

/-- The number of hints that a document takes. -/
def hintCount (v : Value) : Nat :=
  (operands v).countP takesHint + (builtinEnumerants v).countP isObject

structure Hinted where
  document : Value
  written : Nat

/-- The document has no list of instructions. -/
inductive Fault
  | noInstructions
  deriving DecidableEq, Repr

def Fault.message : Fault → String
  | .noInstructions => "grammar missing instructions array"

/-- The document with hints of a given type, and their number. -/
def add (type : String) (v : Value) : Except Fault Hinted :=
  match list? "instructions" v with
  | none => .error .noInstructions
  | some _ => .ok ⟨hintBuiltins type (hintInstructions type v), hintCount v⟩

end SpirvBindings.Hints
