/-!
Command line arguments. Arguments are positional ones, options with a value, and flags. An option
has a long name, and may have a letter. Its value is the next argument, unless that starts with a
hyphen, or stands behind an equals sign. A cluster of letters holds several flags. Two hyphens
make all that follows positional. Nothing may be given twice, and a request for help is met where
it is reached. -/

namespace SpirvBindings.Command

/-- A flag or an option. -/
structure OptionSpec where
  name : String
  letter? : Option Char
  takesValue : Bool
  mayBeEmpty : Bool
  deriving DecidableEq, Repr

/-- Why there are no arguments to work with. -/
inductive Refusal
  | misused | helpAsked
  deriving DecidableEq, Repr

/-- What has been given. A flag has no value. -/
structure Given where
  positionals : List String
  options : List (String × Option String)
  deriving DecidableEq, Repr

namespace Given

def nothing : Given := ⟨[], []⟩

def hasFlag (g : Given) (name : String) : Bool := (g.options.lookup name).isSome

def value? (g : Given) (name : String) : Option String := (g.options.lookup name).join

/-- Adds a positional argument. It is a path, and not an empty one. -/
def addPositional (g : Given) (most : Nat) (arg : String) : Except Refusal Given :=
  if arg.isEmpty || most ≤ g.positionals.length then .error .misused
  else .ok { g with positionals := g.positionals ++ [arg] }

/-- Adds a flag or an option that has not been given yet. -/
def addOption (g : Given) (spec : OptionSpec) (value? : Option String) : Except Refusal Given :=
  if g.hasFlag spec.name then .error .misused
  else if value?.any (·.isEmpty) && ! spec.mayBeEmpty then .error .misused
  else .ok { g with options := g.options ++ [(spec.name, value?)] }

end Given

/-! ### The forms of an argument -/

inductive Form
  | endOfOptions
  | long (name : String) (value? : Option String)
  | letters (cs : List Char)
  | positional (text : String)
  deriving DecidableEq, Repr

/-- The form of an argument. A single hyphen is a positional one. -/
def Form.of (arg : String) : Form :=
  match arg.toList with
  | ['-', '-'] => .endOfOptions
  | '-' :: '-' :: cs =>
    match cs.dropWhile (· != '=') with
    | [] => .long (String.ofList cs) none
    | _ :: value => .long (String.ofList (cs.takeWhile (· != '='))) (some (String.ofList value))
  | '-' :: c :: cs => .letters (c :: cs)
  | _ => .positional arg

/-- Whether an argument can be the value of the option in front of it. -/
def isValue (arg : String) : Bool :=
  match Form.of arg with
  | .positional _ => true
  | _ => false

/-! ### Scanning -/

/-- Takes in a cluster of letters. -/
def scanLetters (specs : List OptionSpec) (g : Given) : List Char → Except Refusal Given
  | [] => .ok g
  | c :: cs =>
    if c = 'h' then .error .helpAsked
    else
      match specs.find? fun spec => spec.letter? == some c with
      | none => .error .misused
      | some spec => do scanLetters specs (← g.addOption spec none) cs

/-- Takes in arguments that are all positional. -/
def scanPositionals (most : Nat) (g : Given) (args : List String) : Except Refusal Given :=
  args.foldlM (·.addPositional most ·) g

/-- Takes in all arguments, with at most a given number of positional ones. The option that waits
for its value is known. -/
def scan (specs : List OptionSpec) (most : Nat) :
    Given → Option OptionSpec → List String → Except Refusal Given
  | g, none, [] => .ok g
  | _, some _, [] => .error .misused
  | g, some spec, arg :: args =>
    if isValue arg then do
      scan specs most (← g.addOption spec (some arg)) none args
    else .error .misused
  | g, none, arg :: args =>
    match Form.of arg with
    | .endOfOptions => scanPositionals most g args
    | .positional text => do scan specs most (← g.addPositional most text) none args
    | .letters cs => do scan specs most (← scanLetters specs g cs) none args
    | .long name value? =>
      if name = "help" ∧ value? = none then .error .helpAsked
      else
        match specs.find? (·.name == name), value? with
        | none, _ => .error .misused
        | some spec, some value =>
          if spec.takesValue then do
            scan specs most (← g.addOption spec (some value)) none args
          else .error .misused
        | some spec, none =>
          if spec.takesValue then scan specs most g (some spec) args
          else do scan specs most (← g.addOption spec none) none args

/-- What a command line gives, with between `least` and `most` positional arguments. -/
def given (specs : List OptionSpec) (least most : Nat) (args : List String) :
    Except Refusal Given := do
  let g ← scan specs most .nothing none args
  if g.positionals.length < least then throw .misused
  return g

end SpirvBindings.Command
