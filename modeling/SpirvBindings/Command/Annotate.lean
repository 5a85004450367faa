import SpirvBindings.Command.Run
import SpirvBindings.Loading

/-!
The command that adds type hints to a grammar file. It takes the paths of the file to read and of
the file to write, which may be the same, and optionally the type of the hints. -/

namespace SpirvBindings.Command.Annotate

structure Arguments where
  input : String
  output : String
  type : String
  deriving DecidableEq, Repr

/-- The type of the hints when none is given. -/
def standardType : String := "uint32_t"

def optionSpecs : List OptionSpec := [⟨"type", none, true, true⟩]

def Arguments.ofGiven (g : Given) : Arguments where
  input := g.positionals.headD ""
  output := g.positionals.getD 1 ""
  type := (g.value? "type").getD standardType

def Arguments.ofList (args : List String) : Except Refusal Arguments :=
  Arguments.ofGiven <$> given optionSpecs 2 2 args

def helpLines : List String := [
  "Add hlsl_type hints to a SPIR-V grammar file",
  "",
  "Usage: annotate_grammar [OPTIONS] <INPUT> <OUTPUT>",
  "",
  "Arguments:",
  "  <INPUT>   ",
  "  <OUTPUT>  ",
  "",
  "Options:",
  "      --type <DEFAULT_TYPE>  Type written into every annotated operand [default: uint32_t]",
  "  -h, --help                 Print help"]

/-- The text of a document with hints, and their number. -/
structure Result where
  text : String
  written : Nat
  deriving DecidableEq, Repr

def annotated (type : String) (document : Json.Value) : Except Failure Result :=
  match Hints.add type document with
  | .error fault => .error ⟨[], .hints fault⟩
  | .ok a => .ok ⟨a.document.indentedText, a.written⟩

variable {m : Type → Type} [Monad m]

def run (files : FileSystem m) (args : List String) : m Run := do
  match Arguments.ofList args with
  | .error refusal => return .ofRefusal (Header.linesText helpLines) refusal
  | .ok a =>
    match ← Json.Value.documentKind.load files a.input with
    | .error failure => return ⟨[], .failed failure⟩
    | .ok document =>
      match annotated a.type document with
      | .error failure => return ⟨[], .failed failure⟩
      | .ok result =>
        match ← writeOutput files a.output result.text with
        | .error failure => return ⟨[], .failed failure⟩
        | .ok () =>
          let line : LogLine := ⟨.info, "annotated " ++ toString result.written ++ " fields"⟩
          return ⟨[line], .saved a.output⟩

end SpirvBindings.Command.Annotate
