import SpirvBindings.Command.Run
import SpirvBindings.Loading

/-!
The command that writes a header. It takes the path of the header and, optionally, those of a
policy and a type map; options name the grammar and the table of builtin variables. When no grammar
is named, it is the one below the directory of the installation. The documents are loaded in the
order grammar, policy, type map, table. Nothing is written unless all of the header could be
made. -/

namespace SpirvBindings.Command.Generate

structure Arguments where
  output : String
  policy? : Option String
  typeMap? : Option String
  grammar : String
  builtins? : Option String
  verbose : Bool
  comments : Bool
  deriving DecidableEq, Repr

/-- Where the grammar is looked for when no path is given. -/
def standardGrammarPath (installation : String) : String :=
  installation ++ "/include/spirv/unified1/spirv.core.grammar.json"

def optionSpecs : List OptionSpec := [
  ⟨"grammar", none, true, false⟩, ⟨"enumerants", none, true, false⟩,
  ⟨"verbose", some 'v', false, false⟩, ⟨"comments", none, false, false⟩]

def Arguments.ofGiven (installation : String) (g : Given) : Arguments where
  output := g.positionals.headD ""
  policy? := g.positionals[1]?
  typeMap? := g.positionals[2]?
  grammar := (g.value? "grammar").getD (standardGrammarPath installation)
  builtins? := g.value? "enumerants"
  verbose := g.hasFlag "verbose"
  comments := g.hasFlag "comments"

def Arguments.ofList (installation : String) (args : List String) : Except Refusal Arguments :=
  Arguments.ofGiven installation <$> given optionSpecs 1 3 args

def helpLines : List String := [
  "Generate HLSL SPIR-V intrinsics from the SPIR-V grammar",
  "",
  "Usage: gen_intrinsics [OPTIONS] <OUTPUT> [FIELDS] [TYPE_MAP]",
  "",
  "Arguments:",
  "  <OUTPUT>    HLSL header to write",
  "  [FIELDS]    Whitelist and policy JSON (embedded default when omitted)",
  "  [TYPE_MAP]  Type mapping JSON (embedded default when omitted)",
  "",
  "Options:",
  "      --grammar <GRAMMAR>",
  "          SPIR-V core grammar (defaults to include/spirv/unified1/spirv.core.grammar.json in the workspace)",
  "      --enumerants <ENUMERANTS>",
  "          Builtin variable table JSON (embedded default when omitted)",
  "  -v, --verbose",
  "          Debug-level diagnostics",
  "      --comments",
  "          Comment each instruction group with its opname and opcode",
  "  -h, --help",
  "          Print help"]

/-! ### Loading -/

variable {m : Type → Type} [Monad m]

/-- Loads all documents. The first failure counts. -/
def loadSources (files : FileSystem m) (a : Arguments) : m (Except Failure Sources) :=
  ExceptT.run do
    let grammar ← ExceptT.mk (Grammar.documentKind.load files a.grammar)
    let policy ← ExceptT.mk (Policy.documentKind.loadOr files .standard a.policy?)
    let typeMap ← ExceptT.mk (TypeMap.documentKind.loadOr files .standard a.typeMap?)
    let builtins ← ExceptT.mk (BuiltinTable.documentKind.loadOr files .standard a.builtins?)
    return { grammar, policy, typeMap, builtins }

/-! ### The log -/

/-- The log line of an instruction. -/
def logLine? : Entry → Option LogLine
  | (_, .unlisted) => none
  | (i, .filtered) => some ⟨.debug, "filtered " ++ i.opname⟩
  | (i, .skipped reason) =>
    some ⟨.warn, "IGNORED: " ++ i.opname ++ " (" ++ reason.message ++ ")"⟩
  | (i, .declared []) => some ⟨.debug, "no compatible overloads for " ++ i.opname⟩
  | (i, .declared ds) =>
    some ⟨.debug, "emitting " ++ i.opname ++ " (" ++ toString ds.length ++ " declarations)"⟩

/-- The lines that are shown: those for debugging only on request. -/
def shown (verbose : Bool) (lines : List LogLine) : List LogLine :=
  lines.filter fun l => verbose || l.level != .debug

/-- The last line of a run that wrote its header. -/
def summary (r : Report) : LogLine :=
  ⟨.info, toString r.emitted.length ++ " instructions, " ++ toString r.declarations ++
    " declarations, " ++ toString r.skipped.length ++ " skipped"⟩

/-! ### The command -/

/-- Writes the header that is made from the sources. -/
def write (files : FileSystem m) (a : Arguments) (s : Sources) : m Run := do
  let log := shown a.verbose (s.progress.entries.filterMap logLine?)
  match s.generate a.comments with
  | .error failure => return ⟨log, .failed ⟨[], .expansion failure⟩⟩
  | .ok header =>
    match ← writeOutput files a.output header.text with
    | .error failure => return ⟨log, .failed failure⟩
    | .ok () => return ⟨log ++ [summary header.report], .saved a.output⟩

def run (files : FileSystem m) (installation : String) (args : List String) : m Run := do
  match Arguments.ofList installation args with
  | .error refusal => return .ofRefusal (Header.linesText helpLines) refusal
  | .ok a =>
    match ← loadSources files a with
    | .error failure => return ⟨[], .failed failure⟩
    | .ok s => write files a s

end SpirvBindings.Command.Generate
