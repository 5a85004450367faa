import SpirvBindings.Header.Frame
import SpirvBindings.Policy.Basic
import SpirvBindings.Section.Text

/-!
A whole header. Its text is the opening, the enumerant sections that the policy asks for, one
block of declarations for each emitted instruction in the order of the grammar, and the closing.
The report says what became of the instructions. The first instruction whose types run out of
variants ends the generation. -/

namespace SpirvBindings

/-- What a header is made from. -/
structure Sources where
  grammar : Grammar
  policy : Policy
  typeMap : TypeMap
  builtins : BuiltinTable

/-- What becomes of one instruction: the policy does not ask for it, or it is not meant for shaders,
or it cannot be expressed, or it has declarations, possibly none. -/
inductive Outcome
  | unlisted
  | filtered
  | skipped (reason : SkipReason)
  | declared (ds : List Declaration)
  deriving DecidableEq, Repr

/-- An instruction could not be expanded. -/
structure ExpansionFailure where
  opname : String
  cause : VariantOutOfRange
  deriving DecidableEq, Repr

/-- What became of the instructions, in the order of the grammar. -/
structure Report where
  emitted : List String
  declarations : Nat
  filtered : List String
  skipped : List (String × SkipReason)
  deriving DecidableEq, Repr

structure Header where
  text : String
  report : Report
  deriving DecidableEq, Repr

/-! ### Instructions -/

/-- The declarations of all requests, behind those that are already there. An instruction that is
left out for one request is left out altogether. -/
def Instruction.declareAll (i : Instruction) (m : TypeMap) (ds : List Declaration) :
    List Request → Except VariantOutOfRange Outcome
  | [] => .ok (.declared ds)
  | r :: rs =>
    match i.expand r m with
    | .error e => .error e
    | .ok .filtered => .ok .filtered
    | .ok (.skipped reason) => .ok (.skipped reason)
    | .ok (.declarations more) => i.declareAll m (ds ++ more) rs

def Instruction.outcome (i : Instruction) (p : Policy) (m : TypeMap) :
    Except VariantOutOfRange Outcome :=
  match p.strategy? i with
  | none => .ok .unlisted
  | some s => i.declareAll m [] s.requests

/-- The line in front of the declarations of an instruction. -/
def Instruction.comment (i : Instruction) : String :=
  "// " ++ i.opname ++ " (opcode " ++ toString i.opcode ++ ")\n"

namespace Outcome

/-- The declarations of an outcome. -/
def declarations : Outcome → List Declaration
  | .declared ds => ds
  | _ => []

/-- The text of an instruction with a given outcome, with its comment line if comments are on. -/
def block (comments : Bool) (i : Instruction) (o : Outcome) : String :=
  match o.declarations with
  | [] => ""
  | ds => (if comments then i.comment else "") ++ String.join (ds.map Declaration.render)

end Outcome

/-! ### Reports -/

/-- An instruction with its outcome. -/
abbrev Entry := Instruction × Outcome

/-- The report on a list of instructions with their outcomes. -/
def Report.ofEntries (entries : List Entry) : Report where
  emitted := (entries.filter (! ·.2.declarations.isEmpty)).map (·.1.opname)
  declarations := (entries.flatMap (·.2.declarations)).length
  filtered := (entries.filter (·.2 == .filtered)).map (·.1.opname)
  skipped := entries.filterMap fun (i, o) =>
    match o with
    | .skipped reason => some (i.opname, reason)
    | _ => none

/-! ### Generation -/

/-- The outcomes of the instructions up to the first one that could not be expanded. -/
structure Progress where
  entries : List Entry
  failure? : Option ExpansionFailure

namespace Sources

def outcomes (s : Sources) : List Instruction → Progress
  | [] => ⟨[], none⟩
  | i :: is =>
    match i.outcome s.policy s.typeMap with
    | .error e => ⟨[], some ⟨i.opname, e⟩⟩
    | .ok o =>
      let rest := s.outcomes is
      ⟨(i, o) :: rest.entries, rest.failure?⟩

def progress (s : Sources) : Progress := s.outcomes s.grammar.instructions

/-- The text of an enumerant section. -/
def sectionText (s : Sources) (kind : SectionKind) : String :=
  let enumerants := s.grammar.enumerants kind.operandKind
  match kind with
  | .builtIn => Section.builtins enumerants s.builtins
  | .executionMode => Section.executionModes enumerants s.policy.isExcluded
  | .groupOperation => Section.groupOperations enumerants

/-- The text of the enumerant sections that the policy asks for. -/
def sections (s : Sources) : String :=
  String.join ((SectionKind.all.filter s.policy.emits).map s.sectionText)

/-- The line in front of the declarations. -/
def marker : String := "\n//! Instructions\n"

/-- The text of a header, given the outcomes of its instructions. -/
def textOf (s : Sources) (comments : Bool) (entries : List Entry) : String :=
  Header.opening ++ s.sections ++ marker ++
    String.join (entries.map fun (i, o) => o.block comments i) ++ Header.closing

/-- The header of the sources, with or without comment lines. -/
def generate (s : Sources) (comments : Bool) : Except ExpansionFailure Header :=
  let progress := s.progress
  match progress.failure? with
  | some e => .error e
  | none => .ok ⟨s.textOf comments progress.entries, .ofEntries progress.entries⟩

end Sources

end SpirvBindings
