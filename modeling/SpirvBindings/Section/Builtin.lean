import SpirvBindings.Json.Decoder

/-!
The table of builtin variables: their types, the capabilities they need, and whether they are
written to. No object of a table document may have members that are not described here. The
version of a document is 1, and no variable is there twice. -/

namespace SpirvBindings

open Json (Decoder Field Record)

structure Builtin where
  type : String
  capability? : Option String
  isOutput : Bool
  deriving DecidableEq, Repr

/-- The builtin variables by name. -/
structure BuiltinTable where
  builtins : List (String × Builtin)
  deriving DecidableEq, Repr

namespace BuiltinTable

def builtin? (t : BuiltinTable) (name : String) : Option Builtin := t.builtins.lookup name

/-- The table that is used when no other is given. -/
def standard : BuiltinTable where
  builtins := [
    ("HelperInvocation", ⟨"bool", none, false⟩),
    ("VertexIndex", ⟨"uint32_t", none, false⟩),
    ("InstanceIndex", ⟨"uint32_t", none, false⟩),
    ("NumWorkgroups", ⟨"uint32_t3", none, false⟩),
    ("WorkgroupId", ⟨"uint32_t3", none, false⟩),
    ("LocalInvocationId", ⟨"uint32_t3", none, false⟩),
    ("GlobalInvocationId", ⟨"uint32_t3", none, false⟩),
    ("LocalInvocationIndex", ⟨"uint32_t", none, false⟩),
    ("SubgroupEqMask", ⟨"uint32_t4", some "GroupNonUniformBallot", false⟩),
    ("SubgroupGeMask", ⟨"uint32_t4", some "GroupNonUniformBallot", false⟩),
    ("SubgroupGtMask", ⟨"uint32_t4", some "GroupNonUniformBallot", false⟩),
    ("SubgroupLeMask", ⟨"uint32_t4", some "GroupNonUniformBallot", false⟩),
    ("SubgroupLtMask", ⟨"uint32_t4", some "GroupNonUniformBallot", false⟩),
    ("SubgroupSize", ⟨"uint32_t", some "GroupNonUniform", false⟩),
    ("NumSubgroups", ⟨"uint32_t", some "GroupNonUniform", false⟩),
    ("SubgroupId", ⟨"uint32_t", some "GroupNonUniform", false⟩),
    ("SubgroupLocalInvocationId", ⟨"uint32_t", some "GroupNonUniform", false⟩),
    ("Position", ⟨"float32_t4", none, true⟩)]

/-! ### Documents -/

structure EntryDocument where
  name : String
  builtin : Builtin
  deriving DecidableEq, Repr

structure Document where
  version : Nat
  builtins : List EntryDocument
  deriving DecidableEq, Repr

def entryRecord : Record EntryDocument where
  name := "BuiltinJson"
  isOpen := false
  blank := ⟨"", "", none, false⟩
  fields := [
    .required "name" Decoder.text fun x d => { d with name := x },
    .required "type" Decoder.text
      fun x d => { d with builtin := { d.builtin with type := x } },
    .defaulted "capability" Decoder.text.orNull
      fun x d => { d with builtin := { d.builtin with capability? := x } },
    .defaulted "output" Decoder.flag
      fun x d => { d with builtin := { d.builtin with isOutput := x } }]

def documentRecord : Record Document where
  name := "EnumerantsJson"
  isOpen := false
  blank := ⟨0, []⟩
  fields := [
    .required "version" Decoder.word fun x d => { d with version := x },
    .defaulted "builtins" entryRecord.decode.list fun x d => { d with builtins := x }]

/-! ### Validation -/

inductive Fault
  | unsupportedVersion (version : Nat)
  | repeated (name : String)
  deriving DecidableEq, Repr

/-- Validates entries behind those that are already accepted. -/
def validateEntries (accepted : List (String × Builtin)) :
    List EntryDocument → Except Fault (List (String × Builtin))
  | [] => .ok accepted
  | d :: ds =>
    if (accepted.lookup d.name).isSome then .error (.repeated d.name)
    else validateEntries (accepted ++ [(d.name, d.builtin)]) ds

def Document.validate (d : Document) : Except Fault BuiltinTable := do
  if d.version ≠ 1 then throw (.unsupportedVersion d.version)
  let builtins ← validateEntries [] d.builtins
  return ⟨builtins⟩

def Fault.message : Fault → String
  | .unsupportedVersion version => "unsupported enumerants version " ++ toString version
  | .repeated name => "duplicate builtin: " ++ name

end BuiltinTable

end SpirvBindings
