import SpirvBindings.TypeMap.Basic
import SpirvBindings.Json.Decoder

/-!
Type map documents. A document is decoded first and validated after that: it needs a default type
that is no generic letter; each mapping needs its key, which no other mapping of the same layer has,
and a list of types that is not empty and has at most one entry for the result. The first violation
counts, the default before the classes and the classes before the instructions. -/

namespace SpirvBindings.TypeMap

open Json (Decoder Field Record)

/-- The two layers of a type map. -/
inductive Layer
  | byClass | byInstruction
  deriving DecidableEq, Repr

/-- What a mapping of the layer is keyed by. -/
def Layer.keyName : Layer → String
  | .byClass => "class"
  | .byInstruction => "instruction"

structure MappingDocument where
  key? : Option String
  types? : Option (List TypeEntry)
  deriving DecidableEq, Repr

structure Document where
  default? : Option String
  classMappings : List MappingDocument
  instructionMappings : List MappingDocument
  deriving DecidableEq, Repr

inductive Fault
  | noDefault
  | genericDefault (type : String)
  | noKey (layer : Layer)
  | noTypes (layer : Layer) (key : String)
  | emptyTypes (layer : Layer) (key : String)
  | severalResults (layer : Layer) (key : String)
  | repeatedKey (layer : Layer) (key : String)
  deriving DecidableEq, Repr

/-! ### Decoding -/

/-- The record of an entry, with its name as the document writes it. -/
def entryRecord : Record TypeEntry where
  name := "TypeEntryJson"
  isOpen := true
  blank := ⟨"", none, "", none, false, [], []⟩
  fields := [
    .required "kind" Decoder.text fun x e => { e with kind := x },
    .defaulted "name" Decoder.text.orNull fun x e => { e with name? := x },
    .required "type" Decoder.text fun x e => { e with type := x },
    .defaulted "overloads" Decoder.text.list fun x e => { e with overloads := x },
    .defaulted "const" Decoder.flag fun x e => { e with isConst := x },
    .defaulted "attributes" Decoder.text.list fun x e => { e with attributes := x },
    .defaulted "generic" Decoder.flag.orNull fun x e => { e with generic? := x }]

def mappingRecord (name : String) (layer : Layer) : Record MappingDocument where
  name := name
  isOpen := true
  blank := ⟨none, none⟩
  fields := [
    .nullable layer.keyName Decoder.text fun x m => { m with key? := x },
    .nullable "types" entryRecord.decode.list fun x m => { m with types? := x }]

def classRecord : Record MappingDocument := mappingRecord "ClassMappingJson" .byClass

def instructionRecord : Record MappingDocument :=
  mappingRecord "InstructionMappingJson" .byInstruction

def documentRecord : Record Document where
  name := "TypeMapJson"
  isOpen := true
  blank := ⟨none, [], []⟩
  fields := [
    .nullable "default" Decoder.text fun x d => { d with default? := x },
    .defaulted "classMappings" classRecord.decode.list
      fun x d => { d with classMappings := x },
    .defaulted "instructionMappings" instructionRecord.decode.list
      fun x d => { d with instructionMappings := x }]

/-! ### Validation -/

/-- The mapping of a list of entries. Their names are stripped here. -/
def MappingDocument.mapping (entries : List TypeEntry) : TypeMapping :=
  let stripped := entries.map fun e => { e with name? := e.name?.map Naming.strip }
  ⟨stripped.find? (·.isResult), stripped.filter (! ·.isResult)⟩

/-- The key and the mapping of one mapping document. -/
def MappingDocument.validate (layer : Layer) (d : MappingDocument) :
    Except Fault (String × TypeMapping) :=
  match d.key?, d.types? with
  | none, _ => .error (.noKey layer)
  | some key, none => .error (.noTypes layer key)
  | some key, some entries =>
    if entries.isEmpty then .error (.emptyTypes layer key)
    else if 1 < entries.countP (·.isResult) then .error (.severalResults layer key)
    else .ok (key, MappingDocument.mapping entries)

/-- Validates the mappings of a layer behind those that are already accepted. -/
def validateLayer (layer : Layer) (accepted : List (String × TypeMapping)) :
    List MappingDocument → Except Fault (List (String × TypeMapping))
  | [] => .ok accepted
  | d :: ds => do
    let (key, mapping) ← d.validate layer
    if (accepted.lookup key).isSome then throw (.repeatedKey layer key)
    validateLayer layer (accepted ++ [(key, mapping)]) ds

def Document.validate (d : Document) : Except Fault TypeMap :=
  match d.default? with
  | none => .error .noDefault
  | some type => do
    if Identifier.isGenericLetter type then throw (.genericDefault type)
    let classes ← validateLayer .byClass [] d.classMappings
    let instructions ← validateLayer .byInstruction [] d.instructionMappings
    return ⟨type, classes, instructions⟩

/-! ### Messages -/

/-- The message of a fault, from the mapping it is about to what is wrong there. -/
def Fault.links : Fault → List String
  | .noDefault => ["no 'default' field in type mapping, check type mapping json file"]
  | .genericDefault type =>
    ["default type '" ++ type ++ "' must not be generic, check type mapping json file"]
  | .noKey layer =>
    ["no '" ++ layer.keyName ++ "' field in " ++ layer.keyName ++
      " mapping, check type mapping json file"]
  | .noTypes layer key =>
    ["no 'types' field in " ++ layer.keyName ++ " mapping " ++ key ++
      ", check type mapping json file"]
  | .emptyTypes layer key =>
    [layer.keyName ++ " mapping " ++ key, "'types' field is empty, check type mapping json file"]
  | .severalResults layer key =>
    [layer.keyName ++ " mapping " ++ key, "more than one result type entry"]
  | .repeatedKey layer key =>
    ["redefinition of " ++ layer.keyName ++ " in " ++ layer.keyName ++ " mappings: " ++ key]

end SpirvBindings.TypeMap
