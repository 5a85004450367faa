import SpirvBindings.Grammar.Basic
import SpirvBindings.Json.Decoder

/-!
Grammar documents. All of their objects may have members that are not described here: these are
passed over. -/

namespace SpirvBindings

open Json (Decoder Field Record)

/-- A quantifier is `?` or `*`. Any other word is an unknown one. -/
def Quantifier.ofText : String → Quantifier
  | "?" => .optional
  | "*" => .variadic
  | _ => .unknown

def Quantifier.decoder : Decoder Quantifier := Decoder.choice fun text => .ok (ofText text)

def Operand.record : Record Operand where
  name := "Operand"
  isOpen := true
  blank := ⟨"", none, none⟩
  fields := [
    .required "kind" Decoder.text fun x o => { o with kind := x },
    .defaulted "name" Decoder.text.orNull fun x o => { o with name? := x },
    .defaulted "quantifier" Quantifier.decoder.orNull fun x o => { o with quantifier? := x }]

def Instruction.record : Record Instruction where
  name := "Instruction"
  isOpen := true
  blank := ⟨"", "", 0, [], [], [], none⟩
  fields := [
    .required "opname" Decoder.text fun x i => { i with opname := x },
    .defaulted "class" Decoder.text fun x i => { i with className := x },
    .required "opcode" Decoder.word fun x i => { i with opcode := x },
    .defaulted "operands" Operand.record.decode.list fun x i => { i with operands := x },
    .defaulted "capabilities" Decoder.text.list fun x i => { i with capabilities := x },
    .defaulted "extensions" Decoder.text.list fun x i => { i with extensions := x },
    .defaulted "version" Decoder.text.orNull fun x i => { i with version? := x }]

/-- How many arrays and objects are around what is in an enumerant: the grammar, the list of operand
kinds, the kind, its list of enumerants, and the enumerant. -/
def Enumerant.depth : Nat := 5

def Enumerant.record : Record Enumerant where
  name := "Enumerant"
  isOpen := true
  blank := ⟨"", .null, []⟩
  fields := [
    .required "enumerant" Decoder.text fun x e => { e with name := x },
    .required "value" (Decoder.value depth) fun x e => { e with value := x },
    .defaulted "capabilities" Decoder.text.list fun x e => { e with capabilities := x }]

def OperandKind.record : Record OperandKind where
  name := "OperandKind"
  isOpen := true
  blank := ⟨"", "", []⟩
  fields := [
    .defaulted "category" Decoder.text fun x k => { k with category := x },
    .required "kind" Decoder.text fun x k => { k with kind := x },
    .defaulted "enumerants" Enumerant.record.decode.list fun x k => { k with enumerants := x }]

def Grammar.record : Record Grammar where
  name := "Grammar"
  isOpen := true
  blank := ⟨none, none, none, [], []⟩
  fields := [
    .defaulted "major_version" Decoder.word.orNull fun x g => { g with majorVersion? := x },
    .defaulted "minor_version" Decoder.word.orNull fun x g => { g with minorVersion? := x },
    .defaulted "revision" Decoder.word.orNull fun x g => { g with revision? := x },
    .required "instructions" Instruction.record.decode.list
      fun x g => { g with instructions := x },
    .defaulted "operand_kinds" OperandKind.record.decode.list
      fun x g => { g with operandKinds := x }]

/-- The grammar that a text holds. -/
def Grammar.ofText (source : String) : Except Json.Fault Grammar :=
  Grammar.record.decode.document source

end SpirvBindings
