import SpirvBindings.Identifier

/-!
Names taken from a grammar. Operand names are quoted, spaced and hyphenated there (`'Ray-Flags'`);
the stripped name keeps their identifier characters only, with a hyphen read as an underscore.
Parameter names start in lower case and avoid the reserved words of the shading language. Function
names are opcode names without their leading `Op`. -/

namespace SpirvBindings.Naming

/-! ### Stripped names -/

/-- The identifier character that a character of an operand name stands for, if any. -/
def strippedChar? (c : Char) : Option Char :=
  if c = '-' then some '_' else if Identifier.isChar c then some c else none

/-- An operand name without its quoting: `'Resident Code'` becomes `ResidentCode` and
`'Ray-Flags'` becomes `Ray_Flags`. -/
def strip (raw : String) : String := String.ofList (raw.toList.filterMap strippedChar?)

theorem toList_strip (raw : String) : (strip raw).toList = raw.toList.filterMap strippedChar? := by
  simp [strip]

theorem strip_append (a b : String) : strip (a ++ b) = strip a ++ strip b := by
  simp [← String.toList_inj, toList_strip]

/-! ### Letter case -/

/-- The text with its first character in lower case, if that is an ASCII letter. -/
def lowerFirst (text : String) : String := String.ofList (text.toList.modifyHead Char.toLower)

/-- The text with all of its ASCII letters in lower case. -/
def lower (text : String) : String := String.ofList (text.toList.map Char.toLower)

/-! ### Reserved words -/

/-- The words that cannot name a parameter. -/
def reservedWords : List String := [
  "asm", "bool", "break", "buffer", "case", "cbuffer", "centroid", "class", "column_major",
  "compile", "const", "continue", "default", "discard", "do", "double", "else", "enum",
  "export", "extern", "false", "float", "for", "groupshared", "half", "if", "in", "inline",
  "inout", "int", "interface", "line", "lineadj", "linear", "matrix", "namespace",
  "nointerpolation", "noperspective", "operator", "out", "packoffset", "point", "precise",
  "register", "return", "row_major", "sample", "sampler", "shared", "sizeof", "snorm",
  "static", "struct", "switch", "tbuffer", "template", "texture", "this", "triangle", "true",
  "typedef", "typename", "uint", "uniform", "unorm", "unsigned", "using", "vector", "void",
  "volatile", "while"]

def isReserved (name : String) : Bool := reservedWords.contains name

def startsWithDigit (name : String) : Bool := name.toList.head?.any Char.isDigit

/-- A name that is reserved or starts with a digit gets an underscore in front. -/
def escapeReserved (name : String) : String :=
  if isReserved name || startsWithDigit name then "_" ++ name else name

/-! ### Names of parameters and functions -/

/-- The parameter name of an operand name. -/
def parameterName (raw : String) : String := escapeReserved (lowerFirst (strip raw))

/-- The parameter name of a scope operand: its stripped name in lower case, then `Scope`. -/
def scopeName (raw : String) : String := escapeReserved (lower (strip raw) ++ "Scope")

/-- The characters of an opcode name after its leading `Op`. -/
def dropOp : List Char → List Char
  | 'O' :: 'p' :: rest => rest
  | cs => cs

/-- The function name of an opcode name: `OpAtomicIAdd` becomes `atomicIAdd`. -/
def functionName (opname : String) : String := lowerFirst (String.ofList (dropOp opname.toList))

end SpirvBindings.Naming
