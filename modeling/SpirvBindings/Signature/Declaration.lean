/-!
Function declarations and their text. A declaration binds one function signature to one opcode. Its
text has the template line, if there are template parameters, then a line for each capability and
each extension, the line of the opcode, and the signature. The result type is guarded by the
conditions when there are any. An empty line follows. -/

namespace SpirvBindings

/-! ### Parameters -/

structure Parameter where
  attributes : List String
  isConst : Bool
  type : String
  name : String
  default? : Option String
  deriving DecidableEq, Repr

namespace Parameter

/-- A parameter without attributes, qualifier and default. -/
def plain (type name : String) : Parameter := ⟨[], false, type, name, none⟩

/-- A parameter with one attribute. -/
def marked (mark type name : String) : Parameter := ⟨[mark], false, type, name, none⟩

/-- The attributes in double brackets, `const`, the type, the name, the default. -/
def render (p : Parameter) : String :=
  String.join (p.attributes.map fun a => "[[" ++ a ++ "]] ") ++
    (if p.isConst then "const " else "") ++ p.type ++ " " ++ p.name ++
    (match p.default? with
      | none => ""
      | some value => " = " ++ value)

/-- The texts of a parameter in which template parameters can occur. -/
def typeTexts (p : Parameter) : List String := p.type :: p.default?.toList

end Parameter

/-! ### Template parameters -/

/-- A template parameter that stands for a value of a fixed type. -/
structure ValueParameter where
  type : String
  name : String
  deriving DecidableEq, Repr

inductive TemplateParameter
  | typename (name : String)
  | value (parameter : ValueParameter)
  deriving DecidableEq, Repr

namespace TemplateParameter

def name : TemplateParameter → String
  | .typename n => n
  | .value p => p.name

def isTypename : TemplateParameter → Bool
  | .typename _ => true
  | .value _ => false

def render : TemplateParameter → String
  | .typename n => "typename " ++ n
  | .value p => p.type ++ " " ++ p.name

end TemplateParameter

/-! ### Declarations -/

structure Declaration where
  templates : List TemplateParameter
  capabilities : List String
  extensions : List String
  opname : String
  name : String
  conditions : List String
  result : String
  parameters : List Parameter
  deriving DecidableEq, Repr

namespace Declaration

def templateLine (d : Declaration) : String :=
  if d.templates.isEmpty then ""
  else "template<" ++ String.intercalate ", " (d.templates.map TemplateParameter.render) ++ ">\n"

def capabilityLine (capability : String) : String :=
  "[[vk::ext_capability(spv::Capability" ++ capability ++ ")]]\n"

def extensionLine (extension : String) : String :=
  "[[vk::ext_extension(\"" ++ extension ++ "\")]]\n"

def opcodeLine (opname : String) : String := "[[vk::ext_instruction(spv::" ++ opname ++ ")]]\n"

/-- The result type, inside the guard if there are conditions. -/
def guardedResult (d : Declaration) : String :=
  if d.conditions.isEmpty then d.result
  else "enable_if_t<" ++ String.intercalate " && " d.conditions ++ ", " ++ d.result ++ ">"

def render (d : Declaration) : String :=
  d.templateLine ++ String.join (d.capabilities.map capabilityLine) ++
    String.join (d.extensions.map extensionLine) ++ opcodeLine d.opname ++ d.guardedResult ++
    " " ++ d.name ++ "(" ++ String.intercalate ", " (d.parameters.map Parameter.render) ++ ");\n\n"

end Declaration

end SpirvBindings
