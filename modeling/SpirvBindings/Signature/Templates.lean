import SpirvBindings.Identifier
import SpirvBindings.Signature.Declaration

/-!
The template parameters that a signature needs. They are read off the identifier tokens of its
result type and of the types and defaults of its parameters: a token that names a given value
parameter becomes that parameter, a generic letter or a name known to be generic becomes a type
parameter, any other token is a name from elsewhere. -/

namespace SpirvBindings.Signature

/-- The texts of a signature in which template parameters can occur, in order. -/
def typeTexts (result : String) (parameters : List Parameter) : List String :=
  result :: parameters.flatMap Parameter.typeTexts

/-- The template parameter that a token stands for. A value parameter comes first. -/
def templateOf? (generics : List String) (values : List ValueParameter) (token : String) :
    Option TemplateParameter :=
  match values.find? (·.name == token) with
  | some p => some (.value p)
  | none =>
    if Identifier.isGenericLetter token || generics.contains token then some (.typename token)
    else none

/-- The template parameters of a signature, each once, in order of first appearance. -/
def templates (result : String) (parameters : List Parameter) (generics : List String)
    (values : List ValueParameter) : List TemplateParameter :=
  ((typeTexts result parameters).flatMap Identifier.tokens).eraseDups.filterMap
    (templateOf? generics values)

/-! ### The place of the pointer type -/

/-- Puts a parameter right behind the last type parameter, or in front if there is none. -/
def insertBehindTypes (p : TemplateParameter) : List TemplateParameter → List TemplateParameter
  | [] => [p]
  | t :: ts =>
    if (t :: ts).any TemplateParameter.isTypename then t :: insertBehindTypes p ts else p :: t :: ts

/-- Moves the type parameter of a given name, if it occurs, behind the other type parameters. -/
def moveBehindTypes (name : String) (ts : List TemplateParameter) : List TemplateParameter :=
  let p := TemplateParameter.typename name
  if ts.contains p then insertBehindTypes p (ts.erase p) else ts

end SpirvBindings.Signature
