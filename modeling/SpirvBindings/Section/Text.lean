import SpirvBindings.Grammar.Basic
import SpirvBindings.Naming
import SpirvBindings.Section.Builtin
import SpirvBindings.Signature.Declaration

/-!
The texts of the enumerant sections: a namespace of builtin variables, one of functions that set
execution modes, and one of constants for group operations. Enumerants keep the order of the
grammar. -/

namespace SpirvBindings.Section

/-- A namespace with a comment line in front. -/
def opening (title name : String) : String :=
  "\n//! " ++ title ++ "\nnamespace " ++ name ++ "\n\x7b"

/-! ### Builtin variables -/

def builtinText (name : String) (b : Builtin) : String :=
  (match b.capability? with
    | none => ""
    | some capability => Declaration.capabilityLine capability) ++
  (if b.isOutput then
    "[[vk::ext_builtin_output(spv::BuiltIn" ++ name ++ ")]]\nstatic "
  else "[[vk::ext_builtin_input(spv::BuiltIn" ++ name ++ ")]]\nstatic const ") ++
  b.type ++ " " ++ name ++ ";\n\n"

/-- The builtin variables that the table lists. -/
def builtins (enumerants : List Enumerant) (table : BuiltinTable) : String :=
  opening "Builtins" "builtin" ++ "\n" ++
    String.join (enumerants.filterMap fun e => (table.builtin? e.name).map (builtinText e.name)) ++
    "\x7d\n"

/-! ### Execution modes -/

def executionModeText (name : String) : String :=
  "\n\tvoid " ++ Naming.escapeReserved (Naming.lowerFirst name) ++
    "()\n\t\x7b\n\t\tvk::ext_execution_mode(spv::ExecutionMode" ++ name ++ ");\n\t\x7d\n"

/-- The execution modes that are not excluded. -/
def executionModes (enumerants : List Enumerant) (isExcluded : String → Bool) : String :=
  opening "Execution Modes" "execution_mode" ++
    String.join ((enumerants.filter fun e => ! isExcluded e.name).map
      fun e => executionModeText e.name) ++
    "\x7d\n"

/-! ### Group operations -/

def groupOperationText (e : Enumerant) : String :=
  "\tstatic const uint32_t " ++ e.name ++ " = " ++ e.displayValue ++ ";\n"

def groupOperations (enumerants : List Enumerant) : String :=
  opening "Group Operations" "group_operation" ++ "\n" ++
    String.join (enumerants.map groupOperationText) ++ "\x7d\n"

end SpirvBindings.Section
