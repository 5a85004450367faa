import SpirvBindings.Command.Annotate
import SpirvBindings.Command.Generate

/-!
The program. Its first argument names a command, the others are given to the command. The log and
the headline of a failure go to the standard error, the notice of success to the standard output.
-/

namespace SpirvBindings.Program

def faultOf : IO.Error → FileFault
  | .noFileOrDirectory .. => .notFound
  | .inappropriateType _ 20 _ => .notDirectory
  | .inappropriateType _ 21 _ => .isDirectory
  | .invalidArgument _ 36 _ => .nameTooLong
  | e => .other (toString e)

/-- Does something with a path that the system takes. -/
def guarded {α : Type} (path : String) (action : IO (Except FileFault α)) :
    IO (Except FileFault α) := do
  match checkPath path with
  | .error fault => return .error fault
  | .ok () =>
    try action catch e => return .error (faultOf e)

/-- The files of the system. -/
def systemFiles : FileSystem IO where
  readText path := guarded path do
    match String.fromUTF8? (← IO.FS.readBinFile path) with
    | some text => return .ok text
    | none => return .error .notText
  writeText path text := guarded path do
    IO.FS.writeFile path text
    return .ok ()

def usage : String :=
  "usage: generate OUTPUT [FIELDS [TYPE_MAP]] [--grammar PATH] [--enumerants PATH] [-v] " ++
    "[--comments]\n       annotate INPUT OUTPUT [--type TYPE]"

/-- The program is run from the directory of its installation. -/
def installation : String := "."

def run : List String → IO Command.Run
  | "generate" :: args => Command.Generate.run systemFiles installation args
  | "annotate" :: args => Command.Annotate.run systemFiles args
  | _ => return ⟨[], .misused⟩

end SpirvBindings.Program

def main (args : List String) : IO UInt32 := do
  let r ← SpirvBindings.Program.run args
  for line in r.log do
    IO.eprintln line.render
  match r.conclusion with
  | .failed failure => IO.eprintln ("Error: " ++ failure.message)
  | .misused => IO.eprintln SpirvBindings.Program.usage
  | .helped _ => IO.println SpirvBindings.Program.usage
  | .saved _ => IO.print r.output
  return r.exitStatus.toUInt32
