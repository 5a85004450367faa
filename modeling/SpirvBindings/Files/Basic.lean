/-!
Access to text files. A file system is a pair of operations in some monad: reading a whole text file
and writing one. A fault says why an operation failed. -/

namespace SpirvBindings

inductive FileFault
  | notFound
  | notDirectory
  | isDirectory
  | nameTooLong
  /-- The path holds the character that ends a path in memory. -/
  | nulInPath
  /-- The bytes of the file are not the encoding of a text. -/
  | notText
  | other (message : String)
  deriving DecidableEq, Repr

def FileFault.message : FileFault → String
  | .notFound => "No such file or directory (os error 2)"
  | .notDirectory => "Not a directory (os error 20)"
  | .isDirectory => "Is a directory (os error 21)"
  | .nameTooLong => "File name too long (os error 36)"
  | .nulInPath => "file name contained an unexpected NUL byte"
  | .notText => "stream did not contain valid UTF-8"
  | .other message => message

/-- Whether a path can be handed to a system at all. -/
def checkPath (path : String) : Except FileFault Unit :=
  if path.toList.contains '\x00' then .error .nulInPath else .ok ()

/-- Reading and writing of whole text files by their paths. -/
structure FileSystem (m : Type → Type) where
  readText : String → m (Except FileFault String)
  writeText : String → String → m (Except FileFault Unit)

end SpirvBindings
