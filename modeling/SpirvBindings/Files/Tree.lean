import SpirvBindings.Files.Basic

/-!
File trees: directories and files by the names on the way from the root, and a working directory
that relative paths start from. Every name of a path but the last has to lead to a directory. Paths
and names are limited in length. An existing file is overwritten, a missing one is created if its
directory exists. -/

namespace SpirvBindings

inductive FileNode
  | file (bytes : ByteArray)
  | directory

/-- The names on the way from the root. -/
abbrev Location := List String

structure FileTree where
  nodes : List (Location × FileNode)
  workingDirectory : Location

namespace FileTree

/-! ### Nodes -/

/-- The node at a location. The root is a directory. -/
def node? (t : FileTree) : Location → Option FileNode
  | [] => some .directory
  | loc => t.nodes.lookup loc

/-- Puts a node in front of all others, so that it is the one at its location. -/
def setNode (t : FileTree) (loc : Location) (n : FileNode) : FileTree :=
  { t with nodes := (loc, n) :: t.nodes }

/-- Puts a directory at a location and at all locations above it where nothing is yet. -/
def addDirectory (t : FileTree) (loc : Location) : FileTree :=
  (List.range loc.length).foldl (fun t n =>
    let above := loc.take (n + 1)
    if (t.node? above).isSome then t else t.setNode above .directory) t

/-- A working directory with nothing in it. There are only the directories above it besides. -/
def empty (workingDirectory : Location) : FileTree :=
  addDirectory ⟨[], workingDirectory⟩ workingDirectory

/-! ### Paths -/

/-- The parts of a path between its slashes. -/
def splitPath : List Char → List (List Char)
  | [] => [[]]
  | c :: cs => if c = '/' then [] :: splitPath cs else (splitPath cs).modifyHead (c :: ·)

def pathNames (path : String) : List String := (splitPath path.toList).map String.ofList

/-- Where a path starts: at the root if it starts with a slash. -/
def start (t : FileTree) (path : String) : Location :=
  if path.toList.head? = some '/' then [] else t.workingDirectory

/-- An empty name and a dot stay where they are, two dots go up, and the root is above itself. -/
def stepName (loc : Location) (name : String) : Location :=
  if name = "" ∨ name = "." then loc else if name = ".." then loc.dropLast else loc ++ [name]

/-- Whether a location is a directory, and if not, why not. -/
def checkDirectory (t : FileTree) (loc : Location) : Except FileFault Unit :=
  match t.node? loc with
  | some .directory => .ok ()
  | some (.file _) => .error .notDirectory
  | none => .error .notFound

/-- The most bytes that a name may have. -/
def longestName : Nat := 255

/-- The most bytes that a path may have. -/
def longestPath : Nat := 4095

def checkName (name : String) : Except FileFault Unit :=
  if longestName < name.utf8ByteSize then .error .nameTooLong else .ok ()

/-- Whether a path can be followed: it is neither empty nor too long. -/
def checkLength (path : String) : Except FileFault Unit :=
  if path.isEmpty then .error .notFound
  else if longestPath < path.utf8ByteSize then .error .nameTooLong
  else .ok ()

/-- Follows names from a location. Each name is looked up in a directory. -/
def walk (t : FileTree) (loc : Location) : List String → Except FileFault Location
  | [] => .ok loc
  | name :: names => do
    t.checkDirectory loc
    checkName name
    t.walk (stepName loc name) names

/-! ### Files -/

def readBytes (t : FileTree) (path : String) : Except FileFault ByteArray := do
  checkPath path
  checkLength path
  let loc ← t.walk (t.start path) (pathNames path)
  match t.node? loc with
  | some (.file bytes) => return bytes
  | some .directory => throw .isDirectory
  | none => throw .notFound

def readText (t : FileTree) (path : String) : Except FileFault String := do
  match String.fromUTF8? (← t.readBytes path) with
  | some text => return text
  | none => throw .notText

/-- Whether a path can only stand for a directory: it ends in a slash or in dots. -/
def endsInDirectory (path : String) : Bool :=
  match (pathNames path).getLast? with
  | some name => name == "" || name == "." || name == ".."
  | none => false

/-- The names of a path without the empty ones behind its last slashes. -/
def trimmedNames (path : String) : List String :=
  ((pathNames path).reverse.dropWhile (· == "")).reverse

/-- The location that a path to write to stands for. Its last name is looked up in a directory, too,
but need not be there. -/
def target (t : FileTree) (path : String) : Except FileFault Location := do
  checkPath path
  checkLength path
  match (trimmedNames path).getLast? with
  | none => throw .isDirectory
  | some last =>
    let loc ← t.walk (t.start path) (trimmedNames path).dropLast
    t.checkDirectory loc
    if endsInDirectory path then throw .isDirectory
    checkName last
    return loc ++ [last]

def writeText (t : FileTree) (path text : String) : Except FileFault FileTree := do
  let loc ← t.target path
  match t.node? loc with
  | some .directory => throw .isDirectory
  | _ => return t.setNode loc (.file text.toUTF8)

/-- A file tree as a file system. A failed write changes nothing. -/
def system : FileSystem (StateM FileTree) where
  readText path := do return (← get).readText path
  writeText path text := do
    match (← get).writeText path text with
    | .ok t => set t; return .ok ()
    | .error e => return .error e

end FileTree

end SpirvBindings
