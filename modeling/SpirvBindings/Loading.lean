import SpirvBindings.Failure
import SpirvBindings.Grammar.Document

/-!
From texts and files to what they hold. A text is decoded and then validated. A file is read before
that; the failure of either step names the file. -/

namespace SpirvBindings

/-- How a kind of document is read: what is said when its file cannot be read, what is said when its
text is refused, and how the text is turned into its content. -/
structure DocumentKind (α : Type) where
  unreadable : String
  refused : String
  ofText : String → Except Cause α

namespace DocumentKind

/-- The content of a text. -/
def parse {α : Type} (k : DocumentKind α) (source : String) : Except Failure α :=
  (k.ofText source).mapError (⟨[], ·⟩)

/-- The content of a file at a path, given what reading the file has led to. -/
def ofRead {α : Type} (k : DocumentKind α) (path : String) :
    Except FileFault String → Except Failure α
  | .error fault => .error ⟨[k.unreadable ++ " " ++ path], .file fault⟩
  | .ok source => (k.ofText source).mapError (⟨[k.refused ++ " " ++ path], ·⟩)

/-- The content of the file at a path. -/
def load {α : Type} {m : Type → Type} [Monad m] (k : DocumentKind α) (files : FileSystem m)
    (path : String) : m (Except Failure α) :=
  k.ofRead path <$> files.readText path

/-- The content of the file at a path, or a standard content if there is no path. -/
def loadOr {α : Type} {m : Type → Type} [Monad m] (k : DocumentKind α) (files : FileSystem m)
    (standard : α) : Option String → m (Except Failure α)
  | some path => k.load files path
  | none => return .ok standard

end DocumentKind

/-! ### Kinds of documents -/

def Grammar.documentKind : DocumentKind Grammar where
  unreadable := "failed to read grammar file"
  refused := "failed to parse grammar file"
  ofText source := (Grammar.ofText source).mapError .json

/-- A grammar as a plain JSON value. -/
def Json.Value.documentKind : DocumentKind Json.Value where
  unreadable := "failed to read grammar file"
  refused := "failed to parse grammar file"
  ofText source := ((Json.Decoder.value 0).document source).mapError .json

def Policy.documentKind : DocumentKind Policy where
  unreadable := "failed to read fields file"
  refused := "invalid fields file"
  ofText source := do
    let d ← (Policy.documentRecord.decode.document source).mapError .json
    d.validate.mapError .policy

def TypeMap.documentKind : DocumentKind TypeMap where
  unreadable := "failed to read type mapping file"
  refused := "invalid type mapping file"
  ofText source := do
    let d ← (TypeMap.documentRecord.decode.document source).mapError .json
    d.validate.mapError .typeMap

def BuiltinTable.documentKind : DocumentKind BuiltinTable where
  unreadable := "failed to read enumerants file"
  refused := "invalid enumerants file"
  ofText source := do
    let d ← (BuiltinTable.documentRecord.decode.document source).mapError .json
    d.validate.mapError .builtins

/-! ### Output -/

/-- Writes a text to the file at a path. -/
def writeOutput {m : Type → Type} [Monad m] (files : FileSystem m) (path text : String) :
    m (Except Failure Unit) :=
  Except.mapError (⟨["failed to write " ++ path], .file ·⟩) <$> files.writeText path text

end SpirvBindings
