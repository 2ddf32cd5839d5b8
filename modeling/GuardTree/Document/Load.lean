import GuardTree.Json.Reader
import GuardTree.Reduction.Session
import GuardTree.Yaml.Reader

/-! # Loading documents

A document is read in a given format, or in the one that the extension of its path names; a path
with any other extension is refused before the file is opened. A session on a loaded document has
guard expressions for its guards and the default policy.
-/

namespace GuardTree

set_option autoImplicit false

/-- The bytes of files, by their paths. -/
abbrev Files := String → Except ReadFault ByteArray

namespace Document

def parse (format : Format) (text : String) : Traced Node := do
  Traced.note (.parsing format text.utf8ByteSize)
  match format with
  | .json =>
    match Json.read text with
    | .ok n => return n
    | .error fault => Traced.fail (.json fault)
  | .yaml =>
    match Yaml.read? text with
    | some n => return n
    | none => Traced.fail .yaml

def text (files : Files) (path : String) : Traced String :=
  match files path with
  | .error fault => Traced.fail (.read fault)
  | .ok bytes =>
    match String.fromUTF8? bytes with
    | some s => return s
    | none => Traced.fail (.read .notText)

/-- The tree in a file, in the format of the file's extension. -/
def load (files : Files) (path : String) : Traced Node := do
  Traced.note (.loading none path)
  match Format.ofPath? path with
  | none => Traced.fail (.unsupportedFormat path)
  | some format => parse format (← text files path)

/-- The tree in a file, in a given format. -/
def loadAs (format : Format) (files : Files) (path : String) : Traced Node := do
  Traced.note (.loading (some format) path)
  parse format (← text files path)

end Document

namespace Session

/-- A session on a tree with guard expressions and the default policy. -/
def onTree (data : Node) : Traced Session := Traced.ofExcept (start .formulas .default data)

/-- A session on the tree that a text denotes. -/
def ofText (format : Format) (text : String) : Traced Session := do
  onTree (← Document.parse format text)

/-- A session on the tree in a file, in the format of the file's extension. -/
def load (files : Files) (path : String) : Traced Session := do
  onTree (← Document.load files path)

/-- A session on the tree in a file, in a given format. -/
def loadAs (format : Format) (files : Files) (path : String) : Traced Session := do
  onTree (← Document.loadAs format files path)

end Session

end GuardTree
