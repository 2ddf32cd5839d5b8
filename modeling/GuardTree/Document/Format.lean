/-! # Document formats

The format of a document is told by the extension of its file's name, in upper or lower case. The
name is the last component of the path; a name that starts with its only dot has no extension.
-/

namespace GuardTree

set_option autoImplicit false

inductive Format
  | json
  | yaml
deriving DecidableEq

namespace Format

def name : Format → String
  | .json => "json"
  | .yaml => "yaml"

/-- The last component of a path, empty components and `.` left out. A path that ends in `..` names
no file. -/
def fileName? (path : String) : Option (List Char) :=
  let components := (path.toList.splitOn '/').filter fun c => c != [] && c != ['.']
  components.getLast?.filter (· != ['.', '.'])

/-- What follows the last dot of a name, if anything stands before that dot. -/
def extension? (name : List Char) : Option (List Char) :=
  let reversed := name.reverse
  match reversed.dropWhile (· != '.') with
  | '.' :: before =>
    if before.isEmpty then none else some (reversed.takeWhile (· != '.')).reverse
  | _ => none

def ofPath? (path : String) : Option Format :=
  match ((fileName? path).bind extension?).map fun cs => String.ofList (cs.map Char.toLower) with
  | some "json" => some .json
  | some "yaml" => some .yaml
  | some "yml" => some .yaml
  | _ => none

end Format

end GuardTree
