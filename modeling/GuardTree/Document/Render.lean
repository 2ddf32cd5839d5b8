import GuardTree.Document.Format
import GuardTree.Json.Writer
import GuardTree.Text.Trim
import GuardTree.Yaml.Writer

/-! # Writing documents -/

namespace GuardTree.Document

set_option autoImplicit false

/-- The text of a tree in a format. Only JSON has a form on one line. -/
def write (format : Format) (compact : Bool) (n : Node) : String :=
  match format with
  | .json => if compact then Json.compact n else Json.pretty n
  | .yaml => Yaml.write n

/-- The text of a tree as it is shown, without white space at its end. -/
def render (format : Format) (compact : Bool) (n : Node) : String :=
  String.ofList (Text.trimEnd (write format compact n).toList)

end GuardTree.Document
