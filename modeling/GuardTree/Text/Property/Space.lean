import GuardTree.Text.CodeRange

/-! # The code points with the property White_Space -/

namespace GuardTree.Text.Property

set_option autoImplicit false

/-- Tab to carriage return, the space, and the spaces and separators outside ASCII. -/
def whiteSpace : CodeRanges :=
  [(0x9, 0xd), (0x20, 0x20), (0x85, 0x85), (0xa0, 0xa0), (0x1680, 0x1680), (0x2000, 0x200a),
   (0x2028, 0x2029), (0x202f, 0x202f), (0x205f, 0x205f), (0x3000, 0x3000)]

end GuardTree.Text.Property
