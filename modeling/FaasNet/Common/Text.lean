import Mathlib.Init

/-!
# Texts

What the program asks of a text besides its characters. A text that may be null is an `Option String`.
-/

namespace FaasNet.Common

/-- `Char.IsWhiteSpace`. -/
def isWhiteSpace (c : Char) : Bool :=
  let n := c.toNat
  (0x9 ≤ n && n ≤ 0xD) || n = 0x20 || n = 0x85 || n = 0xA0 || n = 0x1680 || (0x2000 ≤ n && n ≤ 0x200A) ||
    n = 0x2028 || n = 0x2029 || n = 0x202F || n = 0x205F || n = 0x3000

/-- `string.IsNullOrWhiteSpace`. -/
def isNullOrWhiteSpace (text : Option String) : Bool := text.elim true fun text => text.toList.all isWhiteSpace

end FaasNet.Common
