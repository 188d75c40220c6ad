/-!
White space in text, as Unicode's `White_Space` property has it, and trimming it from both ends.
-/

namespace FleetControl.Text

def isBlank (c : Char) : Bool :=
  let n := c.toNat
  (0x9 ≤ n && n ≤ 0xD) || n == 0x20 || n == 0x85 || n == 0xA0 || n == 0x1680 ||
  (0x2000 ≤ n && n ≤ 0x200A) || n == 0x2028 || n == 0x2029 || n == 0x202F || n == 0x205F ||
  n == 0x3000

def dropTrailing (p : Char → Bool) : List Char → List Char
  | [] => []
  | c :: cs =>
    match dropTrailing p cs with
    | [] => if p c then [] else [c]
    | d :: ds => c :: d :: ds

def trim (cs : List Char) : List Char := dropTrailing isBlank (cs.dropWhile isBlank)

def allBlank (s : String) : Bool := s.toList.all isBlank

end FleetControl.Text
