import FleetControl.Text.Blank
import FleetControl.Text.Split

/-!
Hostnames and wildcards. Names are compared label by label after normalization; a wildcard is a
whole leftmost label `*` and stands for exactly one label.
-/

namespace FleetControl.Hostname

/-- White space around a name, dots at its end and the case of letters carry no meaning. -/
def normalForm (cs : List Char) : List Char :=
  (Text.dropTrailing (· = '.') (Text.trim cs)).map Char.toLower

def normalize (name : String) : String := String.ofList (normalForm name.toList)

def isWildcard (name : String) : Bool := ['*', '.'].isPrefixOf name.toList

def isLabelChar (c : Char) : Bool := c.isAlphanum || c = '-' || c = '_'

def isLabel (cs : List Char) : Bool :=
  !cs.isEmpty && cs.length ≤ 63 && cs.head? != some '-' && cs.getLast? != some '-' &&
  cs.all isLabelChar

def withoutWildcard (cs : List Char) : List Char := (['*', '.'].isPrefixOf? cs).getD cs

def byteLength (cs : List Char) : Nat := (cs.map Char.utf8Size).foldr (· + ·) 0

def isValid (name : String) : Bool :=
  let body := withoutWildcard (normalForm name.toList)
  byteLength body ≤ 253 && (Text.splitOn '.' body).all isLabel

def labels (name : String) : List (List Char) := Text.splitOn '.' (normalForm name.toList)

def labelsMatch (pattern host : List (List Char)) : Bool :=
  match pattern, host with
  | p :: ps, h :: hs => (p = ['*'] || p = h) && ps = hs
  | [], [] => true
  | _, _ => false

def covers (pattern host : String) : Bool := labelsMatch (labels pattern) (labels host)

/-- Whether two names cannot both be registered: they are one name, or one is a wildcard that covers
the other. Two different wildcards never conflict. -/
def conflicts (existing candidate : String) : Bool :=
  let e := normalize existing
  let c := normalize candidate
  if e = c then true
  else
    match isWildcard e, isWildcard c with
    | true, false => covers e c
    | false, true => covers c e
    | _, _ => false

end FleetControl.Hostname
