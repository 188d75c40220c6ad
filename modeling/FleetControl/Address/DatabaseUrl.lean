import FleetControl.Address.Ipv6
import FleetControl.Text.Blank

/-!
Addresses of databases, read as URLs with an authority, and the form in which they may be shown: the
credentials are masked, and port, query and fragment are left out. An address that is no proper URL
or has no credentials is shown as it is.
-/

namespace FleetControl.DatabaseUrl

/-- Blanks and control characters at either end are no part of a URL, tabs and line ends nowhere. -/
def isMargin (c : Char) : Bool := c.toNat ≤ 0x20

def isSkipped (c : Char) : Bool := c = '\t' || c = '\n' || c = '\r'

def cleaned (cs : List Char) : List Char :=
  (Text.dropTrailing isMargin (cs.dropWhile isMargin)).filter (!isSkipped ·)

def splitScheme : List Char → Option (List Char × List Char)
  | ':' :: '/' :: '/' :: rest => some ([], rest)
  | [] => none
  | c :: cs => (splitScheme cs).map fun (a, b) => (c :: a, b)

def endsAuthority (c : Char) : Bool := c = '/' || c = '?' || c = '#'

def splitCredentials (authority : List Char) : Option (List Char) × List Char :=
  match Text.splitLast '@' authority with
  | some (user, rest) => (some user, rest)
  | none => (none, authority)

def hasCredentials (user : List Char) : Bool := !(user = [] || user = [':'])

def isForbiddenInHost (c : Char) : Bool :=
  c.toNat = 0 || isSkipped c || " #/:<>?@[\\]^|".toList.contains c

def percentEncoded (c : Char) : List Char :=
  (String.singleton c).toUTF8.toList.flatMap fun b =>
    '%' :: [Nat.digitChar (b.toNat / 16), Nat.digitChar (b.toNat % 16)].map Char.toUpper

def encodeWhere (p : Char → Bool) (cs : List Char) : List Char :=
  cs.flatMap fun c => if p c then percentEncoded c else [c]

def isControl (c : Char) : Bool := c.toNat < 0x20 || 0x7E < c.toNat

def host? : List Char → Option (List Char)
  | '[' :: rest =>
    match rest.reverse with
    | ']' :: inner => (Ipv6.ofText? inner.reverse).map fun ns => '[' :: (Ipv6.text ns ++ [']'])
    | _ => none
  | cs => if cs.any isForbiddenInHost then none else some (encodeWhere isControl cs)

def splitHost : (inBrackets : Bool) → List Char → List Char × List Char
  | _, [] => ([], [])
  | inside, c :: cs =>
    if c = ':' && !inside then ([], c :: cs)
    else
      let inside := if c = '[' then true else if c = ']' then false else inside
      let (a, b) := splitHost inside cs
      (c :: a, b)

/-- A port of 16 bits; there may be no digits at all. A backslash ends it, and begins the path. -/
def afterPort? (cs : List Char) : Option (List Char) :=
  let digits := cs.takeWhile fun c => (Text.digit? c).isSome
  let rest := cs.dropWhile fun c => (Text.digit? c).isSome
  if 65535 < (Text.readDigits 10 Text.digit? 0 digits).getD 0 then none
  else
    match rest with
    | [] => some []
    | '\\' :: _ => some rest
    | _ => none

def isEncodedInPath (c : Char) : Bool := isControl c || " \"<>`#?\x7b\x7d".toList.contains c

def lowered (cs : List Char) : List Char := cs.map Char.toLower

def isDot (segment : List Char) : Bool := ["." , "%2e"].any (·.toList = lowered segment)

def isDoubleDot (segment : List Char) : Bool :=
  ["..", "%2e.", ".%2e", "%2e%2e"].any (·.toList = lowered segment)

/-- Segments with `.` and `..` carried out; `done` is what came before, last first. -/
def resolve : (done : List (List Char)) → List (List Char) → List (List Char)
  | done, [] => done.reverse
  | done, s :: rest =>
    let closed (d : List (List Char)) := if rest.isEmpty then [] :: d else d
    if isDoubleDot s then resolve (closed done.tail) rest
    else if isDot s then resolve (closed done) rest
    else resolve (s :: done) rest

def path (cs : List Char) : List Char :=
  match cs.takeWhile fun c => !(c = '?' || c = '#') with
  | [] => []
  | c :: rest =>
    let body := if c = '/' then rest else c :: rest
    (resolve [] (Text.splitOn '/' (encodeWhere isEncodedInPath body))).flatMap ('/' :: ·)

def masked? (url : List Char) : Option (List Char) := do
  let (scheme, rest) ← splitScheme (cleaned url)
  let authority := rest.takeWhile (!endsAuthority ·)
  let tail := rest.dropWhile (!endsAuthority ·)
  let (user, place) := splitCredentials authority
  if !hasCredentials (user.getD []) then none
  let (name, port) := splitHost false place
  let host ← host? name
  if host.isEmpty then none
  let beyond ← afterPort? (port.drop 1)
  some (scheme ++ "://***:***@".toList ++ host ++ path (beyond ++ tail))

def shown (url : String) : String := String.ofList ((masked? url.toList).getD url.toList)

end FleetControl.DatabaseUrl
