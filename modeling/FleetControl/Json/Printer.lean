import FleetControl.Json.Basic
import FleetControl.Text.Hex
import FleetControl.Text.Integer

/-!
JSON text. `render` is compact and writes every character above U+001F as itself, apart from the
quote and the backslash; `pretty` puts each item on a line of its own, indented by two spaces.
-/

namespace FleetControl.Json

def escape (c : Char) : List Char :=
  if c = '"' then ['\\', '"']
  else if c = '\\' then ['\\', '\\']
  else if c = '\n' then ['\\', 'n']
  else if c = '\r' then ['\\', 'r']
  else if c = '\t' then ['\\', 't']
  else if c = '\x08' then ['\\', 'b']
  else if c = '\x0c' then ['\\', 'f']
  else if c.toNat < 0x20 then '\\' :: 'u' :: '0' :: '0' :: Text.hexPair c.toNat.toUInt8
  else [c]

def quoted (s : String) : List Char := '"' :: (s.toList.flatMap escape ++ ['"'])

/-- Decimal digits `d · 10 ^ k`, positional from `1e-5` up to below `1e16`, else with an exponent. -/
def renderDigits (d : Nat) (k : Int) : List Char :=
  let ds := Nat.toDigits 10 d
  let point : Int := ds.length + k
  if 0 ≤ k && point ≤ 16 then ds ++ List.replicate k.toNat '0' ++ ['.', '0']
  else if -5 < point && point ≤ 16 then Double.positional d k
  else
    let mark := Text.ofInt (point - 1)
    match ds with
    | [] => []
    | [c] => c :: 'e' :: mark
    | c :: cs => c :: '.' :: (cs ++ 'e' :: mark)

def renderReal : Double → List Char
  | .finite negative 0 _ => Double.signText negative ++ ['0', '.', '0']
  | .finite negative m e =>
    let (d, k) := Double.shortest m e
    Double.signText negative ++ renderDigits d k
  | _ => "null".toList

mutual

def render : Json → List Char
  | null => ['n', 'u', 'l', 'l']
  | bool true => ['t', 'r', 'u', 'e']
  | bool false => ['f', 'a', 'l', 's', 'e']
  | int n => Text.ofInt n
  | real x => renderReal x
  | str s => quoted s
  | arr [] => ['[', ']']
  | arr (j :: js) => '[' :: (render j ++ renderItems js)
  | obj [] => ['\x7b', '\x7d']
  | obj ((k, j) :: ms) => '\x7b' :: (quoted k ++ ':' :: (render j ++ renderMembers ms))

def renderItems : List Json → List Char
  | [] => [']']
  | j :: js => ',' :: (render j ++ renderItems js)

def renderMembers : List (String × Json) → List Char
  | [] => ['\x7d']
  | (k, j) :: ms => ',' :: (quoted k ++ ':' :: (render j ++ renderMembers ms))

end

def text (j : Json) : String := String.ofList (render j)

def newline (depth : Nat) : List Char := '\n' :: List.replicate (2 * depth) ' '

mutual

def prettyAt (depth : Nat) : Json → List Char
  | arr [] => ['[', ']']
  | arr (j :: js) =>
    '[' :: (newline (depth + 1) ++ prettyAt (depth + 1) j ++ prettyItems depth js)
  | obj [] => ['\x7b', '\x7d']
  | obj ((k, j) :: ms) =>
    '\x7b' :: (newline (depth + 1) ++ quoted k ++ ':' :: ' ' :: prettyAt (depth + 1) j
      ++ prettyMembers depth ms)
  | null => ['n', 'u', 'l', 'l']
  | bool b => render (bool b)
  | int n => render (int n)
  | real x => render (real x)
  | str s => quoted s

def prettyItems (depth : Nat) : List Json → List Char
  | [] => newline depth ++ [']']
  | j :: js => ',' :: (newline (depth + 1) ++ prettyAt (depth + 1) j ++ prettyItems depth js)

def prettyMembers (depth : Nat) : List (String × Json) → List Char
  | [] => newline depth ++ ['\x7d']
  | (k, j) :: ms =>
    ',' :: (newline (depth + 1) ++ quoted k ++ ':' :: ' ' :: prettyAt (depth + 1) j
      ++ prettyMembers depth ms)

end

def pretty (j : Json) : String := String.ofList (prettyAt 0 j)

end FleetControl.Json
