import FleetControl.Json.Basic
import FleetControl.Text.Hex
import FleetControl.Text.Integer

/-!
JSON text as tokens. A text is read one character at a time, so that what was read so far is a
`Mode`; bare words are resolved at the character that ends them.
-/

namespace FleetControl.Json

inductive Token where
  | openArray | closeArray | openObject | closeObject | colon | comma
  | str (s : String)
  | scalar (j : Json)

namespace Token

def isSpace (c : Char) : Bool := c = ' ' || c = '\t' || c = '\n' || c = '\r'

def punctuation? : Char → Option Token
  | '[' => some openArray
  | ']' => some closeArray
  | '\x7b' => some openObject
  | '\x7d' => some closeObject
  | ':' => some colon
  | ',' => some comma
  | _ => none

def spanDigits (cs : List Char) : List Char × List Char :=
  (cs.takeWhile fun c => (Text.digit? c).isSome, cs.dropWhile fun c => (Text.digit? c).isSome)

def fraction? : List Char → Option (List Char × List Char)
  | '.' :: cs =>
    match spanDigits cs with
    | ([], _) => none
    | r => some r
  | cs => some ([], cs)

def exponent? : List Char → Option Int
  | [] => some 0
  | c :: cs => if c = 'e' || c = 'E' then Text.integer? cs else none

/-- Integers of at most 64 bits stay integers; all other numbers are rounded, and must be finite. -/
def number? (cs : List Char) : Option Json :=
  let (negative, cs) :=
    match cs with
    | '-' :: rest => (true, rest)
    | rest => (false, rest)
  let (whole, rest) := spanDigits cs
  let proper :=
    match whole with
    | [] => false
    | '0' :: _ :: _ => false
    | _ => true
  if !proper then none
  else do
    let (places, rest') ← fraction? rest
    let exponent ← exponent? rest'
    let digits ← Text.natural? (whole ++ places)
    let asReal : Option Json :=
      let x := Double.ofDecimal negative digits (exponent - places.length)
      if x.isFinite then some (real x) else none
    if rest.isEmpty then
      if negative then
        if 0 < digits && digits ≤ 0x8000000000000000 then some (int (-(digits : Int))) else asReal
      else if digits < 0x10000000000000000 then some (int digits)
      else asReal
    else asReal

def word? : List Char → Option Json
  | ['n', 'u', 'l', 'l'] => some null
  | ['t', 'r', 'u', 'e'] => some (bool true)
  | ['f', 'a', 'l', 's', 'e'] => some (bool false)
  | cs => number? cs

/-- What has been read of the token in progress; characters are kept last first. -/
inductive Mode where
  | between
  | word (chars : List Char)
  | string (chars : List Char)
  | escape (chars : List Char)
  /-- Inside `\uxxxx`, after `count` digits of the value `n`; `lead` is a first surrogate before it. -/
  | unit (chars : List Char) (lead : Option Nat) (count n : Nat)
  | afterLead (chars : List Char) (lead : Nat)
  | afterLeadSlash (chars : List Char) (lead : Nat)

def start (c : Char) : Mode × List Token :=
  if isSpace c then (.between, [])
  else if c = '"' then (.string [], [])
  else
    match punctuation? c with
    | some t => (.between, [t])
    | none => (.word [c], [])

def endsWord (c : Char) : Bool := isSpace c || c = '"' || (punctuation? c).isSome

def simpleEscape? : Char → Option Char
  | '"' => some '"'
  | '\\' => some '\\'
  | '/' => some '/'
  | 'b' => some '\x08'
  | 'f' => some '\x0c'
  | 'n' => some '\n'
  | 'r' => some '\r'
  | 't' => some '\t'
  | _ => none

def endUnit (chars : List Char) (lead : Option Nat) (n : Nat) : Option Mode :=
  match lead with
  | none =>
    if 0xD800 ≤ n && n ≤ 0xDBFF then some (.afterLead chars n)
    else if 0xDC00 ≤ n && n ≤ 0xDFFF then none
    else some (.string (Char.ofNat n :: chars))
  | some high =>
    if 0xDC00 ≤ n && n ≤ 0xDFFF then
      some (.string (Char.ofNat (0x10000 + (high - 0xD800) * 0x400 + (n - 0xDC00)) :: chars))
    else none

def step (c : Char) : Mode → Option (Mode × List Token)
  | .between => some (start c)
  | .word chars =>
    if endsWord c then
      (word? chars.reverse).map fun j => ((start c).1, .scalar j :: (start c).2)
    else some (.word (c :: chars), [])
  | .string chars =>
    if c = '"' then some (.between, [.str (String.ofList chars.reverse)])
    else if c = '\\' then some (.escape chars, [])
    else if c.toNat < 0x20 then none
    else some (.string (c :: chars), [])
  | .escape chars =>
    if c = 'u' then some (.unit chars none 0 0, [])
    else (simpleEscape? c).map fun d => (.string (d :: chars), [])
  | .unit chars lead count n =>
    match Text.hexDigit? c with
    | none => none
    | some d =>
      if count = 3 then (endUnit chars lead (n * 16 + d)).map fun m => (m, [])
      else some (.unit chars lead (count + 1) (n * 16 + d), [])
  | .afterLead chars lead => if c = '\\' then some (.afterLeadSlash chars lead, []) else none
  | .afterLeadSlash chars lead => if c = 'u' then some (.unit chars (some lead) 0 0, []) else none

def finish : Mode → Option (List Token)
  | .between => some []
  | .word chars => (word? chars.reverse).map fun j => [.scalar j]
  | _ => none

def scan : Mode → List Char → Option (List Token)
  | m, [] => finish m
  | m, c :: cs =>
    match step c m with
    | none => none
    | some (m', ts) => (scan m' cs).map (ts ++ ·)

end Token
end FleetControl.Json
