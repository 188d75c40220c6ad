import FleetControl.Text.Hex

/-!
TOML text as tokens, read one character at a time. Runs of blanks stay tokens, because they matter
between brackets and inside a date; comments do not. Line ends are single newlines here.
-/

namespace FleetControl.Toml

inductive Token where
  | newline
  | blank (chars : List Char)
  | word (chars : List Char)
  | str (s : String) (long : Bool)
  | openBracket | closeBracket | openBrace | closeBrace | comma | equals
  deriving DecidableEq, Repr

namespace Token

def isBlank (c : Char) : Bool := c = ' ' || c = '\t'

def isWordChar (c : Char) : Bool :=
  ('a' ≤ c ∧ c ≤ 'z') || ('A' ≤ c ∧ c ≤ 'Z') || ('0' ≤ c ∧ c ≤ '9') ||
  "_-+.:".toList.contains c

def isPlain (c : Char) : Bool := c = '\t' || (0x20 ≤ c.toNat && c.toNat ≠ 0x7F)

def punctuation? : Char → Option Token
  | '[' => some openBracket
  | ']' => some closeBracket
  | '\x7b' => some openBrace
  | '\x7d' => some closeBrace
  | ',' => some comma
  | '=' => some equals
  | '\n' => some newline
  | _ => none

structure Style where
  /-- Escapes are read; otherwise every character stands for itself. -/
  basic : Bool
  long : Bool

def Style.quote (s : Style) : Char := if s.basic then '"' else '\''

inductive Mode where
  | between
  | blank (chars : List Char)
  | word (chars : List Char)
  | comment
  /-- After one or two quotes that may become three. -/
  | opened (basic : Bool) (two : Bool)
  /-- After three quotes; a newline that follows at once is no part of the string. -/
  | begun (basic : Bool)
  /-- In a string, after `quotes` quotes that may end it. -/
  | string (style : Style) (chars : List Char) (quotes : Nat)
  | escape (style : Style) (chars : List Char)
  /-- In an escape with `left` more hexadecimal digits to come, after the value `n`. -/
  | unit (style : Style) (chars : List Char) (left n : Nat)
  /-- After a backslash at the end of a line: blanks and line ends are skipped. -/
  | gap (style : Style) (chars : List Char) (lineEnded : Bool)

def start? (c : Char) : Option (Mode × List Token) :=
  if isBlank c then some (.blank [c], [])
  else if isWordChar c then some (.word [c], [])
  else if c = '#' then some (.comment, [])
  else if c = '"' then some (.opened true false, [])
  else if c = '\'' then some (.opened false false, [])
  else (punctuation? c).map fun t => (.between, [t])

def after (t : Token) (c : Char) : Option (Mode × List Token) :=
  (start? c).map fun (m, ts) => (m, t :: ts)

def ended (style : Style) (chars : List Char) : Token := .str (String.ofList chars.reverse) style.long

def shortStep (style : Style) (chars : List Char) (c : Char) : Option (Mode × List Token) :=
  if c = style.quote then some (.between, [ended style chars])
  else if style.basic && c = '\\' then some (.escape style chars, [])
  else if isPlain c then some (.string style (c :: chars) 0, [])
  else none

def quotesOf (style : Style) (n : Nat) : List Char := List.replicate n style.quote

/-- Three quotes end a long string, and one or two more before them belong to it. -/
def longStep (style : Style) (chars : List Char) (quotes : Nat) (c : Char) :
    Option (Mode × List Token) :=
  if c = style.quote then
    if quotes < 5 then some (.string style chars (quotes + 1), []) else none
  else if 3 ≤ quotes then after (ended style (quotesOf style (quotes - 3) ++ chars)) c
  else
    let chars := quotesOf style quotes ++ chars
    if style.basic && c = '\\' then some (.escape style chars, [])
    else if isPlain c || c = '\n' then some (.string style (c :: chars) 0, [])
    else none

def simpleEscape? : Char → Option Char
  | '"' => some '"'
  | '\\' => some '\\'
  | 'b' => some '\x08'
  | 'f' => some '\x0c'
  | 'n' => some '\n'
  | 'r' => some '\r'
  | 't' => some '\t'
  | _ => none

def escapeStep (style : Style) (chars : List Char) (c : Char) : Option (Mode × List Token) :=
  if c = 'u' then some (.unit style chars 4 0, [])
  else if c = 'U' then some (.unit style chars 8 0, [])
  else if style.long && (isBlank c || c = '\n') then some (.gap style chars (c = '\n'), [])
  else (simpleEscape? c).map fun d => (.string style (d :: chars) 0, [])

def unitStep (style : Style) (chars : List Char) (left n : Nat) (c : Char) :
    Option (Mode × List Token) := do
  let n := 16 * n + (← Text.hexDigit? c)
  if 1 < left then some (.unit style chars (left - 1) n, [])
  else if n.isValidChar then some (.string style (Char.ofNat n :: chars) 0, [])
  else none

def step (c : Char) : Mode → Option (Mode × List Token)
  | .between => start? c
  | .blank chars =>
    if isBlank c then some (.blank (c :: chars), []) else after (.blank chars.reverse) c
  | .word chars =>
    if isWordChar c then some (.word (c :: chars), []) else after (.word chars.reverse) c
  | .comment =>
    if c = '\n' then some (.between, [.newline]) else if isPlain c then some (.comment, []) else none
  | .opened basic two =>
    let short : Style := ⟨basic, false⟩
    if c = short.quote then
      some (if two then .begun basic else .opened basic true, [])
    else if two then after (.str "" false) c
    else shortStep short [] c
  | .begun basic =>
    if c = '\n' then some (.string ⟨basic, true⟩ [] 0, []) else longStep ⟨basic, true⟩ [] 0 c
  | .string style chars quotes =>
    if style.long then longStep style chars quotes c else shortStep style chars c
  | .escape style chars => escapeStep style chars c
  | .unit style chars left n => unitStep style chars left n c
  | .gap style chars lineEnded =>
    if isBlank c || c = '\n' then some (.gap style chars (lineEnded || c = '\n'), [])
    else if lineEnded then longStep style chars 0 c
    else none

def finish : Mode → Option (List Token)
  | .between | .comment => some []
  | .blank chars => some [.blank chars.reverse]
  | .word chars => some [.word chars.reverse]
  | .opened _ true => some [.str "" false]
  | .string style chars quotes =>
    if style.long && 3 ≤ quotes then some [ended style (quotesOf style (quotes - 3) ++ chars)] else none
  | _ => none

def scan : Mode → List Char → Option (List Token)
  | m, [] => finish m
  | m, c :: cs =>
    match step c m with
    | none => none
    | some (m', ts) => (scan m' cs).map (ts ++ ·)

def unifyLineEnds : List Char → List Char
  | [] => []
  | c :: cs =>
    if c = '\r' && cs.head? = some '\n' then unifyLineEnds cs else c :: unifyLineEnds cs

def ofText? (text : String) : Option (List Token) :=
  scan .between (unifyLineEnds text.toList)

end Token
end FleetControl.Toml
