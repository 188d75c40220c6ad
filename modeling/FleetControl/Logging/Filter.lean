import FleetControl.Text.Blank
import FleetControl.Text.Integer
import FleetControl.Text.Split

/-!
What is logged: a list of directives, each a level, a target, or a target with spans, fields and a
level, such as `store[export{topic}]=debug`. Here it only matters which lists can be read.
-/

namespace FleetControl.LogFilter

def levels : List String := ["", "off", "error", "warn", "info", "debug", "trace"]

def isLevel (cs : List Char) : Bool :=
  levels.contains (Text.lower (String.ofList cs)) || (Text.unsigned64? cs).any (· ≤ 5)

/-- Letters and digits of all scripts; every character beyond ASCII counts as one. -/
def startsWord (c : Char) : Bool := c.isAlphanum || c = '-' || c = ':' || c = '_' || 0x7F < c.toNat

inductive Place where
  | start
  | word
  | span
  | field (isEmpty : Bool)
  | afterField
  | afterSpan

def next? (c : Char) : Place → Option Place
  | .start => if c = '[' then some .span else if startsWord c then some .word else none
  | .word => some (if c = '[' then .span else .word)
  | .span => some (if c = ']' then .afterSpan else if c = '\x7b' then .field true else .span)
  | .field isEmpty =>
    if c = '\x7d' then (if isEmpty then none else some .afterField) else some (.field false)
  | .afterField => if c = ']' then some .afterSpan else none
  | .afterSpan => none

def mayEnd : Place → Bool
  | .word | .afterSpan => true
  | _ => false

/-- The directive from some place on. After as many characters of `whole` as were read, its level
begins; `whole` has the blanks in front that `rest` has lost. -/
def accepts : (whole : List Char) → Place → (rest : List Char) → Bool
  | _, p, [] => mayEnd p
  | whole, p, c :: cs =>
    if c = '=' && mayEnd p then isLevel whole.tail
    else
      match next? c p with
      | some p' => accepts whole.tail p' cs
      | none => false

def isDirective (cs : List Char) : Bool := accepts cs .start (Text.trim cs)

def isValid (text : String) : Bool :=
  (Text.splitOn ',' text.toList).all fun cs => cs.isEmpty || isDirective cs

/-- The variable of the environment that, if it can be read, takes the place of the setting. -/
def environmentVariable : String := "RUST_LOG"

end FleetControl.LogFilter
