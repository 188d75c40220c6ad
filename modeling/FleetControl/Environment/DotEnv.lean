import FleetControl.Environment.Basic
import FleetControl.Text.Blank
import FleetControl.Text.Split

/-!
Files of environment variables: lines `name=value`, possibly quoted, in which `$name` and `${name}`
stand for other variables. Entries take effect in order; a variable that is already set keeps its
value, and everything after a line that cannot be read is lost.
-/

namespace FleetControl.DotEnv

/-! ## Lines -/

inductive Quoting where
  | none | blank | escape | strong | strongEscape | weak | weakEscape
  deriving DecidableEq, Repr

def open? (c : Char) : Option Quoting :=
  if c = '\\' then some .escape
  else if c = '"' then some .weak
  else if c = '\'' then some .strong
  else Option.none

def Quoting.next (c : Char) : Quoting → Quoting
  | .blank => (open? c).getD .none
  | .none =>
    if Text.isBlank c && c != '\n' && c != '\r' then .blank else (open? c).getD .none
  | .escape => .none
  | .weak => if c = '\\' then .weakEscape else if c = '"' then .none else .weak
  | .weakEscape => .weak
  | .strong => if c = '\\' then .strongEscape else if c = '\'' then .none else .strong
  | .strongEscape => .strong

def physicalLines : List Char → List (List Char)
  | [] => []
  | c :: cs =>
    if c = '\n' then ['\n'] :: physicalLines cs
    else
      match physicalLines cs with
      | [] => [[c]]
      | l :: ls => (c :: l) :: ls

def uncommented : Quoting → List Char → List Char × Option Quoting
  | q, [] => ([], some q)
  | q, c :: cs =>
    if q = .blank && c = '#' then ([], Option.none)
    else
      let (kept, e) := uncommented (q.next c) cs
      (c :: kept, e)

def withoutLineEnd (cs : List Char) : List Char :=
  match cs.reverse with
  | '\n' :: '\r' :: rest => rest.reverse
  | '\n' :: rest => rest.reverse
  | _ => cs

def isComment (cs : List Char) : Bool := (cs.dropWhile Text.isBlank).head? = some '#'

/-- Lines joined where quotes are open at their end. The flag tells whether all could be read. -/
def lines : (pending : List Char) → Quoting → List (List Char) → List (List Char) × Bool
  | _, q, [] => ([], q = .none)
  | pending, q, l :: ls =>
    if isComment (pending ++ l) then lines [] .none ls
    else
      match uncommented q l with
      | (kept, Option.none) =>
        let (rest, ok) := lines [] .none ls
        ((pending ++ kept) :: rest, ok)
      | (_, some .none) =>
        let (rest, ok) := lines [] .none ls
        (withoutLineEnd (pending ++ l) :: rest, ok)
      | (_, some q') => lines (pending ++ l) q' ls

/-! ## Entries -/

def skipBlank (cs : List Char) : List Char := cs.dropWhile Text.isBlank

def isKeyChar (c : Char) : Bool := c.isAlphanum || c = '_' || c = '.'

def key? (cs : List Char) : Option (List Char × List Char) :=
  match cs with
  | c :: _ =>
    if c.isAlpha || c = '_' then some (cs.takeWhile isKeyChar, skipBlank (cs.dropWhile isKeyChar))
    else none
  | [] => none

def afterEquals? : List Char → Option (List Char)
  | '=' :: cs => some (skipBlank cs)
  | _ => none

def split? (line : List Char) : Option (List Char × List Char) := do
  let (key, rest) ← key? line
  match afterEquals? rest with
  | some value => some (key, value)
  | none =>
    if key = "export".toList then
      let (key, rest) ← key? rest
      (afterEquals? rest).map (key, ·)
    else none

inductive Reference where
  | open
  | braced

structure Progress where
  /-- Last character first. -/
  output : List Char := []
  strong : Bool := false
  weak : Bool := false
  escaped : Bool := false
  /-- Only a comment may still follow. -/
  ending : Bool := false
  reference : Option Reference := none
  name : List Char := []

def isNameChar (c : Char) : Bool := c.isAlphanum || 0x7F < c.toNat

def Progress.substitute (values : Environment) (p : Progress) : Progress :=
  let value := (values.lookup (String.ofList p.name.reverse)).getD ""
  { p with output := value.toList.reverse ++ p.output, name := [], reference := none }

def Progress.push (c : Char) (p : Progress) : Progress := { p with output := c :: p.output }

def escape? (c : Char) : Option Char :=
  if "\\'\"$ ".toList.contains c then some c else if c = 'n' then some '\n' else none

def referenceStep (values : Environment) (c : Char) (r : Reference) (p : Progress) : Progress :=
  if isNameChar c then { p with name := c :: p.name }
  else
    match r with
    | .open =>
      if c = '\x7b' && p.name.isEmpty then { p with reference := some .braced }
      else
        let p := p.substitute values
        if c = '$' then { p with reference := some .open } else p.push c
    | .braced => if c = '\x7d' then p.substitute values else { p with name := c :: p.name }

def plainStep (c : Char) (p : Progress) : Progress :=
  if c = '$' then { p with reference := some .open }
  else if p.weak then
    if c = '"' then { p with weak := false }
    else if c = '\\' then { p with escaped := true }
    else p.push c
  else if c = '\'' then { p with strong := true }
  else if c = '"' then { p with weak := true }
  else if c = '\\' then { p with escaped := true }
  else if c = ' ' || c = '\t' then { p with ending := true }
  else p.push c

def step? (values : Environment) (p : Progress) (c : Char) : Option Progress :=
  if p.escaped then (escape? c).map fun d => { p.push d with escaped := false }
  else if p.strong then some (if c = '\'' then { p with strong := false } else p.push c)
  else
    match p.reference with
    | some r => some (referenceStep values c r p)
    | none => some (plainStep c p)

def finish? (values : Environment) (p : Progress) : Option String :=
  match p.reference with
  | some .braced => none
  | _ => if p.strong || p.weak then none else some (String.ofList (p.substitute values).output.reverse)

def valueFrom? (values : Environment) : Progress → List Char → Option String
  | p, [] => finish? values p
  | p, c :: cs =>
    if p.ending then
      if c = ' ' || c = '\t' then valueFrom? values p cs
      else if c = '#' then finish? values p
      else none
    else
      match step? values p c with
      | some p' => valueFrom? values p' cs
      | none => none

def value? (values : Environment) (cs : List Char) : Option String :=
  if cs.isEmpty || cs.head? = some '#' then some "" else valueFrom? values {} cs

/-! ## Loading -/

structure State where
  environment : Environment
  entries : Environment

def State.values (s : State) : Environment := s.environment ++ s.entries

def State.enter (name value : String) (s : State) : State :=
  ⟨if (s.environment.lookup name).isSome then s.environment else s.environment ++ [(name, value)],
    (name, value) :: s.entries⟩

def lineStep? (s : State) (line : List Char) : Option State :=
  let cs := skipBlank line
  if cs.isEmpty || cs.head? = some '#' then some s
  else
    match split? cs with
    | none => none
    | some (name, rest) =>
      (value? s.values rest).map fun v => s.enter (String.ofList name) v

def applyLines (s : State) : List (List Char) → State × Bool
  | [] => (s, true)
  | l :: ls =>
    match lineStep? s l with
    | some s' => applyLines s' ls
    | none => (s, false)

def load (environment : Environment) (text : String) : Environment × Bool :=
  let (ls, complete) := lines [] .none (physicalLines text.toList)
  let (s, ok) := applyLines ⟨environment, []⟩ ls
  (s.environment, ok && complete)

end FleetControl.DotEnv
