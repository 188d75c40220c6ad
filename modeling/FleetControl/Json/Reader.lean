import FleetControl.Json.Token

/-!
From tokens to a value. Open arrays and objects are kept on a stack, innermost first; no more than
`maxDepth` of them may be open at once.
-/

namespace FleetControl.Json

def maxDepth : Nat := 127

inductive Frame where
  | array (items : List Json)
  | object (members : List (String × Json))
  | field (members : List (String × Json)) (name : String)

inductive Awaits where
  | value | firstItem | firstName | name | colon | separator
  | finished (j : Json)

namespace Reader

abbrev State := Awaits × List Frame

def place (j : Json) : List Frame → Option State
  | [] => some (.finished j, [])
  | .array items :: rest => some (.separator, .array (j :: items) :: rest)
  | .field members name :: rest => some (.separator, .object ((name, j) :: members) :: rest)
  | .object _ :: _ => none

def enter (s : State) (stack : List Frame) : Option State :=
  if stack.length < maxDepth then some s else none

def beginValue (t : Token) (stack : List Frame) : Option State :=
  match t with
  | .scalar j => place j stack
  | .str s => place (.str s) stack
  | .openArray => enter (.firstItem, .array [] :: stack) stack
  | .openObject => enter (.firstName, .object [] :: stack) stack
  | _ => none

def close (t : Token) (stack : List Frame) : Option State :=
  match t, stack with
  | .closeArray, .array items :: rest => place (.arr items.reverse) rest
  | .closeObject, .object members :: rest => place (.obj members.reverse) rest
  | _, _ => none

def beginName (t : Token) (stack : List Frame) : Option State :=
  match t, stack with
  | .str s, .object members :: rest => some (.colon, .field members s :: rest)
  | _, _ => none

def step : State → Token → Option State
  | (.value, stack), t => beginValue t stack
  | (.firstItem, stack), .closeArray => close .closeArray stack
  | (.firstItem, stack), t => beginValue t stack
  | (.firstName, stack), .closeObject => close .closeObject stack
  | (.firstName, stack), t => beginName t stack
  | (.name, stack), t => beginName t stack
  | (.colon, stack), .colon => some (.value, stack)
  | (.colon, _), _ => none
  | (.separator, .array items :: rest), .comma => some (.value, .array items :: rest)
  | (.separator, .object members :: rest), .comma => some (.name, .object members :: rest)
  | (.separator, stack), t => close t stack
  | (.finished _, _), _ => none

end Reader

def ofTokens? (ts : List Token) : Option Json :=
  match ts.foldlM Reader.step (.value, []) with
  | some (.finished j, _) => some j
  | _ => none

def parse? (cs : List Char) : Option Json := (Token.scan .between cs).bind ofTokens?

def ofText? (s : String) : Option Json := parse? s.toList

end FleetControl.Json
