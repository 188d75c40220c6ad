import FleetControl.Toml.Scalar
import FleetControl.Toml.Token
import FleetControl.Toml.Tree

/-!
From TOML text to the value that it describes. Values nest, and are read with as much fuel as there
are tokens.
-/

namespace FleetControl.Toml

open Token

abbrev Read (α : Type) := List Token → Option (α × List Token)

def skipBlank : List Token → List Token
  | .blank _ :: ts => ts
  | ts => ts

def skipSpace : List Token → List Token
  | .blank _ :: ts => skipSpace ts
  | .newline :: ts => skipSpace ts
  | ts => ts

inductive KeyPart where
  | name (s : String)
  | dot

def isKeyChar (c : Char) : Bool := isWordChar c && c != '.' && c != '+' && c != ':'

def wordParts? (cs : List Char) : Option (List KeyPart) :=
  let names := Text.splitOn '.' cs
  if names.all (·.all isKeyChar) then
    let parts := names.map fun n => if n.isEmpty then [] else [KeyPart.name (String.ofList n)]
    some ([KeyPart.dot].intercalate parts)
  else none

def keyParts : List Token → Option (List KeyPart × List Token)
  | .word cs :: ts => do
    let parts ← wordParts? cs
    let (more, rest) ← keyParts ts
    some (parts ++ more, rest)
  | .str s false :: ts => (keyParts ts).map fun (more, rest) => (.name s :: more, rest)
  | .blank _ :: ts => keyParts ts
  | ts => some ([], ts)

def names? : List KeyPart → Option (List String)
  | [.name s] => some [s]
  | .name s :: .dot :: rest => (names? rest).map (s :: ·)
  | _ => none

def key : Read (List String) := fun ts => do
  let (parts, rest) ← keyParts ts
  some (← names? parts, rest)

def wordValue (cs : List Char) (ts : List Token) : Option (Json × List Token) :=
  let alone := (scalar? cs).map (·, ts)
  match ts with
  | .blank [' '] :: .word time :: rest =>
    if isDate cs then (scalar? (cs ++ 'T' :: time)).map (·, rest) else alone
  | _ => alone

mutual

def value : (fuel : Nat) → Read Json
  | 0, _ => none
  | fuel + 1, ts =>
    match skipBlank ts with
    | .str s _ :: rest => some (.str s, rest)
    | .word cs :: rest => wordValue cs rest
    | .openBracket :: rest => (items fuel (skipSpace rest)).map fun (js, rest) => (.arr js, rest)
    | .openBrace :: rest =>
      match skipBlank rest with
      | .closeBrace :: rest => some (.obj [], rest)
      | rest => (members fuel [] rest).map fun (t, rest) => (t.toJson, rest)
    | _ => none

def items : (fuel : Nat) → Read (List Json)
  | 0, _ => none
  | fuel + 1, ts =>
    match ts with
    | .closeBracket :: rest => some ([], rest)
    | _ => do
      let (j, rest) ← value fuel ts
      match skipSpace rest with
      | .comma :: rest =>
        let (js, rest) ← items fuel (skipSpace rest)
        some (j :: js, rest)
      | .closeBracket :: rest => some ([j], rest)
      | _ => none

def members : (fuel : Nat) → Table → Read Table
  | 0, _, _ => none
  | fuel + 1, t, ts => do
    let (path, rest) ← key ts
    let .equals :: rest := rest | none
    let (j, rest) ← value fuel rest
    let t ← t.insertAt path j
    match skipBlank rest with
    | .comma :: rest => members fuel t rest
    | .closeBrace :: rest => some (t, rest)
    | _ => none

end

inductive Entry where
  | table (path : List String)
  | arrayItem (path : List String)
  | pair (path : List String) (j : Json)

def entry : Read Entry := fun ts => do
  match ts with
  | .openBracket :: .openBracket :: rest =>
    let (path, rest) ← key rest
    let .closeBracket :: .closeBracket :: rest := rest | none
    some (.arrayItem path, rest)
  | .openBracket :: rest =>
    let (path, rest) ← key rest
    let .closeBracket :: rest := rest | none
    some (.table path, rest)
  | _ =>
    let (path, rest) ← key ts
    let .equals :: rest := rest | none
    let (j, rest) ← value ts.length rest
    some (.pair path j, rest)

def entries : (fuel : Nat) → List Token → Option (List Entry)
  | 0, _ => none
  | fuel + 1, ts =>
    match skipSpace ts with
    | [] => some []
    | ts => do
      let (e, rest) ← entry ts
      match skipBlank rest with
      | [] => some [e]
      | .newline :: rest => (entries fuel rest).map (e :: ·)
      | _ => none

def build : (place : List String) → List Entry → Table → Option Table
  | _, [], t => some t
  | _, .table path :: es, t => do
    let (way, key) := Table.splitPath path
    build path es (← Table.descend false way (Table.defineTable key) t)
  | _, .arrayItem path :: es, t => do
    let (way, key) := Table.splitPath path
    build path es (← Table.descend false way (Table.appendTable key) t)
  | place, .pair path j :: es, t => do
    build place es (← Table.descend false place (Table.insertAt path j) t)

def ofText? (text : String) : Option Json := do
  let ts ← Token.ofText? text
  let es ← entries (ts.length + 1) ts
  (build [] es []).map Table.toJson

end FleetControl.Toml
