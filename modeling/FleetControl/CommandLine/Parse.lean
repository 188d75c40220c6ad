import FleetControl.CommandLine.Grammar

/-!
Reading a command line by a grammar. A value that an option still waits for is checked when the next
option or value comes, or else at the end; a subcommand is read before its parent's options are.
-/

namespace FleetControl.CommandLine

inductive Refusal where
  | help (lines : List String)
  | version
  | nothingGiven (lines : List String)
  | missingSubcommand
  | invalidSubcommand (name : String)
  | unknownArgument (arg : String)
  | invalidValue (option : String)
  | conflict (option : String)
  | unneededValue (option : String)
  | missingArgument (name : String)
  deriving DecidableEq, Repr

structure Parsed where
  path : List String
  /-- Flags have an empty value. -/
  given : List (String × String)
  positionals : List String
  deriving DecidableEq, Repr

structure Level where
  path : List String
  /-- Last first. -/
  given : List (String × String) := []
  positionals : List String := []
  pending : Option (OptionSpec × Option String) := none
  /-- Only values follow, after `--`. -/
  trailing : Bool := false

namespace Level

def title (s : Level) : String := String.intercalate " " s.path

def give (o : OptionSpec) (value : String) (s : Level) : Except Refusal Level :=
  if (s.given.lookup o.long).isSome then .error (.conflict o.form)
  else if o.kind = .path && value = "" then .error (.invalidValue o.form)
  else .ok { s with given := (o.long, value) :: s.given }

def settle (s : Level) : Except Refusal Level :=
  match s.pending with
  | none => .ok s
  | some (o, none) => .error (.invalidValue o.form)
  | some (o, some v) => give o v { s with pending := none }

def isWaiting (s : Level) : Bool :=
  match s.pending with
  | some (_, none) => true
  | _ => false

def useFlag (c : Command) (o : OptionSpec) (s : Level) : Except Refusal Level := do
  let s ← s.settle
  match o.kind with
  | .help => .error (.help (c.help s.title))
  | .version => .error .version
  | _ => s.give o ""

def useValue (o : OptionSpec) (value : Option String) (s : Level) : Except Refusal Level := do
  let s ← s.settle
  match value with
  | some v => s.give o v
  | none => .ok { s with pending := some (o, none) }

def splitEquals : List Char → List Char × Option (List Char)
  | [] => ([], none)
  | c :: cs =>
    if c = '=' then ([], some cs)
    else
      let (a, b) := splitEquals cs
      (c :: a, b)

def long (c : Command) (chars : List Char) (s : Level) : Except Refusal Level :=
  let (name, value) := splitEquals chars
  match c.long? (String.ofList name) with
  | none => .error (.unknownArgument ("--" ++ String.ofList name))
  | some o =>
    if o.takesValue then s.useValue o (value.map String.ofList)
    else if value.isSome then .error (.unneededValue o.form)
    else s.useFlag c o

/-- Letters behind one hyphen. What follows the letter of an option with a value is its value. -/
def shorts (c : Command) : List Char → Level → Except Refusal Level
  | [], s => .ok s
  | letter :: rest, s =>
    match c.short? letter with
    | none => .error (.unknownArgument ("-" ++ String.singleton letter))
    | some o =>
      if o.takesValue then
        match rest with
        | [] => s.useValue o none
        | '=' :: value => s.useValue o (some (String.ofList value))
        | value => s.useValue o (some (String.ofList value))
      else do shorts c rest (← s.useFlag c o)

def positional (c : Command) (arg : String) (s : Level) : Except Refusal Level :=
  if s.positionals.length < c.positionals.length then do
    let s ← s.settle
    .ok { s with positionals := arg :: s.positionals }
  else if c.subcommands.isEmpty || (s.trailing && ((c.subcommand? arg).isSome || arg = "help")) then
    .error (.unknownArgument arg)
  else .error (.invalidSubcommand arg)

def argument (c : Command) (arg : String) (s : Level) : Except Refusal Level :=
  if s.trailing then s.positional c arg
  else
    match arg.toList with
    | ['-', '-'] => .ok { s with trailing := true }
    | '-' :: '-' :: chars => s.long c chars
    | '-' :: letter :: chars => s.shorts c (letter :: chars)
    | _ =>
      match s.pending with
      | some (o, none) => .ok { s with pending := some (o, some arg) }
      | _ => s.positional c arg

def finish (c : Command) (sub : Option Parsed) (s : Level) : Except Refusal Parsed := do
  let s ← s.settle
  match sub with
  | some p => .ok ⟨c.name :: p.path, p.given ++ s.given, p.positionals⟩
  | none =>
    if !c.subcommands.isEmpty then
      if s.given.isEmpty then .error (.nothingGiven (c.help s.title)) else .error .missingSubcommand
    else
      match c.positionals[s.positionals.length]? with
      | some p => .error (.missingArgument p.name)
      | none => .ok ⟨[c.name], s.given, s.positionals.reverse⟩

end Level

def helpFor (c : Command) (path : List String) : List String → Refusal
  | [] => .help (c.help (String.intercalate " " path))
  | name :: names =>
    match c.subcommand? name with
    | some sub => helpFor sub (path ++ [name]) names
    | none =>
      if c.hasHelp && name = "help" then helpFor Command.helpCommand (path ++ [name]) names
      else .invalidSubcommand name

def parseFrom (c : Command) (s : Level) : List String → Except Refusal Parsed
  | [] => s.finish c none
  | arg :: rest =>
    if s.trailing || s.isWaiting then do parseFrom c (← s.argument c arg) rest
    else
      match c.subcommand? arg with
      | some sub => do
        let p ← parseFrom sub { path := s.path ++ [arg] } rest
        s.finish c (some p)
      | none =>
        if c.hasHelp && arg = "help" then .error (helpFor c s.path rest)
        else do parseFrom c (← s.argument c arg) rest

def parse (c : Command) (args : List String) : Except Refusal Parsed :=
  parseFrom c { path := [c.name] } args

end FleetControl.CommandLine
