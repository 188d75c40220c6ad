/-!
Command lines as data: a command has options, positional values and subcommands. Help texts are
derived from that.
-/

namespace FleetControl.CommandLine

inductive OptionKind where
  | flag
  | text
  | path
  | help
  | version
  deriving DecidableEq, Repr

structure OptionSpec where
  long : String
  short : Option Char := none
  kind : OptionKind := .flag
  inherited : Bool := false
  /-- Options are listed by rank; those of one rank by their letter, or by name without one. -/
  rank : Nat
  about : String
  deriving DecidableEq, Repr

structure Positional where
  name : String
  about : String

inductive Command where
  | mk (name about : String) (options : List OptionSpec) (positionals : List Positional)
      (subcommands : List Command)

namespace OptionSpec

def takesValue (o : OptionSpec) : Bool :=
  match o.kind with
  | .text | .path => true
  | _ => false

def placeholder (name : String) : String :=
  String.ofList (name.toList.map fun c => if c = '-' then '_' else c.toUpper)

def form (o : OptionSpec) : String :=
  "--" ++ o.long ++ if o.takesValue then " <" ++ placeholder o.long ++ ">" else ""

def sortKey (o : OptionSpec) : String :=
  match o.short with
  | some c => String.ofList [c.toLower, if c.isLower then '0' else '1']
  | none => o.long

def precedes (a b : OptionSpec) : Bool :=
  a.rank < b.rank || (a.rank = b.rank && a.sortKey ≤ b.sortKey)

end OptionSpec

namespace Command

def name : Command → String
  | mk n _ _ _ _ => n

def about : Command → String
  | mk _ a _ _ _ => a

def options : Command → List OptionSpec
  | mk _ _ os _ _ => os

def positionals : Command → List Positional
  | mk _ _ _ ps _ => ps

def subcommands : Command → List Command
  | mk _ _ _ _ cs => cs

def helpOption : OptionSpec := ⟨"help", some 'h', .help, false, 999, "Print help"⟩

def versionOption : OptionSpec := ⟨"version", some 'V', .version, false, 999, "Print version"⟩

def helpCommand : Command :=
  mk "help" "Print this message or the help of the given subcommand(s)" []
    [⟨"[COMMAND]...", "Print help for the subcommand(s)"⟩] []

def subcommand? (c : Command) (name : String) : Option Command :=
  (c.subcommands.find? (·.name = name)).map fun
    | mk n a os ps cs => mk n a (os ++ c.options.filter (·.inherited)) ps cs

def hasHelp (c : Command) : Bool := !c.subcommands.isEmpty

def long? (c : Command) (name : String) : Option OptionSpec := c.options.find? (·.long = name)

def short? (c : Command) (letter : Char) : Option OptionSpec :=
  c.options.find? (·.short = some letter)

/-! ## Help -/

def padded (width : Nat) (s : String) : String := s ++ String.ofList (List.replicate (width - s.length) ' ')

def widest (entries : List (String × String)) : Nat := (entries.map (·.1.length)).foldl max 2

def block (heading : String) (entries : List (String × String)) : List String :=
  if entries.isEmpty then []
  else "" :: heading :: entries.map fun (a, b) => "  " ++ padded (widest entries + 2) a ++ b

def optionEntry (o : OptionSpec) : String × String :=
  ((match o.short with | some c => "-" ++ String.singleton c ++ ", " | none => "    ") ++ o.form, o.about)

def usage (path : String) (c : Command) : String :=
  "Usage: " ++ path ++ (if c.options.isEmpty then "" else " [OPTIONS]") ++
    String.join (c.positionals.map fun p => " " ++ p.name) ++
    (if c.subcommands.isEmpty then "" else " <COMMAND>")

def commandEntries (c : Command) : List (String × String) :=
  if c.hasHelp then (c.subcommands ++ [helpCommand]).map fun s => (s.name, s.about) else []

def help (path : String) (c : Command) : List String :=
  [c.about, "", usage path c] ++ block "Commands:" (commandEntries c) ++
    block "Arguments:" (c.positionals.map fun p => (p.name, p.about)) ++
    block "Options:" ((c.options.mergeSort OptionSpec.precedes).map optionEntry)

end Command
end FleetControl.CommandLine
