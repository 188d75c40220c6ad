import FleetControl.Fault
import FleetControl.Text.Blank
import FleetControl.Text.Split

/-!
Checks on the fields of a request. The findings on a request's own fields are reported together, by
field name; a finding inside a nested record makes the request invalid without being listed.
-/

namespace FleetControl

structure Objection where
  code : String
  message : Option String
  deriving DecidableEq, Repr

structure Findings where
  direct : List (String × Objection)
  nested : Bool
  deriving DecidableEq, Repr

namespace Findings

def clean : Findings := ⟨[], false⟩

def isClean (f : Findings) : Bool := f.direct.isEmpty && !f.nested

def both (f g : Findings) : Findings := ⟨f.direct ++ g.direct, f.nested || g.nested⟩

instance : Append Findings := ⟨both⟩

/-- Of the findings on a nested record only their presence matters. -/
def inside (f : Findings) : Findings := ⟨[], !f.isClean⟩

def ofField (name : String) : Option Objection → Findings
  | none => clean
  | some o => ⟨[(name, o)], false⟩

def line (finding : String × Objection) : String :=
  finding.1 ++ ": " ++ finding.2.message.getD "Invalid value"

def fault (f : Findings) : Fault :=
  let sorted := f.direct.mergeSort fun a b => decide (a.1 ≤ b.1)
  .illegalParameter ("Validation failed: " ++ Text.joinWith "; " (sorted.map line))
    (sorted.head?.map Prod.fst)

def refusal? (f : Findings) : Option Fault := if f.isClean then none else some f.fault

end Findings

namespace Validation

def range (low high : Option Int) (message : Option String) (n : Int) : Option Objection :=
  if low.all (· ≤ n) && high.all (n ≤ ·) then none else some ⟨"range", message⟩

def length (low high : Option Nat) (message : Option String) (s : String) : Option Objection :=
  if low.all (· ≤ s.length) && high.all (s.length ≤ ·) then none else some ⟨"length", message⟩

def isEntityName (s : String) : Bool :=
  match s.toList with
  | [] => false
  | c :: cs => c.isAlphanum && cs.length ≤ 63 && cs.all fun d => d.isAlphanum || d = '-' || d = '_'

def entityName (s : String) : Option Objection :=
  if isEntityName s then none
  else some ⟨"invalid_name", some "must be 1-64 characters of letters, digits, '-' or '_'"⟩

def emailList (entries : List String) : Option Objection :=
  if entries.all fun e => e.toList.contains '@' && !Text.allBlank e then none
  else some ⟨"invalid_mail_list", some "every entry must be an email address"⟩

end Validation
end FleetControl
