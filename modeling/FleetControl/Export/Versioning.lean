import FleetControl.Files.Versioned
import FleetControl.Store.Work

/-!
Exports under version control. A freshly generated file is signed with a zero version and compared
with the last row of its topic's ledger: equal content keeps its version, other content gets a newly
minted one and a new row. All of this happens in one unit of work under the topic's lock.
-/

namespace FleetControl.Export

open Store Work

/-- What to put into a topic's file. Generating only reads. -/
structure Exporter (α : Type) where
  topic : String
  generate : Work α

def signature {α : Type} [Versioned α] [Json.Encode α] (file : α) : String :=
  Version.sign (encode (Versioned.setVersion Version.zero file))

def chooseVersion (now : Instant) (topic signature : String) (latest : Option ConfigVersion) :
    Work String :=
  match latest with
  | some last => if last.signature = signature then .done last.version else mintRow (some last.version)
  | none => mintRow none
where
  mintRow (last : Option String) : Work String := do
    let version ← ofExcept ((Version.mint now last).mapError Version.MintFailure.fault)
    ask (.appendVersion ⟨topic, signature, version, now⟩)
    return version

def exportFile {α : Type} [Versioned α] [Json.Encode α] (now : Instant) (e : Exporter α) :
    Operation α :=
  .update do
    ask (.lockTopic e.topic)
    let file ← e.generate
    let latest ← ask (.latestVersion e.topic)
    let version ← chooseVersion now e.topic (signature file) latest
    return Versioned.setVersion version file

def ifChanged {α : Type} [Versioned α] (last : Option String) (file : α) : Option α :=
  if last = some (Versioned.version file) then none else some file

def exportIfChanged {α : Type} [Versioned α] [Json.Encode α] (now : Instant) (e : Exporter α)
    (last : Option String) : Operation (Option α) :=
  (exportFile now e).map (ifChanged last)

def latestVersion (topic : String) : Operation (Option ConfigVersion) :=
  .query (ask (.latestVersion topic))

def versionHistory (topic : String) : Operation (List ConfigVersion) :=
  .query (ask (.versionHistory topic))

end FleetControl.Export
