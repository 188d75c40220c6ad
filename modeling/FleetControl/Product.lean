import FleetControl.Id
import FleetControl.Validation

/-!
Products, the tenants of the fleet. Everything but the fleet's own deployment units and the
certificates belongs to exactly one product; the built-in one owns the load balancer's own pools.
-/

namespace FleetControl

structure Product where
  id : ProductId
  name : String
  description : String
  mailList : List String
  contact : List String
  deriving DecidableEq, Repr

namespace Product

def builtinId : ProductId := ⟨1⟩

def builtin : Product := ⟨builtinId, "BFE", "load balancer infrastructure", [], []⟩

def isBuiltin (p : Product) : Bool := p.id = builtinId

instance : Json.Encode Product where
  encode p := .obj [("id", encode p.id), ("name", encode p.name),
    ("description", encode p.description), ("mail_list", encode p.mailList),
    ("contact", encode p.contact)]

open Json.RecordReader in
instance : Json.Decode Product where
  decode? := Json.record? do
    return ⟨← required "id", ← required "name", ← required "description",
      ← required "mail_list", ← required "contact"⟩

structure Draft where
  name : String
  description : String
  mailList : List String
  contact : List String
  deriving DecidableEq, Repr

def Draft.withId (d : Draft) (id : ProductId) : Product :=
  ⟨id, d.name, d.description, d.mailList, d.contact⟩

open Json.RecordReader in
def Draft.ofJson? : Json → Option Draft :=
  Json.record? do
    return ⟨← required "name", ← defaulted "description" "", ← defaulted "mail_list" [],
      ← defaulted "contact" []⟩

def Draft.findings (d : Draft) : Findings :=
  .ofField "name" (Validation.entityName d.name) ++
  .ofField "description" (Validation.length none (some 1024) none d.description) ++
  .ofField "mail_list" (Validation.emailList d.mailList)

structure Change where
  description : Option String
  mailList : Option (List String)
  contact : Option (List String)
  deriving DecidableEq, Repr

open Json.RecordReader in
def Change.ofJson? : Json → Option Change :=
  Json.record? do
    return ⟨← optional "description", ← optional "mail_list", ← optional "contact"⟩

def Change.findings (c : Change) : Findings :=
  .ofField "description" (c.description.bind (Validation.length none (some 1024) none)) ++
  .ofField "mail_list" (c.mailList.bind Validation.emailList)

def Change.apply (c : Change) (p : Product) : Product :=
  { p with
    description := c.description.getD p.description
    mailList := c.mailList.getD p.mailList
    contact := c.contact.getD p.contact }

end Product
end FleetControl
