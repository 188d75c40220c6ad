import FleetControl.Sql.Session
import FleetControl.Store.Request

/-!
What statements do, told by their first words. All statements of a request are to begin with the same
word; none of them ends the transaction.
-/

namespace FleetControl

inductive Verb where
  | select | insert | update | delete | begin | commit
  deriving DecidableEq

namespace Verb

def word : Verb → String
  | select => "SELECT"
  | insert => "INSERT"
  | update => "UPDATE"
  | delete => "DELETE"
  | begin => "BEGIN"
  | commit => "COMMIT"

def all : List Verb := [select, insert, update, delete, begin, commit]

def firstWord (text : String) : List UInt8 := text.toUTF8.data.toList.takeWhile (· ≠ 32)

def ofText? (text : String) : Option Verb :=
  all.find? fun v => v.word.toUTF8.data.toList = firstWord text

end Verb

namespace Sql

def Statement.verb? (st : Statement) : Option Verb := Verb.ofText? st.text

theorem Statement.verb?_eq {text : String} {args : List Arg} (v : Verb)
    (h : Verb.ofText? text = some v) : Statement.verb? ⟨text, args⟩ = some v := h

end Sql

namespace Store

def Request.verb : Request → Verb
  | createProduct _ | createPool _ | createBfeCluster _ | createSubCluster _ | createCluster _
  | putLoadMatrix .. | createDomain _ | createRouteRules .. | createCertificate _
  | appendVersion _ => .insert
  | updateProduct _ | updatePoolInstances .. | updateSubCluster .. | bindSubClusters ..
  | unbindSubClusters _ | updateCluster _ | setDefaultCertificate _ => .update
  | deleteProduct _ | deletePool _ | deleteBfeCluster _ | deleteSubCluster _ | deleteCluster _
  | deleteLoadMatrix _ | deleteDomain _ | deleteRouteRules _ | deleteCertificate _ => .delete
  | _ => .select

theorem verb_ne_commit (r : Request) : r.verb ≠ .commit := by
  cases r <;> simp [Request.verb]

end Store
end FleetControl
