import FleetControl.Export.Generate

/-!
Exports by the name of their topic. There is one topic for each kind of file, and one for the split
of traffic at each BFE cluster.
-/

namespace FleetControl.Export

inductive Topic where
  | routeRule | hostTable | clusterTable | instanceTable | certificate
  | gslb (bfe : String)
  deriving DecidableEq, Repr

namespace Topic

def fixed : List (String × Topic) :=
  [("route_rule", routeRule), ("host_table", hostTable), ("cluster_table", clusterTable),
    ("instance_table", instanceTable), ("certificate", certificate)]

def ofName? (name : String) : Option Topic :=
  match fixed.lookup name with
  | some t => some t
  | none =>
    match "gslb.".toList.isPrefixOf? name.toList with
    | some (c :: cs) => some (gslb (String.ofList (c :: cs)))
    | _ => none

end Topic

def unknownTopic (name : String) : Fault :=
  .onField ("Unknown export topic '" ++ name ++ "'; expected one of " ++
    Text.joinWith ", " (Topic.fixed.map Prod.fst) ++ " or gslb.<bfe cluster>") "topic"

def asJson {α : Type} [Json.Encode α] (op : Store.Operation (Option α)) :
    Store.Operation (Option Json) :=
  op.map (·.map encode)

def exportKnown (defaultProduct : Option String) (now : Instant) (last : Option String) :
    Topic → Store.Operation (Option Json)
  | .routeRule => asJson (exportIfChanged now routeTable last)
  | .hostTable => asJson (exportIfChanged now (hostTable defaultProduct) last)
  | .clusterTable => asJson (exportIfChanged now clusterTable last)
  | .instanceTable => asJson (exportIfChanged now instanceTable last)
  | .certificate => asJson (exportIfChanged now serverCerts last)
  | .gslb bfe => asJson (exportIfChanged now (gslb bfe) last)

def exportTopic (defaultProduct : Option String) (now : Instant) (topic : String)
    (last : Option String) : Store.Operation (Option Json) :=
  match Topic.ofName? topic with
  | some t => exportKnown defaultProduct now last t
  | none => .refuse (unknownTopic topic)

end FleetControl.Export
