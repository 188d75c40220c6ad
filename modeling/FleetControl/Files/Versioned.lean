import FleetControl.Json.Codec

/-!
Files for the load balancers. Each carries the version it was exported under.
-/

namespace FleetControl

class Versioned (α : Type) where
  version : α → String
  setVersion : String → α → α

end FleetControl
