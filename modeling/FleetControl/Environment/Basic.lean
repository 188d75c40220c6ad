/-!
The environment of a process: names and values of its variables.
-/

namespace FleetControl

abbrev Environment := List (String × String)

end FleetControl
