import ClusterFleet.Json.Number
import ClusterFleet.Json.Printer

namespace ClusterFleet.Json

mutual
/-- What arrives of a value that is sent as text: all of it as it was, except that the last bit of a
number of double precision may change. -/
def sent : Json → Json
  | .real d => (ofWord? (realText d).toList).getD .unreadable
  | .arr items => .arr (sentItems items)
  | .obj members => .obj (sentMembers members)
  | j => j

def sentItems : List Json → List Json
  | [] => []
  | j :: rest => sent j :: sentItems rest

def sentMembers : List Member → List Member
  | [] => []
  | (k, v) :: rest => (k, sent v) :: sentMembers rest
end

end ClusterFleet.Json
