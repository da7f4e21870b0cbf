import ClusterFleet.Json.Basic

namespace ClusterFleet.Json

def membersOf : Json → List Member
  | .obj members => members
  | _ => []

mutual
/-- A member of the patch replaces the one of its name, `null` removes it, and objects are merged
member by member (RFC 7396). -/
def mergePatch (target : Json) : Json → Json
  | .obj patch => .obj (mergeMembers (membersOf target) patch)
  | patch => patch

def mergeMembers (target : List Member) : List Member → List Member
  | [] => target
  | (k, v) :: rest =>
    let value := mergePatch ((lastMember k target).getD .null) v
    mergeMembers (if v.isNull then dropMember k target else setMember k value target) rest
end

end ClusterFleet.Json
