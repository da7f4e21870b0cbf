import ClusterFleet.Condition.Basic
import ClusterFleet.Json.Decode

namespace ClusterFleet

namespace Verdict

/-- By name, or as an object whose only member has that name and no value. -/
def ofJson? : Json → Option Verdict
  | .str s => ofName? s
  | .obj [(s, .null)] => ofName? s
  | _ => none

def toJson (v : Verdict) : Json := .str v.name

end Verdict

namespace Condition

def fieldNames : List String :=
  ["type", "status", "reason", "message", "lastTransitionTime", "lastUpdatedTime"]

def ofJson? (j : Json) : Option Condition := do
  let r ← Json.Record.ofJson? fieldNames j
  return {
    aspect := .ofName (← r.required "type" Json.asString?)
    verdict := ← r.required "status" Verdict.ofJson?
    reason := ← r.optional "reason" Json.asString?
    message := ← r.optional "message" Json.asString?
    transitioned := ← r.optional "lastTransitionTime" Json.asString?
    updated := ← r.optional "lastUpdatedTime" Json.asString? }

/-- All six members, unset ones as `null`. -/
def toJson (c : Condition) : Json :=
  .obj [
    ("type", .str c.aspect.name),
    ("status", c.verdict.toJson),
    ("reason", .ofOption .str c.reason),
    ("message", .ofOption .str c.message),
    ("lastTransitionTime", .ofOption .str c.transitioned),
    ("lastUpdatedTime", .ofOption .str c.updated)]

def listOfJson? : Json → Option (List Condition) := Json.listOf? ofJson?

def listToJson (cs : List Condition) : Json := .arr (cs.map toJson)

end Condition

namespace Status

/-- Without `conditions` there are none; `null` is no list. -/
def ofJson? (j : Json) : Option Status := do
  let r ← Json.Record.ofJsonFrom? 0 ["conditions"] j
  return ⟨← r.withDefault "conditions" [] Condition.listOfJson?⟩

def toJson (s : Status) : Json := .obj [("conditions", Condition.listToJson s.conditions)]

end Status
end ClusterFleet
