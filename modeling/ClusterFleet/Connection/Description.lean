import ClusterFleet.Connection.Basic
import ClusterFleet.Text.Quoted

namespace ClusterFleet.Description
open Text

inductive Part where
  | word (s : String)
  /-- A name in front of a part in parentheses. -/
  | wrapped (name : String) (part : Part)
  | list (parts : List Part)
  /-- Named fields; `more` tells that there are others that do not show. -/
  | record (name : String) (fields : List (String × Part)) (more : Bool)

namespace Part

def text (s : String) : Part := .word (quoted s)

def flag (b : Bool) : Part := .word (if b then "true" else "false")

def optional (f : α → Part) : Option α → Part
  | none => .word "None"
  | some a => .wrapped "Some" (f a)

mutual
def oneLine : Part → String
  | .word s => s
  | .wrapped name part => name ++ "(" ++ part.oneLine ++ ")"
  | .list parts => "[" ++ ", ".intercalate (oneLines parts) ++ "]"
  | .record name fields more =>
    name ++ " \x7b " ++ ", ".intercalate (oneLineFields fields ++ if more then [".."] else []) ++
      " \x7d"

def oneLines : List Part → List String
  | [] => []
  | p :: ps => p.oneLine :: oneLines ps

def oneLineFields : List (String × Part) → List String
  | [] => []
  | (name, p) :: ps => (name ++ ": " ++ p.oneLine) :: oneLineFields ps
end

def closing (depth : Nat) (mark : String) : String :=
  String.ofList (List.replicate (4 * depth) ' ') ++ mark

def indented (depth : Nat) (s : String) : String := closing depth s ++ "\n"

mutual
/-- With one field or item a line, the first line being indented by whoever asks. -/
def manyLines (depth : Nat) : Part → String
  | .word s => s
  | .wrapped name part =>
    name ++ "(\n" ++ indented (depth + 1) (part.manyLines (depth + 1) ++ ",") ++
      closing depth ")"
  | .list parts =>
    if parts.isEmpty then "[]"
    else "[\n" ++ String.join (itemLines (depth + 1) parts) ++ closing depth "]"
  | .record name fields more =>
    name ++ " \x7b\n" ++ String.join (fieldLines (depth + 1) fields) ++
      (if more then indented (depth + 1) ".." else "") ++ closing depth "\x7d"

def itemLines (depth : Nat) : List Part → List String
  | [] => []
  | p :: ps => indented depth (p.manyLines depth ++ ",") :: itemLines depth ps

def fieldLines (depth : Nat) : List (String × Part) → List String
  | [] => []
  | (name, p) :: ps =>
    indented depth (name ++ ": " ++ p.manyLines depth ++ ",") :: fieldLines depth ps
end

def pretty (p : Part) : String := p.manyLines 0

end Part

def ofRestConfig (c : RestConfig) : Part :=
  .record "RestConfig" [
    ("host", .text c.host),
    ("insecure", .flag c.insecure),
    ("ca_data", .optional (fun _ => .text "<set>") c.caData),
    ("bearer_token", .text "<redacted>")] false

def ofAspect : Aspect → Part
  | .ready => .word "Ready"
  | .offline => .word "Offline"
  | .other name => .wrapped "Other" (.text name)

def ofCondition (c : Condition) : Part :=
  .record "Condition" [
    ("type_", ofAspect c.aspect),
    ("status", .word c.verdict.name),
    ("reason", .optional .text c.reason),
    ("message", .optional .text c.message),
    ("last_transition_time", .optional .text c.transitioned),
    ("last_updated_time", .optional .text c.updated)] false

def ofStatus (s : Status) : Part :=
  .record "ToolchainClusterStatus" [("conditions", .list (s.conditions.map ofCondition))] false

/-- Tokens and certificates do not show, and neither does the client. -/
def ofConnection (c : Connection) : Part :=
  .record "ClusterConnection" [
    ("name", .text c.name),
    ("operator_namespace", .text c.operatorNamespace),
    ("owner_cluster_name", .text c.owner),
    ("api_endpoint", .text c.apiEndpoint),
    ("secret_name", .text c.secretName),
    ("rest_config", ofRestConfig c.restConfig),
    ("status", ofStatus c.status)] true

end ClusterFleet.Description
