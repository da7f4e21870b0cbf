import ClusterFleet.Cluster.Codec
import ClusterFleet.Program
import ClusterFleet.Text.Base64

namespace ClusterFleet.Secret
open Json

/-- A value in base 64, none standing for the empty one; bytes that are no text are replaced. -/
def value? : Json → Option String
  | .null => some ""
  | .str s => (Text.Base64.decode? s.toList).map Text.Utf8.decodeLossy
  | _ => none

def tableOf? (decode : Json → Option String) : Json → Option (Table String)
  | .null => some []
  | .obj members =>
    members.foldlM (fun t m => do return Table.insert m.1 (← decode m.2) t) ([] : Table String)
  | _ => none

def constant (expected : String) (j : Json) : Option Unit :=
  if j == .str expected then some () else none

def unlessNull (c : Check) (j : Json) : Option Unit :=
  if j.isNull then some () else (c j).map fun _ => ()

structure Reading where
  data : Table String := []
  plain : Table String := []

def addMember (p : Reading) (m : Member) : Option Reading :=
  match m.1 with
  | "apiVersion" => (constant "v1" m.2).map fun _ => p
  | "kind" => (constant "Secret" m.2).map fun _ => p
  | "data" => (tableOf? value? m.2).map ({ p with data := · })
  | "stringData" => (tableOf? asString? m.2).map ({ p with plain := · })
  | "immutable" => (unlessNull Check.flag m.2).map fun _ => p
  | "type" => (unlessNull Check.text m.2).map fun _ => p
  | "metadata" => (unlessNull Metadata.form m.2).map fun _ => p
  | _ => some p

/-- Values in base 64, over which plain ones have precedence. -/
def ofJson? : Json → Option SecretData
  | .obj members => do
    let p ← members.foldlM addMember {}
    return p.plain.union p.data
  | _ => none

end ClusterFleet.Secret
