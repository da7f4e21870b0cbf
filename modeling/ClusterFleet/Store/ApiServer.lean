import ClusterFleet.Json.MergePatch
import ClusterFleet.Json.Parser
import ClusterFleet.Json.Transit
import ClusterFleet.Store.Resource
import ClusterFleet.Store.Secret

namespace ClusterFleet

def ApiStatus.ofJson? (j : Json) : Option ApiStatus := do
  let r ← Json.Record.ofJson? ["status", "message", "reason", "code"] j
  return {
    status := ← r.required "status" Json.asString?
    message := ← r.withDefault "message" "" Json.asString?
    reason := ← r.withDefault "reason" "" Json.asString?
    code := ← r.required "code" (Json.asNatBelow? 65536) }

def ApiStatus.unreadable (code : Nat) (body : String) : ApiStatus :=
  ⟨Http.statusText code, Text.quoted body, "Failed to parse error data", code⟩

namespace Http

/-- The text of an answer, and the JSON that it is. -/
structure Document where
  text : String
  json? : Option Json

def Document.ofJson (j : Json) : Document := ⟨j.compact, some j.sent⟩

namespace Answer

def refusal (code : Nat) (body : String) : ApiStatus :=
  ((Json.parse? body).bind ApiStatus.ofJson?).getD (ApiStatus.unreadable code body)

def document : Answer → Except StoreError Document
  | .failed => .error (@StoreError.unreachable "")
  | .response code body =>
    match Text.Utf8.decode? body with
    | none => .error (@StoreError.notText body)
    | some text =>
      if isErrorCode code then .error (.refused (refusal code text))
      else .ok ⟨text, Json.parse? text⟩

end Answer
end Http

/-- An answer laid out, for the next `times` requests if that is set. -/
structure CannedAnswer where
  answer : Http.Answer
  times : Option Nat

/-- The server keeps objects as they were given, counts revisions, and may have answers laid out
that it gives instead of its own. -/
structure ApiServer where
  /-- The namespace of the descriptors that are looked at. -/
  watched : String
  /-- By namespace and name. -/
  clusters : Table (Table Json) := []
  secrets : Table (Table Json) := []
  revision : Nat := 1
  canned : List (Verb × CannedAnswer) := []
  /-- The requests received, the last one first. -/
  received : List Http.Request := []

namespace ApiServer

def lookUp (ns name : String) (objects : Table (Table Json)) : Option Json :=
  ((objects.find? ns).getD []).find? name

def setObject (ns name : String) (j : Json) (objects : Table (Table Json)) :
    Table (Table Json) :=
  objects.insert ns (Table.insert name j ((objects.find? ns).getD []))

def eraseObject (ns name : String) (objects : Table (Table Json)) : Table (Table Json) :=
  objects.insert ns (Table.erase name ((objects.find? ns).getD []))

def metadataText? (key : String) (j : Json) : Option String :=
  ((j.field "metadata").field? key).bind Json.asString?

def withVersion (revision : Nat) : Json → Json
  | .obj members =>
    let metadata := Json.membersOf ((Json.lastMember "metadata" members).getD .null)
    let stamped := Json.setMember "resourceVersion" (.str (toString revision)) metadata
    .obj (Json.setMember "metadata" (.obj stamped) members)
  | j => j

def namespaceOf (s : ApiServer) (j : Json) : String :=
  (metadataText? "namespace" j).getD s.watched

def nameOf (j : Json) : String := (metadataText? "name" j).getD ""

def cluster? (s : ApiServer) (name : String) : Option Json := lookUp s.watched name s.clusters

/-- Begins a new revision, as every change does and every attempt at one. -/
def revise (s : ApiServer) : ApiServer := { s with revision := s.revision + 1 }

def store (s : ApiServer) (ns name : String) (j : Json) : ApiServer :=
  { s with clusters := setObject ns name (withVersion s.revision j) s.clusters }

def put (s : ApiServer) (j : Json) : ApiServer := s.revise.store (s.namespaceOf j) (nameOf j) j

def remove (s : ApiServer) (name : String) : ApiServer :=
  { s.revise with clusters := eraseObject s.watched name s.clusters }

def putSecret (s : ApiServer) (ns name : String) (j : Json) : ApiServer :=
  { s with secrets := setObject ns name j s.secrets }

def can (s : ApiServer) (v : Verb) (c : Option CannedAnswer) : ApiServer :=
  let others := s.canned.filter (·.1 ≠ v)
  match c with
  | some c => { s with canned := (v, c) :: others }
  | none => { s with canned := others }

/-- The answer laid out for a verb; it is used up by one. -/
def takeCanned (s : ApiServer) (v : Verb) : Option Http.Answer × ApiServer :=
  match s.canned.lookup v with
  | none => (none, s)
  | some ⟨a, none⟩ => (some a, s)
  | some ⟨_, some 0⟩ => (none, s.can v none)
  | some ⟨a, some (n + 1)⟩ => (some a, s.can v (some ⟨a, some n⟩))

def notFound (kind name : String) : StoreError :=
  .refused ⟨"Failure", kind ++ " \"" ++ name ++ "\" not found", "NotFound", 404⟩

def noSuchPage : StoreError := .refused (Http.Answer.refusal 404 "404 page not found")

def listObject (s : ApiServer) (ns : String) : Json :=
  .obj [
    ("apiVersion", .str apiVersion),
    ("kind", .str (clusterKind ++ "List")),
    ("metadata", .obj [("resourceVersion", .str (toString s.revision))]),
    ("items", .arr ((s.clusters.find? ns).getD []).values)]

def serve (s : ApiServer) (body : Option Json) : Resource → Except StoreError Json × ApiServer
  | .clusters ns => (.ok (s.listObject ns), s)
  | .cluster ns name =>
    match lookUp ns name s.clusters with
    | some j => (.ok j, s)
    | none => (.error (notFound Definition.resourceName name), s)
  | .clusterStatus ns name =>
    let s := s.revise
    match lookUp ns name s.clusters with
    | none => (.error (notFound Definition.resourceName name), s)
    | some j =>
      let s := s.store ns name (Json.mergePatch j (body.getD (.obj [])))
      (.ok ((lookUp ns name s.clusters).getD .null), s)
  | .secret ns name =>
    match lookUp ns name s.secrets with
    | some j => (.ok j, s)
    | none => (.error (notFound "secrets" name), s)

/-- Answers a request; an answer laid out goes before the server's own. -/
def answer (s : ApiServer) (q : Http.Request) : Except StoreError Http.Document × ApiServer :=
  let s := { s with received := q :: s.received }
  match Resource.ofRequest? q with
  | none => (.error noSuchPage, s)
  | some r =>
    match s.takeCanned r.verb with
    | (some a, s) => (a.document, s)
    | (none, s) =>
      let (result, s) := s.serve q.body r
      (result.map Http.Document.ofJson, s)

/-- Sends the request for a resource, unless it cannot be written. -/
def send (s : ApiServer) (r : Resource) (body : Option Json) :
    Except StoreError Http.Document × ApiServer :=
  match r.request? body with
  | none => (.error (@StoreError.unsendable r), s)
  | some q => s.answer q

def decode (v : Verb) (f : Json → Option α) (r : Except StoreError Http.Document) :
    Except StoreError α :=
  match r with
  | .error e => .error e
  | .ok document =>
    match document.json?.bind f with
    | some a => .ok a
    | none => .error (@StoreError.malformed v document.text)

/-- A refusal with the reason `NotFound` means that there is no such object. -/
def orAbsent : Except StoreError α → Except StoreError (Option α)
  | .ok a => .ok (some a)
  | .error (.refused s) => if s.reason = "NotFound" then .ok none else .error (.refused s)
  | .error e => .error e

def listMetadata : Json.Check :=
  Json.Check.object
    [("continue", Json.Check.text), ("remainingItemCount", Json.Check.integer),
      ("resourceVersion", Json.Check.text), ("selfLink", Json.Check.text)]

def listFields : List String := ["metadata", "items"]

/-- The items of a list; `null` is an empty one. Members beside them must be readable. -/
def items? : Json → Option (List Descriptor)
  | .obj members => do
    let r ← Json.Record.ofMembers? listFields members
    if !members.all fun (k, v) => listFields.contains k || v.isReadable then none
    let _ ← r.withDefault "metadata" .null listMetadata
    match ← r.get? "items" with
    | .null => return []
    | j => Json.listOf? Descriptor.ofJson? j
  | _ => none

def find (s : ApiServer) (name : String) : Except StoreError (Option Descriptor) × ApiServer :=
  if name = "" then (.error (@StoreError.unsendable (.cluster s.watched name)), s)
  else
    let (r, s) := s.send (.cluster s.watched name) none
    (orAbsent (decode .get Descriptor.ofJson? r), s)

def list (s : ApiServer) : Except StoreError (List Descriptor) × ApiServer :=
  let (r, s) := s.send (.clusters s.watched) none
  (decode .list items? r, s)

def statusPatch (st : Status) : Json := .obj [("status", st.toJson)]

def writeStatus (s : ApiServer) (name : String) (st : Status) :
    Except StoreError Unit × ApiServer :=
  if name = "" then (.error (@StoreError.unsendable (.clusterStatus s.watched name)), s)
  else
    let (r, s) := s.send (.clusterStatus s.watched name) (some (statusPatch st))
    ((decode .patch Descriptor.ofJson? r).map fun _ => (), s)

def secret (s : ApiServer) (ns name : String) :
    Except StoreError (Option SecretData) × ApiServer :=
  if name = "" then (.error (@StoreError.unsendable (.secret ns name)), s)
  else
    let (r, s) := s.send (.secret ns name) none
    (orAbsent (decode .secret Secret.ofJson? r), s)

end ApiServer
end ClusterFleet
