import ClusterFleet.Registration.Watch
import ClusterFleet.Store.ApiServer

namespace ClusterFleet

inductive WatchEvent where
  | applied (d : Descriptor)
  | deleted (d : Descriptor)
  | bookmark
  /-- An error; some make the stream useless. -/
  | failed (mustList : Bool)

namespace WatchEvent

def isVersioned (d : Descriptor) : Bool :=
  match Json.lastMember "resourceVersion" d.metadata.carried with
  | some (.str v) => v ≠ ""
  | _ => false

/-- An event about an object; without a version there is no way to go on from it. -/
def aboutObject (event : Descriptor → WatchEvent) (j : Json) : WatchEvent :=
  match Descriptor.ofJson? j with
  | some d => if isVersioned d then event d else .failed true
  | none => .failed false

/-- Versions and annotations; the latter may be missing. -/
def isBookmarkMetadata (j : Json) : Bool :=
  Option.isSome do
    let r ← Json.Record.ofJsonFrom? 1 ["resourceVersion", "annotations"] j
    let _ ← r.required "resourceVersion" Json.asString?
    r.withDefault "annotations" .null (Json.Check.mapOf Json.Check.text)

def isBookmark (j : Json) : Bool :=
  ((j.field "apiVersion").asString?).isSome && ((j.field "kind").asString?).isSome &&
    isBookmarkMetadata (j.field "metadata")

/-- By name, or as an object whose only member has that name and no value. -/
def typeName? : Json → Option String
  | .str s => some s
  | .obj [(s, .null)] => some s
  | _ => none

def ofTypeAndObject (type object : Json) : WatchEvent :=
  match typeName? type with
  | some "ADDED" | some "MODIFIED" => aboutObject .applied object
  | some "DELETED" => aboutObject .deleted object
  | some "BOOKMARK" => if isBookmark object then .bookmark else .failed false
  | some "ERROR" =>
    match ApiStatus.ofJson? object with
    | some s => .failed (s.code = 410)
    | none => .failed false
  | _ => .failed false

/-- An event is a record. What cannot be read counts as an error. -/
def ofJson (j : Json) : WatchEvent :=
  let event : Option WatchEvent := do
    let r ← Json.Record.ofJson? ["type", "object"] j
    return ofTypeAndObject (← r.get? "type") (← r.get? "object")
  event.getD (.failed false)

end WatchEvent

inductive WatchStage where
  | unlisted
  /-- Part of a list has been shown, and there is more. -/
  | listing
  | streaming
  /-- The stream has ended and has to be opened again. -/
  | ended
  deriving DecidableEq

/--
A watch over the descriptors at an API server. Until a list has been read, page by page, there is no
stream of events; after an error nothing is read for a while, and longer after each further error of
a row.
-/
structure Watch where
  /-- Whether only listed and changed descriptors end a row of errors. -/
  objectsOnly : Bool
  stage : WatchStage := .unlisted
  /-- Events that have come and have not been read. -/
  pending : List WatchEvent := []
  /-- Nothing is read before this time. -/
  resumeAt : Nat
  /-- How many errors the present row has. -/
  failures : Nat := 0
  lastFailure : Option Nat := none

namespace Watch

/-- How many milliseconds to wait after an error, doubling from one of a row to the next, up to half
a minute. -/
def backoff (failures : Nat) : Nat := min 30000 (800 <<< min failures 6)

/-- So many milliseconds after an error the next one begins a new row. -/
def rowGap : Nat := 120000

def endsRow (w : Watch) : Notice → Bool
  | .listed _ | .applied _ => true
  | .failed => false
  | _ => !w.objectsOnly

/-- Ends the row of errors if one of the notices does. -/
def note (ns : List Notice) (w : Watch) : Watch :=
  if ns.any w.endsRow then { w with failures := 0 } else w

def failuresBefore (w : Watch) (time : Nat) : Nat :=
  match w.lastFailure with
  | some t => if t + rowGap < time then 0 else w.failures
  | none => w.failures

def fail (w : Watch) (time : Nat) (mustList : Bool) : Watch :=
  let failures := w.failuresBefore time
  { w with
    stage := if mustList then .unlisted else w.stage
    pending := if mustList then [] else w.pending
    resumeAt := time + backoff failures
    failures := failures + 1
    lastFailure := some time }

def send (e : WatchEvent) (w : Watch) : Watch :=
  if w.stage = .streaming then { w with pending := w.pending ++ [e] } else w

/-- Ends the stream; what has come already can still be read. -/
def close (w : Watch) : Watch := if w.stage = .streaming then { w with stage := .ended } else w

def wakeTime? (w : Watch) (now : Nat) : Option Nat :=
  if w.stage = .streaming ∧ w.pending.isEmpty then none else some (max now w.resumeAt)

structure Page where
  items : List Descriptor
  /-- The list goes on. -/
  hasMore : Bool

def hasText (key : String) (j : Json) : Bool :=
  match ApiServer.metadataText? key j with
  | some "" | none => false
  | some _ => true

/-- The last page of a list has to say which version of the objects it shows. -/
def page? (j : Json) : Option Page := do
  let items ← ApiServer.items? j
  if hasText "continue" j then some ⟨items, true⟩
  else if hasText "resourceVersion" j then some ⟨items, false⟩
  else none

/-- Asks for the first or the next page of the list. -/
def list (w : Watch) (time : Nat) (s : ApiServer) : List Notice × Watch × ApiServer :=
  let beginning := if w.stage = .listing then [] else [.listingBegins]
  let (r, s) := s.send (.clusters s.watched) none
  match ApiServer.decode .list page? r with
  | .ok page =>
    let ns := beginning ++ page.items.map .listed ++ if page.hasMore then [] else [.listingEnds]
    (ns, note ns { w with stage := if page.hasMore then .listing else .streaming }, s)
  | .error _ => (beginning ++ [.failed], (note beginning w).fail time true, s)

def readEvent (w : Watch) (time : Nat) : WatchEvent → List Notice × Watch
  | .applied d => ([.applied d], note [.applied d] w)
  | .deleted d => ([.deleted d], note [.deleted d] w)
  | .bookmark => ([], w)
  | .failed mustList => ([.failed], w.fail time mustList)

/-- Asks for a page, reads the next event, or opens the stream again. -/
def next (w : Watch) (time : Nat) (s : ApiServer) : List Notice × Watch × ApiServer :=
  match w.stage, w.pending with
  | .unlisted, _ | .listing, _ => w.list time s
  | _, [] => ([], { w with stage := .streaming }, s)
  | _, e :: rest =>
    let (notices, w) := readEvent { w with pending := rest } time e
    (notices, w, s)

end Watch
end ClusterFleet
