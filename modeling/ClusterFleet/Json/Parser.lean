import ClusterFleet.Json.Lexer
import ClusterFleet.Json.Number

namespace ClusterFleet.Json

/-- How many containers may be inside one another; what is inside more of them is not held. -/
def maxDepth : Nat := 127

/-- A container whose end has not been read; its contents are held last first. -/
inductive Frame where
  | items (done : List Json)
  /-- With the key whose value comes next. A key that is no text makes the object unreadable. -/
  | members (done : List (Option Member)) (key : Option String)

inductive Expect where
  | value
  /-- Right after an array is opened. -/
  | valueOrClose
  | key
  /-- Right after an object is opened. -/
  | keyOrClose
  | colon
  /-- After a value inside a container. -/
  | commaOrClose
  /-- After the whole value. -/
  | nothing (result : Json)

structure Building where
  stack : List Frame
  expect : Expect

namespace Building

def start : Building := ⟨[], .value⟩

def finish (v : Json) : List Frame → Building
  | [] => ⟨[], .nothing v⟩
  | .items done :: rest => ⟨.items (v :: done) :: rest, .commaOrClose⟩
  | .members done key :: rest =>
    ⟨.members (key.map (·, v) :: done) key :: rest, .commaOrClose⟩

def isShallow (around : List Frame) : Bool := (around.drop (maxDepth - 1)).isEmpty

def finishContainer (v : Option Json) (around : List Frame) : Building :=
  finish (if isShallow around then v.getD .unreadable else .unreadable) around

def beginValue (stack : List Frame) : Token → Option Building
  | .openArray => some ⟨.items [] :: stack, .valueOrClose⟩
  | .openObject => some ⟨.members [] none :: stack, .keyOrClose⟩
  | .text s => some (finish ((s.map .str).getD .unreadable) stack)
  | .word w => (ofWord? w).map (finish · stack)
  | _ => none

def closeArray : List Frame → Option Building
  | .items done :: rest => some (finishContainer (some (.arr done.reverse)) rest)
  | _ => none

def closeObject : List Frame → Option Building
  | .members done _ :: rest => some (finishContainer ((done.reverse.mapM id).map .obj) rest)
  | _ => none

def setKey (s : Option String) : List Frame → Option Building
  | .members done _ :: rest => some ⟨.members done s :: rest, .colon⟩
  | _ => none

def afterComma : List Frame → Option Building
  | .items done :: rest => some ⟨.items done :: rest, .value⟩
  | .members done key :: rest => some ⟨.members done key :: rest, .key⟩
  | [] => none

def step (b : Building) (t : Token) : Option Building :=
  match b.expect, t with
  | .valueOrClose, .closeArray => closeArray b.stack
  | .value, t => beginValue b.stack t
  | .valueOrClose, t => beginValue b.stack t
  | .keyOrClose, .closeObject => closeObject b.stack
  | .keyOrClose, .text s => setKey s b.stack
  | .key, .text s => setKey s b.stack
  | .colon, .colon => some ⟨b.stack, .value⟩
  | .commaOrClose, .comma => afterComma b.stack
  | .commaOrClose, .closeArray => closeArray b.stack
  | .commaOrClose, .closeObject => closeObject b.stack
  | _, _ => none

def result? (b : Building) : Option Json :=
  match b.expect with
  | .nothing v => some v
  | _ => none

end Building

def ofTokens? (ts : List Token) : Option Json := do
  (← ts.foldlM Building.step Building.start).result?

/-- The value that is written; parts of it may be unreadable. -/
def parse? (s : String) : Option Json := do
  ofTokens? (← Token.ofText? s)

def parseWhole? (s : String) : Option Json := (parse? s).filter isReadable

end ClusterFleet.Json
