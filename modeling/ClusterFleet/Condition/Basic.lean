namespace ClusterFleet

inductive Aspect where
  | ready
  | offline
  /-- An aspect that other writers keep. -/
  | other (name : String)
  deriving DecidableEq, Repr

namespace Aspect

def ofName (s : String) : Aspect :=
  if s = "Ready" then .ready else if s = "Offline" then .offline else .other s

def name : Aspect → String
  | .ready => "Ready"
  | .offline => "Offline"
  | .other s => s

theorem name_ofName (s : String) : (ofName s).name = s := by
  unfold ofName
  split
  · next h => exact h.symm
  · split
    · next h => exact h.symm
    · rfl

end Aspect

inductive Verdict where
  | yes
  | no
  | unknown
  deriving DecidableEq, Repr

namespace Verdict

def name : Verdict → String
  | .yes => "True"
  | .no => "False"
  | .unknown => "Unknown"

def ofName? (s : String) : Option Verdict :=
  if s = "True" then some .yes
  else if s = "False" then some .no
  else if s = "Unknown" then some .unknown
  else none

end Verdict

/-- What is known of one aspect of a cluster. -/
structure Condition where
  aspect : Aspect
  verdict : Verdict
  reason : Option String
  message : Option String
  /-- When the verdict on this aspect last changed. -/
  transitioned : Option String
  /-- When this condition was last observed. -/
  updated : Option String
  deriving DecidableEq, Repr

structure Status where
  conditions : List Condition
  deriving DecidableEq, Repr

namespace Condition

def observed (a : Aspect) (v : Verdict) (reason message : String) : Condition :=
  ⟨a, v, some reason, some message, none, none⟩

def find? (a : Aspect) (cs : List Condition) : Option Condition :=
  cs.find? (·.aspect = a)

end Condition

namespace Status

def empty : Status := ⟨[]⟩

def condition? (s : Status) (a : Aspect) : Option Condition := Condition.find? a s.conditions

def isReady (s : Status) : Bool :=
  match s.condition? .ready with
  | some c => c.verdict = .yes
  | none => false

end Status
end ClusterFleet
