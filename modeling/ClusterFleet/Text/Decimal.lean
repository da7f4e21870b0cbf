namespace ClusterFleet.Text.Decimal

def digitValue (c : Char) : Nat := c.toNat - '0'.toNat

def value (ds : List Char) : Nat := ds.foldl (fun n c => n * 10 + digitValue c) 0

/-- At least one digit, nothing else, and a value below `bound`. -/
def natBelow? (bound : Nat) (cs : List Char) : Option Nat :=
  if cs.isEmpty || !cs.all Char.isDigit then none
  else if value cs < bound then some (value cs) else none

/-- An unsigned number of 64 bits, with or without one plus sign. -/
def word64? (s : String) : Option Nat :=
  match s.toList with
  | '+' :: cs => natBelow? UInt64.size cs
  | cs => natBelow? UInt64.size cs

def padded (width n : Nat) : String :=
  let s := toString n
  String.ofList (List.replicate (width - s.length) '0') ++ s

/-- Takes exactly `width` digits off the front. -/
def take? (width : Nat) (cs : List Char) : Option (Nat × List Char) :=
  let ds := cs.take width
  if ds.length = width ∧ ds.all Char.isDigit then some (value ds, cs.drop width) else none

end ClusterFleet.Text.Decimal
