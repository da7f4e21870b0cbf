import ClusterFleet.Text.Base64
import ClusterFleet.Text.Blank
import ClusterFleet.Text.Utf8

namespace ClusterFleet.TrustBundle
open Text

abbrev Bytes := List UInt8

structure Block where
  label : String
  contents : Bytes

structure RawBlock where
  label : Bytes
  body : Bytes
  endLabel : Bytes

/-- What follows a mark of which the part `missing` is still to come. A byte that does not continue
the mark is passed over, and the mark is then looked for from its start. -/
def afterMark? (mark : Bytes) : Bytes → Bytes → Option Bytes
  | [], bs => some bs
  | _ :: _, [] => none
  | m :: missing, b :: bs => afterMark? mark (if b = m then missing else mark) bs

def cut? (mark bs : Bytes) : Option (Bytes × Bytes) :=
  (afterMark? mark mark bs).map fun after =>
    (bs.take (bs.length - (mark.length + after.length)), after)

theorem afterMark?_length {mark missing bs after : Bytes} (hm : missing.length ≤ mark.length)
    (h : afterMark? mark missing bs = some after) : after.length + missing.length ≤ bs.length := by
  induction bs generalizing missing with
  | nil =>
    cases missing with
    | nil => simp_all [afterMark?]
    | cons m missing => simp [afterMark?] at h
  | cons b bs ih =>
    cases missing with
    | nil => simp_all [afterMark?]
    | cons m missing =>
      simp only [afterMark?] at h
      simp only [List.length_cons] at hm ⊢
      split at h
      · have := ih (by omega) h
        omega
      · have := ih (Nat.le_refl _) h
        omega

theorem cut?_length {mark bs before after : Bytes} (h : cut? mark bs = some (before, after)) :
    after.length + mark.length ≤ bs.length := by
  obtain ⟨a, ha, he⟩ := Option.map_eq_some_iff.1 h
  simp only [Prod.mk.injEq] at he
  exact he.2 ▸ afterMark?_length (Nat.le_refl _) ha

def isBlankByte (b : UInt8) : Bool := b = 32 || b = 9 || b = 10 || b = 13

def skipBlanks (bs : Bytes) : Bytes := bs.dropWhile isBlankByte

theorem skipBlanks_length (bs : Bytes) : (skipBlanks bs).length ≤ bs.length :=
  (List.dropWhile_sublist _).length_le

def beginMark : Bytes := Utf8.encode "-----BEGIN "

def endMark : Bytes := Utf8.encode "-----END "

def dashes : Bytes := Utf8.encode "-----"

def rawBlock? (bs : Bytes) : Option (RawBlock × Bytes) :=
  match cut? beginMark bs with
  | none => none
  | some (_, bs) =>
    match cut? dashes bs with
    | none => none
    | some (label, bs) =>
      match cut? endMark (skipBlanks bs) with
      | none => none
      | some (body, bs) =>
        match cut? dashes bs with
        | none => none
        | some (endLabel, bs) => some (⟨label, body, endLabel⟩, skipBlanks bs)

theorem rawBlock?_length {bs rest : Bytes} {r : RawBlock} (h : rawBlock? bs = some (r, rest)) :
    rest.length < bs.length := by
  unfold rawBlock? at h
  split at h
  · simp at h
  next b1 h1 =>
  split at h
  · simp at h
  next b2 h2 =>
  split at h
  · simp at h
  next b3 h3 =>
  split at h
  · simp at h
  next b4 h4 =>
  simp only [Option.some.injEq, Prod.mk.injEq] at h
  have l1 := cut?_length h1
  have l2 := cut?_length h2
  have l3 := cut?_length h3
  have l4 := cut?_length h4
  have s2 := skipBlanks_length b2
  have s4 := skipBlanks_length b4
  have hb : 0 < beginMark.length := by decide +kernel
  rw [← h.2]
  omega

def rawBlocks (bs : Bytes) : List RawBlock :=
  match _h : rawBlock? bs with
  | none => []
  | some (r, rest) => r :: rawBlocks rest
termination_by bs.length
decreasing_by exact rawBlock?_length _h

/-- Lines end with a line feed, with or without a carriage return before it. -/
def lines (s : String) : List String :=
  let ls := s.splitOn "\n"
  let ls := if ls.getLast? = some "" then ls.dropLast else ls
  ls.map fun l => if l.endsWith "\r" then (l.dropEnd 1).toString else l

/-- Headers, if any, end with an empty line. -/
def splitHeaders (body : Bytes) : Bytes × Bytes :=
  (cut? [10, 10] body <|> cut? [13, 10, 13, 10] body).getD ([], body)

def isHeader (line : String) : Bool := line.toList.contains ':'

def RawBlock.block? (r : RawBlock) : Option Block := do
  let label ← Utf8.decode? r.label
  let endLabel ← Utf8.decode? r.endLabel
  let (headers, data) := splitHeaders r.body
  let headers ← Utf8.decode? headers
  let data ← Utf8.decode? data
  let contents ← Base64.decode? (data.toList.filter (!isBlank ·))
  if label ≠ "" && label = endLabel && (lines headers).all isHeader then some ⟨label, contents⟩
  else none

def blocks? (bs : Bytes) : Option (List Block) := (rawBlocks bs).mapM RawBlock.block?

def withFinalNewline (bs : Bytes) : Bytes :=
  if bs.getLast? = some 10 then bs else bs ++ [10]

/-- The certificates to trust: PEM text in base 64, in which white space does not count. Anything
may stand between the blocks, and a block that is not ended is no block. -/
def ofBase64? (s : String) : Option (List Block) := do
  blocks? (withFinalNewline (← Base64.decode? s.toList))

end ClusterFleet.TrustBundle
