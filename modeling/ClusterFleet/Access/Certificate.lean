namespace ClusterFleet.Certificate

abbrev Bytes := List UInt8

/-- A tag and the bytes it stands over. -/
structure Element where
  tag : UInt8
  contents : Bytes

def integerTag : UInt8 := 0x02
def booleanTag : UInt8 := 0x01
def bitStringTag : UInt8 := 0x03
def octetStringTag : UInt8 := 0x04
def identifierTag : UInt8 := 0x06
def sequenceTag : UInt8 := 0x30
def versionTag : UInt8 := 0xA0
def extensionsTag : UInt8 := 0xA3

def lengthLimit : Nat := 65535

/-- A length in as few bytes as it takes. -/
def length? : Bytes → Option (Nat × Bytes)
  | 0x81 :: a :: rest => if 0x80 ≤ a then some (a.toNat, rest) else none
  | 0x82 :: a :: b :: rest => if a ≠ 0 then some (a.toNat * 256 + b.toNat, rest) else none
  | a :: rest => if a < 0x80 then some (a.toNat, rest) else none
  | [] => none

/-- The first element and what follows. Tags of more than one byte are not understood. -/
def element? : Bytes → Option (Element × Bytes)
  | [] => none
  | tag :: bs =>
    match length? bs with
    | none => none
    | some (n, rest) =>
      if tag &&& 0x1F = 0x1F || lengthLimit ≤ n || rest.length < n then none
      else some (⟨tag, rest.take n⟩, rest.drop n)

theorem length?_rest {bs rest : Bytes} {n : Nat} (h : length? bs = some (n, rest)) :
    rest.length < bs.length := by
  unfold length? at h
  split at h
  · next a rest' =>
    split at h
    · cases h
      simp only [List.length_cons]
      omega
    · cases h
  · next a b rest' =>
    split at h
    · cases h
      simp only [List.length_cons]
      omega
    · cases h
  · next a rest' _ _ =>
    split at h
    · cases h
      exact Nat.lt_add_one _
    · cases h
  · cases h

theorem element?_rest {bs rest : Bytes} {e : Element} (h : element? bs = some (e, rest)) :
    rest.length < bs.length := by
  cases bs with
  | nil => simp [element?] at h
  | cons tag bs =>
    simp only [element?] at h
    split at h
    · simp at h
    next n r hl =>
    split at h
    · simp at h
    · simp only [Option.some.injEq, Prod.mk.injEq] at h
      have := length?_rest hl
      rw [← h.2, List.length_drop, List.length_cons]
      omega

def elements? (bs : Bytes) : Option (List Element) :=
  if bs.isEmpty then some []
  else
    match _h : element? bs with
    | none => none
    | some (e, rest) => (elements? rest).map (e :: ·)
termination_by bs.length
decreasing_by exact element?_rest _h

def Element.parts? (e : Element) : Option (List Element) := elements? e.contents

def isSequence (e : Element) : Bool := e.tag = sequenceTag

/-- A bit string that fills its last byte. -/
def isWholeBits (e : Element) : Bool := e.tag = bitStringTag && e.contents.head? = some 0

structure Extension where
  identifier : Bytes
  value : Bytes

/-- Between identifier and value there may be a flag that says whether it is critical. -/
def extension? (e : Element) : Option Extension := do
  if !isSequence e then none
  else
    let (i, critical, value) ← match ← e.parts? with
      | [i, c, v] => if c.tag = booleanTag then some (i, c.contents, v) else none
      | [i, v] => some (i, [0x00], v)
      | _ => none
    if i.tag = identifierTag && value.tag = octetStringTag &&
        (critical = [0x00] || critical = [0xFF]) then
      some ⟨i.contents, value.contents⟩
    else none

def keyUsage : Bytes := [0x55, 0x1D, 15]

/-- Key usage, names, basic constraints, name constraints, revocation lists, extended usage. -/
def understood : List Bytes := [15, 17, 19, 30, 31, 37].map ([0x55, 0x1D, ·])

def isOneSequence (bs : Bytes) : Bool :=
  match elements? bs with
  | some [e] => isSequence e
  | _ => false

/-- Adds an extension to those seen; one that is understood may come once. -/
def addExtension (seen : List Bytes) (x : Extension) : Option (List Bytes) :=
  if understood.contains x.identifier then
    if seen.contains x.identifier then none
    else if x.identifier = keyUsage || isOneSequence x.value then some (x.identifier :: seen)
    else none
  else some seen

def acceptsExtensions (e : Element) : Bool :=
  Option.isSome do
    let [list] ← e.parts? | none
    if !isSequence list then none
    else
      let xs ← (← list.parts?).mapM extension?
      xs.foldlM addExtension []

def isVersion3 (e : Element) : Bool :=
  e.tag = versionTag && e.contents = [integerTag, 1, 2]

/-- What is signed, in version 3. -/
def isBody3 (algorithm : Element) : List Element → Bool
  | version :: serial :: signature :: issuer :: validity :: subject :: key :: rest =>
    isVersion3 version && serial.tag = integerTag && isSequence signature &&
      signature.contents = algorithm.contents && isSequence issuer && isSequence validity &&
      isSequence subject && isSequence key &&
      match rest with
      | [] => true
      | [e] => e.tag = extensionsTag && acceptsExtensions e
      | _ => false
  | _ => false

def isBody1 : List Element → Bool
  | [serial, signature, issuer, validity, subject, key] =>
    serial.tag = integerTag && isSequence signature && isSequence issuer &&
      isSequence validity && isSequence subject && isSequence key
  | _ => false

/--
A certificate that can be a root of trust: the parts are there, in order, and every extension that
is understood is well formed. What other extensions say does not matter, even if they are critical.
-/
def isRoot (bs : Bytes) : Bool :=
  Option.isSome do
    let [whole] ← elements? bs | none
    let [body, algorithm, signature] ← whole.parts? | none
    let parts ← body.parts?
    if isSequence whole && isSequence body && isSequence algorithm && isWholeBits signature &&
        (isBody3 algorithm parts || isBody1 parts) then
      some ()
    else none

end ClusterFleet.Certificate
