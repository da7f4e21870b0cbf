namespace ClusterFleet.Text.Utf8

inductive Step where
  | char (c : Char) (rest : List UInt8)
  | bad (rest : List UInt8)

def isTail (b : UInt8) : Bool := 0x80 ≤ b && b ≤ 0xBF

def payload (b : UInt8) : Nat := b.toNat % 0x40

/-- The last byte of a character whose bits so far are `acc`. -/
def last (acc : Nat) : List UInt8 → Step
  | b :: rest => if isTail b then .char (Char.ofNat (acc * 0x40 + payload b)) rest else .bad (b :: rest)
  | [] => .bad []

/-- The second byte must lie in `lo..hi`; `more` reads what follows. -/
def second (lo hi : UInt8) (acc : Nat) (more : Nat → List UInt8 → Step) : List UInt8 → Step
  | b :: rest => if lo ≤ b && b ≤ hi then more (acc * 0x40 + payload b) rest else .bad (b :: rest)
  | [] => .bad []

def lastTwo (acc : Nat) : List UInt8 → Step := second 0x80 0xBF acc last

/-- The ranges of the second byte rule out surrogates, overlong forms and values past U+10FFFF. -/
def next (b : UInt8) (rest : List UInt8) : Step :=
  if b < 0x80 then .char (Char.ofNat b.toNat) rest
  else if b < 0xC2 then .bad rest
  else if b < 0xE0 then last (b.toNat - 0xC0) rest
  else if b = 0xE0 then second 0xA0 0xBF 0 last rest
  else if b = 0xED then second 0x80 0x9F 0xD last rest
  else if b < 0xF0 then second 0x80 0xBF (b.toNat - 0xE0) last rest
  else if b = 0xF0 then second 0x90 0xBF 0 lastTwo rest
  else if b < 0xF4 then second 0x80 0xBF (b.toNat - 0xF0) lastTwo rest
  else if b = 0xF4 then second 0x80 0x8F 4 lastTwo rest
  else .bad rest

def Step.rest : Step → List UInt8
  | .char _ rest => rest
  | .bad rest => rest

theorem last_rest (acc : Nat) (bs : List UInt8) : (last acc bs).rest.length ≤ bs.length := by
  cases bs with
  | nil => simp [last, Step.rest]
  | cons b rest => simp only [last]; split <;> simp [Step.rest]

theorem second_rest {more : Nat → List UInt8 → Step}
    (h : ∀ a bs, (more a bs).rest.length ≤ bs.length) (lo hi : UInt8) (acc : Nat)
    (bs : List UInt8) : (second lo hi acc more bs).rest.length ≤ bs.length := by
  cases bs with
  | nil => simp [second, Step.rest]
  | cons b rest =>
    simp only [second]
    split
    · exact Nat.le_succ_of_le (h _ rest)
    · simp [Step.rest]

theorem next_rest (b : UInt8) (bs : List UInt8) : (next b bs).rest.length ≤ bs.length := by
  have two : ∀ a l, (lastTwo a l).rest.length ≤ l.length :=
    fun a l => second_rest last_rest _ _ a l
  unfold next
  repeat' split
  all_goals first
    | exact last_rest _ _
    | exact second_rest last_rest _ _ _ _
    | exact second_rest two _ _ _ _
    | simp [Step.rest]

def decodeChars? : List UInt8 → Option (List Char)
  | [] => some []
  | b :: bs =>
    match _h : next b bs with
    | .char c rest => (decodeChars? rest).map (c :: ·)
    | .bad _ => none
termination_by bs => bs.length
decreasing_by
  have := next_rest b bs
  simp only [_h, Step.rest] at this
  simp only [List.length_cons]; omega

/-- One replacement character stands in place of each longest run of bytes that starts a character
and does not end it. -/
def decodeLossyChars : List UInt8 → List Char
  | [] => []
  | b :: bs =>
    match _h : next b bs with
    | .char c rest => c :: decodeLossyChars rest
    | .bad rest => '\uFFFD' :: decodeLossyChars rest
termination_by bs => bs.length
decreasing_by
  all_goals
    have := next_rest b bs
    simp only [_h, Step.rest] at this
    simp only [List.length_cons]; omega

def decode? (bs : List UInt8) : Option String := (decodeChars? bs).map String.ofList

def decodeLossy (bs : List UInt8) : String := String.ofList (decodeLossyChars bs)

def encode (s : String) : List UInt8 := s.toUTF8.toList

end ClusterFleet.Text.Utf8
