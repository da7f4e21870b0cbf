namespace ClusterFleet.Text

/-- The Unicode property `White_Space`. The byte-order mark and the information separators do not
have it. -/
def isBlank (c : Char) : Bool :=
  (9 ≤ c.toNat && c.toNat ≤ 13) || c = ' ' || c.toNat = 0x85 || c.toNat = 0xA0 ||
    c.toNat = 0x1680 || (0x2000 ≤ c.toNat && c.toNat ≤ 0x200A) || c.toNat = 0x2028 ||
    c.toNat = 0x2029 || c.toNat = 0x202F || c.toNat = 0x205F || c.toNat = 0x3000

def trimStartChars (cs : List Char) : List Char := cs.dropWhile isBlank

def trimEndChars (cs : List Char) : List Char := (cs.reverse.dropWhile isBlank).reverse

def trimChars (cs : List Char) : List Char := trimEndChars (trimStartChars cs)

def trim (s : String) : String := String.ofList (trimChars s.toList)

structure IsTrimmed (s : String) : Prop where
  first : ∀ c ∈ s.toList.head?, isBlank c = false
  last : ∀ c ∈ s.toList.getLast?, isBlank c = false

theorem isBlank_of_mem_head? {cs : List Char} {c : Char} (h : c ∈ (cs.dropWhile isBlank).head?) :
    isBlank c = false := by
  have hd := List.head?_dropWhile_not isBlank cs
  rw [Option.mem_def.1 h] at hd
  exact hd

theorem isTrimmed_trim (s : String) : IsTrimmed (trim s) := by
  constructor
  · intro c hc
    rw [trim, String.toList_ofList] at hc
    have hp : trimChars s.toList <+: trimStartChars s.toList := by
      rw [← List.reverse_suffix, trimChars, trimEndChars, List.reverse_reverse]
      exact List.dropWhile_suffix _
    obtain ⟨rest, hrest⟩ := hp
    have hs : c ∈ (s.toList.dropWhile isBlank).head? := by
      rw [Option.mem_def] at hc
      rw [← trimStartChars, ← hrest, List.head?_append, hc]
      rfl
    exact isBlank_of_mem_head? hs
  · intro c hc
    rw [trim, String.toList_ofList, trimChars, trimEndChars, List.getLast?_reverse] at hc
    exact isBlank_of_mem_head? hc

end ClusterFleet.Text
