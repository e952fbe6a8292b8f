namespace SessionShell.Text

/-- The characters with the White_Space property. -/
def isBlank (c : Char) : Bool :=
  (0x09 ≤ c.toNat && c.toNat ≤ 0x0d) || (0x2000 ≤ c.toNat && c.toNat ≤ 0x200a) ||
    [0x20, 0x85, 0xa0, 0x1680, 0x2028, 0x2029, 0x202f, 0x205f, 0x3000].contains c.toNat

def dropTrailing {α : Type} (p : α → Bool) (s : List α) : List α :=
  (s.reverse.dropWhile p).reverse

def trim (s : List Char) : List Char :=
  dropTrailing isBlank (s.dropWhile isBlank)

/-- The longest runs without a blank, in order. -/
def pieces (s : List Char) : List (List Char) :=
  (s.splitOnP isBlank).filter (!·.isEmpty)

def allBlank (s : String) : Bool := s.toList.all isBlank

end SessionShell.Text
