/-!
# Blanks

White space is the Unicode property of that name. `trim` takes it off both ends of a text, and
every reader that ignores surrounding blanks uses it.
-/

namespace BackupProfiles.Text

/-- The characters with the Unicode property White_Space. -/
def isBlank (c : Char) : Bool :=
  let n := c.toNat
  (0x9 ≤ n && n ≤ 0xd) || n == 0x20 || n == 0x85 || n == 0xa0 || n == 0x1680
    || (0x2000 ≤ n && n ≤ 0x200a) || n == 0x2028 || n == 0x2029 || n == 0x202f || n == 0x205f
    || n == 0x3000

def dropBlanks (cs : List Char) : List Char := cs.dropWhile isBlank

/-- The list without the blanks at either end. -/
def trimList (cs : List Char) : List Char :=
  (dropBlanks (dropBlanks cs).reverse).reverse

def trim (s : String) : String := String.ofList (trimList s.toList)

/-- Nothing but blanks. -/
def isAllBlank (s : String) : Bool := s.toList.all isBlank

end BackupProfiles.Text
