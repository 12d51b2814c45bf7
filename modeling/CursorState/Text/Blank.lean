/-! White space: the characters of the Unicode property White_Space, and trimming. -/
namespace CursorState.Text

/-- White_Space. Neither U+001C to U+001F nor U+200B nor U+FEFF belong to it. -/
def isBlank (c : Char) : Bool :=
  let n := c.toNat
  (0x9 ≤ n && n ≤ 0xD) || n == 0x20 || n == 0x85 || n == 0xA0 || n == 0x1680 ||
    (0x2000 ≤ n && n ≤ 0x200A) || n == 0x2028 || n == 0x2029 || n == 0x202F || n == 0x205F ||
    n == 0x3000

def dropBlank (cs : List Char) : List Char :=
  cs.dropWhile isBlank

def dropBlankEnd (cs : List Char) : List Char :=
  (dropBlank cs.reverse).reverse

def trim (cs : List Char) : List Char :=
  dropBlankEnd (dropBlank cs)

@[simp] theorem dropBlank_nil : dropBlank [] = [] := rfl

theorem dropBlank_cons_of_blank {c : Char} (h : isBlank c) (cs : List Char) :
    dropBlank (c :: cs) = dropBlank cs := by
  simp [dropBlank, h]

theorem dropBlank_cons_of_not_blank {c : Char} (h : isBlank c = false) (cs : List Char) :
    dropBlank (c :: cs) = c :: cs := by
  simp [dropBlank, h]

end CursorState.Text
