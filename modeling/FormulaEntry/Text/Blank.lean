/-! Blank characters, and texts without the blanks at their ends. Every reader
of numbers and formulas in this library trims its input with `strip`. -/

namespace FormulaEntry.Text

/-- The controls U+0009–000D and U+001C–001F, the next-line control, and every
space, line or paragraph separator. -/
def isBlank (c : Char) : Bool :=
  let n := c.toNat
  (9 ≤ n && n ≤ 13) || (28 ≤ n && n ≤ 32) || n == 0x85 || n == 0xA0 || n == 0x1680 ||
    (0x2000 ≤ n && n ≤ 0x200A) || n == 0x2028 || n == 0x2029 || n == 0x202F || n == 0x205F ||
    n == 0x3000

def stripLeft (cs : List Char) : List Char := cs.dropWhile isBlank

def stripRight (cs : List Char) : List Char := (stripLeft cs.reverse).reverse

def strip (cs : List Char) : List Char := stripRight (stripLeft cs)

theorem length_stripLeft_le (cs : List Char) : (stripLeft cs).length ≤ cs.length :=
  (List.dropWhile_sublist isBlank).length_le

theorem length_stripRight_le (cs : List Char) : (stripRight cs).length ≤ cs.length := by
  simpa [stripRight] using length_stripLeft_le cs.reverse

theorem length_strip_le (cs : List Char) : (strip cs).length ≤ cs.length :=
  Nat.le_trans (length_stripRight_le _) (length_stripLeft_le cs)

end FormulaEntry.Text
