/-!
# Blank characters

The characters that count as white space, and texts without them at their ends.

* `isBlank`: the property.
* `trimBlank`: characters without the blanks around them.
-/

namespace FlowHost

/-- Whether a character is white space. -/
def isBlank (c : Char) : Bool :=
  let n := c.toNat
  decide (9 ≤ n ∧ n ≤ 13) || n == 0x20 || n == 0x85 || n == 0xa0 || n == 0x1680 ||
    decide (0x2000 ≤ n ∧ n ≤ 0x200a) || n == 0x2028 || n == 0x2029 || n == 0x202f ||
    n == 0x205f || n == 0x3000

/-- Characters without the blanks at their end. -/
def trimBlankEnd (cs : List Char) : List Char := (cs.reverse.dropWhile isBlank).reverse

/-- **Characters without the blanks around them.** -/
def trimBlank (cs : List Char) : List Char := trimBlankEnd (cs.dropWhile isBlank)

end FlowHost
