/-! # Tables of code points

A character class beyond the basic block is a list of closed ranges of code points. Membership looks
at the ranges one by one: nothing depends on their order, and overlapping ranges do no harm.
-/

set_option autoImplicit false

namespace Onepass.Text

/-- A closed range of code points, from its first to its last member. -/
abbrev CodeRange := Nat × Nat

/-- The ranges cover the character when one of them holds its code point. -/
def covers (ranges : List CodeRange) (char : Char) : Bool :=
  ranges.any fun range => range.1 ≤ char.toNat && char.toNat ≤ range.2

theorem covers_iff {ranges : List CodeRange} {char : Char} :
    covers ranges char = true ↔
      ∃ range ∈ ranges, range.1 ≤ char.toNat ∧ char.toNat ≤ range.2 := by
  simp [covers]

/-- Whether a character belongs to the basic block, whose classes are stated without a table. -/
def isBasic (char : Char) : Bool :=
  char.toNat < 128

end Onepass.Text
