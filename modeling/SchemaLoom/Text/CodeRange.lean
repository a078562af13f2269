/-!
# Ranges of character codes

A character property is a list of inclusive ranges of codes, written in ascending order.
-/

namespace SchemaLoom.Text

/-- The codes from the first to the second component, both included. -/
abbrev CodeRange := Nat × Nat

def CodeRange.contains (range : CodeRange) (code : Nat) : Bool :=
  range.1 ≤ code && code ≤ range.2

/-- Whether the code of the character lies in one of the ranges. -/
def within (ranges : List CodeRange) (char : Char) : Bool :=
  ranges.any (·.contains char.toNat)

theorem within_iff {ranges : List CodeRange} {char : Char} :
    within ranges char = true ↔
      ∃ range ∈ ranges, range.1 ≤ char.toNat ∧ char.toNat ≤ range.2 := by
  simp [within, CodeRange.contains]

end SchemaLoom.Text
