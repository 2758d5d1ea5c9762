/-!
# Sets of code points given by ranges

Character classes of the Unicode standard are long lists of ranges. A table is a list of pairs
of first and last code points, and a character belongs to it if one of its ranges holds it.
-/
namespace LineTemplate.Text

/-- Whether some range of the table, ends included, holds the code point. -/
def inRanges (table : List (Nat × Nat)) (code : Nat) : Bool :=
  table.any fun range => range.1 ≤ code && code ≤ range.2

theorem inRanges_eq_true_iff {table : List (Nat × Nat)} {code : Nat} :
    inRanges table code = true ↔ ∃ range ∈ table, range.1 ≤ code ∧ code ≤ range.2 := by
  simp [inRanges]

end LineTemplate.Text
