import LineTemplate.Text.Word

/-!
# White space

The twenty-five code points with the White_Space property. They surround names and options
without belonging to them, and none of them is a word character: where a run of one kind ends
and a run of the other begins is never in doubt.
-/
namespace LineTemplate.Text

/-- The code points of white space. -/
def blankRanges : List (Nat × Nat) :=
  [(0x9, 0xD), (0x20, 0x20), (0x85, 0x85), (0xA0, 0xA0), (0x1680, 0x1680), (0x2000, 0x200A),
    (0x2028, 0x2029), (0x202F, 0x202F), (0x205F, 0x205F), (0x3000, 0x3000)]

def isBlank (c : Char) : Bool := inRanges blankRanges c.toNat

/-- The white space at the start of a text. -/
def indentation (text : Text) : Text := text.takeWhile isBlank

def trimStart (text : Text) : Text := text.dropWhile isBlank

def trimEnd (text : Text) : Text := (trimStart text.reverse).reverse

def trim (text : Text) : Text := trimEnd (trimStart text)

theorem indentation_append_trimStart (text : Text) : indentation text ++ trimStart text = text :=
  List.takeWhile_append_dropWhile

/-- Two tables whose ranges never meet have no code point in common. -/
private theorem inRanges_disjoint {s t : List (Nat × Nat)}
    (h : s.all (fun a => t.all fun b => a.2 < b.1 || b.2 < a.1)) {n : Nat}
    (hs : inRanges s n = true) : inRanges t n = false := by
  rw [Bool.eq_false_iff]
  intro ht
  rw [inRanges_eq_true_iff] at hs ht
  obtain ⟨a, ha, ha'⟩ := hs
  obtain ⟨b, hb, hb'⟩ := ht
  have := List.all_eq_true.mp (List.all_eq_true.mp h a ha) b hb
  simp at this
  omega

private theorem blankRanges_apart_wordRanges :
    blankRanges.all (fun a => wordRanges.all fun b => a.2 < b.1 || b.2 < a.1) = true := by
  decide +kernel

/-- White space never belongs to a name. -/
theorem isWord_eq_false_of_isBlank {c : Char} (h : isBlank c = true) : isWord c = false :=
  inRanges_disjoint blankRanges_apart_wordRanges h

theorem isBlank_eq_false_of_isWord {c : Char} (h : isWord c = true) : isBlank c = false := by
  rw [Bool.eq_false_iff]
  intro hb
  simp [isWord_eq_false_of_isBlank hb] at h

end LineTemplate.Text
