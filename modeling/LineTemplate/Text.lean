/-!
# Texts

A text is a list of code points, so that whatever is said about templates, tag names and output
is proved by recursion on the characters themselves. This file holds the few operations that
every other part reads with: taking a known start off a text, and cutting a text at a separator.
-/
namespace LineTemplate

/-- A finite sequence of code points. -/
abbrev Text := List Char

namespace Text

/-- What follows `start` in `text`, if `text` begins with it. -/
def strip? : Text → Text → Option Text
  | [], text => some text
  | _ :: _, [] => none
  | c :: start, d :: text => if c = d then strip? start text else none

theorem strip?_eq_some_iff {start text rest : Text} :
    strip? start text = some rest ↔ text = start ++ rest := by
  induction start generalizing text with
  | nil => simp [strip?, eq_comm]
  | cons c start ih =>
    cases text with
    | nil => simp [strip?]
    | cons d text =>
      by_cases h : c = d
      · subst h; simp [strip?, ih]
      · simp [strip?, h, Ne.symm h]

@[simp] theorem strip?_append (start rest : Text) : strip? start (start ++ rest) = some rest :=
  strip?_eq_some_iff.mpr rfl

theorem strip?_eq_none_iff {start text : Text} :
    strip? start text = none ↔ ∀ rest, text ≠ start ++ rest := by
  rw [Option.eq_none_iff_forall_ne_some]
  simp [strip?_eq_some_iff]

/-- The pieces of a text between the occurrences of `separator`; there is one more piece than
there are separators. -/
def split (separator : Char) (text : Text) : List Text :=
  match _h : text.dropWhile (· != separator) with
  | [] => [text]
  | _ :: rest => text.takeWhile (· != separator) :: split separator rest
termination_by text.length
decreasing_by
  have hle := (List.dropWhile_suffix (· != separator) (l := text)).length_le
  rw [_h, List.length_cons] at hle
  omega

/-- The text in front of the first `separator`, and what follows it if there is one. -/
def cut (separator : Char) (text : Text) : Text × Option Text :=
  match text.dropWhile (· != separator) with
  | [] => (text, none)
  | _ :: rest => (text.takeWhile (· != separator), some rest)

/-- The number of bytes of a text in UTF-8. -/
def byteLength (text : Text) : Nat := text.foldl (fun n c => n + c.utf8Size) 0

private theorem foldl_utf8Size (text : Text) (n : Nat) :
    text.foldl (fun n c => n + c.utf8Size) n
      = n + text.foldl (fun n c => n + c.utf8Size) 0 := by
  induction text generalizing n with
  | nil => rfl
  | cons c text ih => rw [List.foldl_cons, List.foldl_cons, ih, ih (0 + c.utf8Size)]; omega

@[simp] theorem byteLength_nil : byteLength [] = 0 := rfl

@[simp] theorem byteLength_cons (c : Char) (text : Text) :
    byteLength (c :: text) = c.utf8Size + byteLength text := by
  rw [byteLength, List.foldl_cons, foldl_utf8Size, Nat.zero_add, byteLength]

@[simp] theorem byteLength_append (a b : Text) :
    byteLength (a ++ b) = byteLength a + byteLength b := by
  induction a with
  | nil => simp
  | cons c a ih => simp [ih]; omega

/-- The decimal digits of a natural number, without leading zeros. -/
def ofNat (n : Nat) : Text := Nat.toDigits 10 n

end Text

end LineTemplate
