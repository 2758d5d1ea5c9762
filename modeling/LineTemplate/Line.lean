import LineTemplate.Text

/-!
# Lines and line endings

Templates and tag values are read line by line. A line feed, a carriage return, or the pair of
both ends a line; a break at the very end of a text starts no further line, and the empty text
has no lines. Output is written with one configured ending after every line.
-/
namespace LineTemplate

/-- What is written at the end of a line. -/
inductive LineEnding where
  | lf
  | cr
  | crlf
  deriving DecidableEq, Repr

namespace LineEnding

def text : LineEnding → Text
  | lf => ['\n']
  | cr => ['\r']
  | crlf => ['\r', '\n']

/-- The name under which an ending is chosen and stored. -/
def name : LineEnding → Text
  | lf => "lf".toList
  | cr => "cr".toList
  | crlf => "crlf".toList

def all : List LineEnding := [lf, cr, crlf]

def ofName? (name : Text) : Option LineEnding := all.find? (·.name == name)

/-- The ending of a given name, whatever the case of its letters. -/
def ofNameAnyCase? (name : Text) : Option LineEnding := ofName? (name.map Char.toLower)

@[simp] theorem ofName?_name (ending : LineEnding) : ofName? ending.name = some ending := by
  cases ending <;> decide

end LineEnding

/-- Whether a character ends a line. -/
def isBreak (c : Char) : Bool := c == '\n' || c == '\r'

/-- What follows the break a text starts with; a carriage return and a line feed after it are
one break. -/
def afterBreak : Text → Text
  | '\r' :: '\n' :: rest => rest
  | _ :: rest => rest
  | [] => []

theorem length_afterBreak_lt {text : Text} (h : text ≠ []) :
    (afterBreak text).length < text.length := by
  unfold afterBreak
  split
  · simp only [List.length_cons]
    omega
  · simp only [List.length_cons]
    omega
  · exact absurd rfl h

/-- The lines of a text, without their breaks. -/
def lines (text : Text) : List Text :=
  if _h : text = [] then []
  else
    text.takeWhile (!isBreak ·) :: lines (afterBreak (text.dropWhile (!isBreak ·)))
termination_by text.length
decreasing_by
  by_cases hd : text.dropWhile (!isBreak ·) = []
  · rw [hd]
    exact List.length_pos_iff.mpr _h
  · exact Nat.lt_of_lt_of_le (length_afterBreak_lt hd) (List.dropWhile_suffix _).length_le

@[simp] theorem lines_nil : lines [] = [] := by simp [lines]

theorem lines_of_ne_nil {text : Text} (h : text ≠ []) :
    lines text = text.takeWhile (!isBreak ·)
      :: lines (afterBreak (text.dropWhile (!isBreak ·))) := by
  rw [lines, dif_neg h]

/-- Every line followed by the same ending. -/
def unlines (ending : LineEnding) (ls : List Text) : Text := ls.flatMap (· ++ ending.text)

end LineTemplate
