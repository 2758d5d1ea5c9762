import LineTemplate.Text
import LineTemplate.Text.Shapeless

/-!
# Text in log lines

A tag name in a log line stands between quotes, and its characters without a shape of their own
are written by number. Messages keep their characters, except for control characters to which a
terminal would react.
-/
namespace LineTemplate.Text

/-- The number of a character in hexadecimal, in the notation of an escape. -/
def codeEscape (c : Char) : Text :=
  '\\' :: 'u' :: '\x7b' :: Nat.toDigits 16 c.toNat ++ ['\x7d']

/-- A name between quotes. -/
def quoteName (name : Text) : Text :=
  '"' :: name.flatMap (fun c => if isShapeless c then codeEscape c else [c]) ++ ['"']

/-- A message with the control characters of terminals written out. -/
def escapeControls (message : Text) : Text :=
  message.flatMap fun c =>
    match c with
    | '\x07' => "\\x07".toList
    | '\x08' => "\\x08".toList
    | '\x0c' => "\\x0c".toList
    | '\x1b' => "\\x1b".toList
    | '\x7f' => "\\x7f".toList
    | c => if 0x80 ≤ c.toNat ∧ c.toNat ≤ 0x9f then codeEscape c else [c]

end LineTemplate.Text
