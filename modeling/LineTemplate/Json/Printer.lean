import LineTemplate.Json

/-!
# Writing JSON

Values are written over several lines, two blanks further in for each container; an empty
container stays on its line. In a string, quotes, backslashes and control characters are escaped,
and everything else stands for itself.
-/
namespace LineTemplate.Json

def hexDigit (n : Nat) : Char := Nat.digitChar n

/-- The spelling of a character inside a string. -/
def escape (c : Char) : Text :=
  match c with
  | '"' => ['\\', '"']
  | '\\' => ['\\', '\\']
  | '\x08' => ['\\', 'b']
  | '\x0c' => ['\\', 'f']
  | '\n' => ['\\', 'n']
  | '\r' => ['\\', 'r']
  | '\t' => ['\\', 't']
  | c =>
    if c.toNat < 0x20 then
      ['\\', 'u', '0', '0', hexDigit (c.toNat / 16), hexDigit (c.toNat % 16)]
    else [c]

def quote (text : Text) : Text := '"' :: text.flatMap escape ++ ['"']

/-- A new line, so many containers further in. -/
def newline (depth : Nat) : Text := '\n' :: List.replicate (2 * depth) ' '

/-- A container with its parts on lines of their own. -/
def bracket (opening closing : Char) (depth : Nat) : List Text → Text
  | [] => [opening, closing]
  | parts =>
    opening :: [','].intercalate (parts.map (newline (depth + 1) ++ ·)) ++ newline depth
      ++ [closing]

mutual

/-- The text of a value inside `depth` containers. -/
def prettyAt (depth : Nat) : Json → Text
  | null => "null".toList
  | bool value => (if value then "true" else "false").toList
  | number value => value.text
  | string value => quote value
  | array items => bracket '[' ']' depth (prettyItems (depth + 1) items)
  | object members => bracket '\x7b' '\x7d' depth (prettyMembers (depth + 1) members)

def prettyItems (depth : Nat) : List Json → List Text
  | [] => []
  | item :: rest => prettyAt depth item :: prettyItems depth rest

def prettyMembers (depth : Nat) : List (Text × Json) → List Text
  | [] => []
  | (key, value) :: rest =>
    (quote key ++ ": ".toList ++ prettyAt depth value) :: prettyMembers depth rest

end

def pretty (value : Json) : Text := prettyAt 0 value

end LineTemplate.Json
