import LineTemplate.Text

/-!
# Faults

Everything that can go wrong, told apart by cause. Where a fault belongs to a line of the
template it carries the number of that line, counted from one. The wording of all of them is in
`Fault.message`; what the system or a reader of JSON has to say on a cause is not decided here, and
`Wording` stands for it.
-/
namespace LineTemplate

/-- Texts that are worded elsewhere, each a function of what it is about. -/
structure Wording where
  /-- What the system says of a path that it turns down. -/
  system : Text → Text
  /-- What a reader of JSON says of a text that is none. -/
  json : Text → Text
  /-- The help on the program, in short or in full. -/
  help : Bool → Text
  /-- What is said of arguments that make no sense. -/
  usage : List Text → Text
  deriving Inhabited

/-- How conditional blocks can fail to balance. -/
inductive Imbalance where
  | strayElse
  | strayElif
  | strayEndif
  /-- The template ended inside of this many blocks. -/
  | unclosed (depth : Nat)
  deriving DecidableEq, Repr

/-- Why a text is not the numeral of a width. -/
inductive NumeralFault where
  | empty
  | badDigit
  | tooLarge
  deriving DecidableEq, Repr

/-- Why a file could not be read as a text, or could not be written. -/
inductive AccessFault where
  /-- Its bytes spell no text. -/
  | notText
  /-- The system turned its path down. -/
  | refused (path : Text)
  deriving DecidableEq, Repr

def maxIndent : Nat := 1024

/-- The causes for which reading, expanding or writing a template is given up. -/
inductive Fault where
  | unbalanced (line : Nat) (imbalance : Imbalance)
  | badWidth (line : Nat) (option : Text) (cause : NumeralFault)
  | indentTooWide (line : Nat) (option : Text)
  | fileNotFound (path : Text)
  | invalidName (name : Text)
  /-- A value of a tag file with no text form; `found` says what it is. -/
  | invalidValue (name found : Text)
  | invalidDefinition (definition : Text)
  | inaccessible (cause : AccessFault)
  /-- A tag file with this content is not well-formed. -/
  | malformedTagFile (content : Text)
  deriving DecidableEq, Repr

namespace Imbalance

def message : Imbalance → Text
  | strayElse => "\"else\" outside of an if block".toList
  | strayElif => "\"elif\" outside of an if block".toList
  | strayEndif => "\"endif\" without a matching if".toList
  | unclosed depth =>
    "if block is never closed (".toList ++ Text.ofNat depth ++ " open at end of template)".toList

end Imbalance

namespace NumeralFault

def message : NumeralFault → Text
  | empty => "cannot parse integer from empty string".toList
  | badDigit => "invalid digit found in string".toList
  | tooLarge => "number too large to fit in target type".toList

end NumeralFault

def AccessFault.message (w : Wording) : AccessFault → Text
  | notText => "stream did not contain valid UTF-8".toList
  | refused path => w.system path

namespace Fault

/-- The template line that a fault belongs to, if any. -/
def line? : Fault → Option Nat
  | unbalanced line _ | badWidth line _ _ | indentTooWide line _ => some line
  | _ => none

/-- The same fault, `n` lines further down. -/
def shift (n : Nat) : Fault → Fault
  | unbalanced line imbalance => unbalanced (line + n) imbalance
  | badWidth line option cause => badWidth (line + n) option cause
  | indentTooWide line option => indentTooWide (line + n) option
  | fault => fault

private def optionLead (option : Text) (line : Nat) : Text :=
  "Invalid option '".toList ++ option ++ "' at line ".toList ++ Text.ofNat line ++ ": ".toList

def message (w : Wording) : Fault → Text
  | unbalanced line imbalance =>
    "Structure error at line ".toList ++ Text.ofNat line ++ ": ".toList ++ imbalance.message
  | badWidth line text cause => optionLead text line ++ cause.message
  | indentTooWide line text =>
    optionLead text line ++ "indent width exceeds ".toList ++ Text.ofNat maxIndent
  | fileNotFound path => "File not found: ".toList ++ path
  | invalidName name => "Invalid tag name: '".toList ++ name ++ "'".toList
  | invalidValue name found =>
    "Invalid value for tag '".toList ++ name
      ++ "': expected string, bool, number, array of strings or null, found ".toList ++ found
  | invalidDefinition definition =>
    "Invalid tag definition: '".toList ++ definition ++ "'".toList
  | inaccessible cause => "IO error: ".toList ++ cause.message w
  | malformedTagFile content => "JSON error: ".toList ++ w.json content

end Fault

end LineTemplate
