import LineTemplate.Dictionary
import LineTemplate.Line
import LineTemplate.Options
import LineTemplate.Placeholder

/-!
# Substitution on a line

The placeholders of a line are replaced by the values of their tags, from left to right. A tag
that is not defined is replaced by nothing and reported. The options of a defined tag are read
then, and may be at fault; a `skipempty` placeholder whose value is empty drops the whole line.
What is inserted is never read again.
-/
namespace LineTemplate

/-- A placeholder on some line whose tag is not defined. -/
structure Warning where
  line : Nat
  tag : Text
  deriving DecidableEq, Repr

inductive Substitution where
  | line (text : Text)
  /-- The line is dropped, ending and all. -/
  | skip
  deriving DecidableEq, Repr

/-- The result of substituting on a line, with the warnings met on the way. -/
structure Substituted where
  warnings : List Warning
  result : Except Fault Substitution

namespace Substitution

def prepend (text : Text) : Substitution → Substitution
  | line rest => line (text ++ rest)
  | skip => skip

end Substitution

namespace Substituted

def prepend (text : Text) (s : Substituted) : Substituted :=
  { s with result := s.result.map (·.prepend text) }

def warn (warning : Warning) (s : Substituted) : Substituted :=
  { s with warnings := warning :: s.warnings }

end Substituted

/-- The text a value is inserted as: its lines, each further one on a line of its own behind the
indentation. -/
def Options.insertion (options : Options) (newline value : Text) : Text :=
  match lines value with
  | [] => []
  | first :: rest =>
    (if options.keepsIndent then [] else options.indent) ++ first
      ++ rest.flatMap fun line => newline ++ options.indent ++ line

namespace Placeholder

/-- The options a placeholder stands with on a line of the given indentation. -/
def readOptions (placeholder : Placeholder) (lineIndent : Text) (line : Nat) :
    Except Fault Options :=
  match placeholder.options with
  | none => .ok .plain
  | some text => Options.readIndented text lineIndent line

theorem readOptions_eq (placeholder : Placeholder) (lineIndent : Text) (line : Nat) :
    placeholder.readOptions lineIndent line =
      Options.ofPieces lineIndent line .plain (placeholder.options.elim [] Options.pieces) := by
  unfold readOptions
  cases placeholder.options <;> rfl

end Placeholder

/-- Substitutes the given placeholders of a line that begins with `lineIndent`, `tail` being the
text behind the last of them. -/
def substituteAll (tags : Dictionary) (newline : Text) (line : Nat) (lineIndent tail : Text) :
    List Placeholder.Occurrence → Substituted
  | [] => ⟨[], .ok (.line tail)⟩
  | o :: rest =>
    match tags.get? o.placeholder.tag with
    | none =>
      ((substituteAll tags newline line lineIndent tail rest).prepend o.gap).warn
        ⟨line, o.placeholder.tag⟩
    | some value =>
      match o.placeholder.readOptions lineIndent line with
      | .error fault => ⟨[], .error fault⟩
      | .ok options =>
        if options.skipsEmpty && value.isEmpty then ⟨[], .ok .skip⟩
        else
          (substituteAll tags newline line lineIndent tail rest).prepend
            (o.gap ++ options.insertion newline value)

/-- Substitutes the placeholders of a template line. -/
def substitute (tags : Dictionary) (newline source : Text) (line : Nat) : Substituted :=
  let cut := Placeholder.cut source
  substituteAll tags newline line (Text.indentation source) cut.tail cut.occurrences

end LineTemplate
