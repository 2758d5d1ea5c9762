import LineTemplate.Directive
import LineTemplate.Line
import LineTemplate.Placeholder

/-!
# References to tags

The places of a template that name a tag: the tests of directive lines, and the placeholders of
all other lines, whether or not they would be emitted. Places are given by line and column, both
counted from one, columns in bytes.
-/
namespace LineTemplate

/-- How a tag is named. -/
inductive ReferenceKind where
  | placeholder
  | condition
  deriving DecidableEq, Repr

/-- A place that names a tag. -/
structure Reference where
  tag : Text
  kind : ReferenceKind
  line : Nat
  column : Nat
  /-- The options of a placeholder as they are written. -/
  options : Option Text
  deriving DecidableEq, Repr

namespace Reference

/-- The placeholders of a content line from byte column `column` on. -/
def ofOccurrences (line column : Nat) : List Placeholder.Occurrence → List Reference
  | [] => []
  | o :: rest =>
    let start := column + Text.byteLength o.gap
    ⟨o.placeholder.tag, .placeholder, line, start, o.placeholder.options⟩
      :: ofOccurrences line (start + Text.byteLength o.source) rest

def ofLine (line : Nat) (text : Text) : List Reference :=
  match Directive.read? text with
  | some _ =>
    match Directive.locate? text with
    | some located => [⟨located.tag, .condition, line, located.column, none⟩]
    | none => []
  | none => ofOccurrences line 1 (Placeholder.cut text).occurrences

/-- The references of lines numbered from `line` on. -/
def ofLines (line : Nat) : List Text → List Reference
  | [] => []
  | text :: rest => ofLine line text ++ ofLines (line + 1) rest

/-- The references of a template, in order. -/
def ofTemplate (template : Text) : List Reference := ofLines 1 (lines template)

end Reference

end LineTemplate
