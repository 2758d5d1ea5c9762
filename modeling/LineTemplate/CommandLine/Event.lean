import LineTemplate.CommandLine.Invocation
import LineTemplate.Substitution
import LineTemplate.Text.Quoted

/-!
# Log lines

What the program reports on its way, each report with a level. The final reports of failure are
always shown. A line is given without the time that stands in front of it, and reports for
debugging and tracing are left out.
-/
namespace LineTemplate.CommandLine

inductive Level where
  | info
  | warning
  | error
  | final
  deriving DecidableEq, Repr

inductive Event where
  | readingInput
  | readingFile (path : Text)
  | checking
  | writing (path : Text)
  | completed
  /-- A placeholder whose tag is not defined. -/
  | undefinedTag (warning : Warning)
  /-- The same, where undefined tags are not allowed. -/
  | undefinedError (warning : Warning)
  | failed (fault : Fault)
  /-- The program gives up for a fault. -/
  | aborted (fault : Fault)
  /-- The program gives up for so many undefined tags. -/
  | abortedUndefined (count : Nat)
  deriving DecidableEq, Repr

namespace Event

def level : Event → Level
  | readingInput | readingFile _ | checking | writing _ | completed => .info
  | undefinedTag _ => .warning
  | undefinedError _ | failed _ => .error
  | aborted _ | abortedUndefined _ => .final

def isShown (verbosity : Verbosity) (event : Event) : Bool :=
  match event.level, verbosity with
  | .info, verbosity => verbosity == .verbose
  | .warning, verbosity => verbosity != .quiet
  | .error, _ => true
  | .final, _ => true

private def undefinedAt (line : Nat) : Text :=
  "tag is not defined line=".toList ++ Text.ofNat line ++ " tag=".toList

private def info (message : Text) : Text := "INFO ".toList ++ Text.escapeControls message

def text (w : Wording) : Event → Text
  | readingInput => info "Reading template from stdin...".toList
  | readingFile path => info ("Reading template from ".toList ++ path)
  | checking => info "Checking template...".toList
  | writing path => info ("Writing output to ".toList ++ path)
  | completed => info "Expansion complete!".toList
  | undefinedTag warning => "WARN ".toList ++ undefinedAt warning.line ++ Text.quoteName warning.tag
  | undefinedError warning => "ERROR ".toList ++ undefinedAt warning.line ++ warning.tag
  | failed fault => "ERROR ".toList ++ Text.escapeControls (fault.message w)
  | aborted fault => "Error: ".toList ++ fault.message w
  | abortedUndefined count =>
    "Error: ".toList ++ Text.ofNat count
      ++ " undefined tag reference(s), no output written".toList

end Event

end LineTemplate.CommandLine
