import LineTemplate.Conditional
import LineTemplate.Substitution

/-!
# Expansion of a template

A template is taken line by line. Directives switch the output on and off; a content line is
substituted while output is on. A run records the fate of every line it came to, the warnings,
and the fault that ended it, if any. What was written is read off the fates: whole lines, each
with its ending.
-/
namespace LineTemplate

/-- What became of a template line. -/
inductive Fate where
  | directive
  /-- The line stands in a branch that is not taken. -/
  | suppressed
  /-- The line was dropped for an empty value. -/
  | skipped
  /-- The line was written, as the given text and an ending. -/
  | emitted (text : Text)
  deriving DecidableEq, Repr

def Fate.written (newline : Text) : Fate → Text
  | emitted text => text ++ newline
  | _ => []

/-- A run through a template, as far as it went. -/
structure Run where
  fates : List Fate
  warnings : List Warning
  fault : Option Fault
  deriving DecidableEq, Repr

namespace Run

def stop (fault : Option Fault) : Run := ⟨[], [], fault⟩

def after (fate : Fate) (warnings : List Warning) (run : Run) : Run :=
  { run with fates := fate :: run.fates, warnings := warnings ++ run.warnings }

def written (newline : Text) (run : Run) : Text := run.fates.flatMap (Fate.written newline)

def outcome (run : Run) : Except Fault (List Warning) :=
  match run.fault with
  | some fault => .error fault
  | none => .ok run.warnings

end Run

structure Expansion where
  output : Text
  warnings : List Warning
  deriving DecidableEq, Repr

/-- A dictionary and a line ending to expand templates with. -/
structure Expander where
  tags : Dictionary
  ending : LineEnding

namespace Expander

/-- Runs through the lines from number `line` on, the blocks being in state `c`. -/
def runFrom (e : Expander) (line : Nat) (c : Conditional) : List Text → Run
  | [] => .stop c.unclosed?
  | text :: rest =>
    match Directive.read? text with
    | some directive =>
      match c.step e.tags.hasValue line directive with
      | .error fault => .stop (some fault)
      | .ok c => (e.runFrom (line + 1) c rest).after .directive []
    | none =>
      if c.emits then
        let s := substitute e.tags e.ending.text text line
        match s.result with
        | .error fault => { Run.stop (some fault) with warnings := s.warnings }
        | .ok .skip => (e.runFrom (line + 1) c rest).after .skipped s.warnings
        | .ok (.line text) => (e.runFrom (line + 1) c rest).after (.emitted text) s.warnings
      else (e.runFrom (line + 1) c rest).after .suppressed []

def run (e : Expander) (template : Text) : Run := e.runFrom 1 .start (lines template)

/-- What was written of a template, also where the run fails. -/
def written (e : Expander) (template : Text) : Text := (e.run template).written e.ending.text

/-- The warnings of a template, or the fault that ends its expansion; no output is kept. -/
def check (e : Expander) (template : Text) : Except Fault (List Warning) :=
  (e.run template).outcome

/-- Expands a template. -/
def expand (e : Expander) (template : Text) : Except Fault Expansion :=
  (e.check template).map fun warnings => ⟨e.written template, warnings⟩

/-- Expands a template, then the output, and so on, `rounds` times; a fault ends the sequence. -/
def expandRounds (e : Expander) : Nat → Text → List (Except Fault Expansion)
  | 0, _ => []
  | rounds + 1, template =>
    match e.expand template with
    | .error fault => [.error fault]
    | .ok expansion => .ok expansion :: e.expandRounds rounds expansion.output

end Expander

end LineTemplate
