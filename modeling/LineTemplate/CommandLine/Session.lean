import LineTemplate.CommandLine.Arguments
import LineTemplate.CommandLine.Event
import LineTemplate.CommandLine.Listing
import LineTemplate.Definition
import LineTemplate.Source
import LineTemplate.TagFile

/-!
# A session of the program

A session reads the template, then the tags, and then does its task. Exit code 1 stands for a
template that cannot be read, expanded or written, 2 for bad tags and for a command line that
makes no sense. Nothing is written before everything else has succeeded.

`Invocation.plan` decides on what was read; a file that remains to be written is part of its
answer. `run` does the same in a file tree.
-/
namespace LineTemplate.CommandLine

/-- What a session ends with. -/
structure Outcome where
  events : List Event
  output : Text
  exitCode : Nat
  deriving DecidableEq, Repr

/-- What a session does once everything is read. -/
inductive Plan where
  | done (outcome : Outcome)
  /-- Writes an output to a file and ends then. -/
  | write (events : List Event) (path output : Text)
  deriving DecidableEq, Repr

namespace Plan

def fail (events : List Event) (fault : Fault) : Outcome :=
  ⟨events ++ [.failed fault, .aborted fault], [], 1⟩

/-- The end of a session, `written` telling whether its file could be written. -/
def close (written : Bool) : Plan → Outcome
  | done outcome => outcome
  | write events path _ =>
    let events := events ++ [.writing path]
    if written then ⟨events ++ [.completed], [], 0⟩
    else fail events (.inaccessible (.refused path))

end Plan

def printed (ls : List Text) : Text := unlines .lf ls

/-- Expands a template. -/
def planExpansion (e : Expander) (template : Text) (output : Option Text) (strict : Bool) :
    Plan :=
  let run := e.run template
  let events := run.warnings.map Event.undefinedTag
  match run.fault with
  | some fault => .done (Plan.fail events fault)
  | none =>
    if strict ∧ run.warnings ≠ [] then
      .done ⟨events ++ run.warnings.map Event.undefinedError
        ++ [.abortedUndefined run.warnings.length], [], 1⟩
    else
      let text := run.written e.ending.text
      match output with
      | none => .done ⟨events ++ [.completed], text, 0⟩
      | some path => .write events path text

/-- The lines that report on a template without faults. -/
def checkReport (references : List Reference) (warnings : List Warning) : List Text :=
  ("Summary: ".toList ++ Text.ofNat references.length
      ++ " tag references, conditional blocks balanced".toList)
    :: if warnings = [] then ["  ✓ all placeholders defined".toList]
      else
        ("  ✗ ".toList ++ Text.ofNat warnings.length ++ " undefined placeholder(s)".toList)
          :: warnings.map fun w =>
            "    line ".toList ++ Text.ofNat w.line ++ ": ".toList ++ w.tag

def checkOutcome (e : Expander) (template : Text) : Outcome :=
  let run := e.run template
  let events := .checking :: run.warnings.map Event.undefinedTag
  match run.fault with
  | some fault => Plan.fail events fault
  | none =>
    ⟨events, printed (checkReport (Reference.ofTemplate template) run.warnings),
      if run.warnings = [] then 0 else 1⟩

def planTask (e : Expander) (template : Text) : Task → Plan
  | .expand output strict => planExpansion e template output strict
  | .check => .done (checkOutcome e template)
  | .list format =>
    .done ⟨[], printed (listing e.tags (Reference.ofTemplate template) format), 0⟩

namespace Invocation

/-- Whether the template comes from standard input: its path is a single hyphen, which may be
followed by parts that lead nowhere else. -/
def readsInput (i : Invocation) : Bool :=
  match Text.split '/' i.template with
  | ['-'] :: rest => rest.all FileTree.isIdle
  | _ => false

def reading (i : Invocation) : Event :=
  if i.readsInput then .readingInput else .readingFile i.template

/-- The tags of an invocation: those of the tag files, and over them the definitions. -/
def tags (i : Invocation) (tagFiles : List (Except Fault Text)) : Except Fault Dictionary :=
  (Dictionary.ofTagFiles tagFiles).bind (·.defineAll i.definitions)

/-- What a session does, given the template and the tag files as far as they could be read. -/
def plan (i : Invocation) (template : Except Fault Text) (tagFiles : List (Except Fault Text)) :
    Plan :=
  match template with
  | .error fault => .done ⟨[i.reading, .aborted fault], [], 1⟩
  | .ok text =>
    match i.tags tagFiles with
    | .error fault => .done ⟨[i.reading, .aborted fault], [], 2⟩
    | .ok tags =>
      match planTask ⟨tags, i.ending⟩ (Utf8.stripMark text) i.task with
      | .done outcome => .done { outcome with events := i.reading :: outcome.events }
      | .write events path output => .write (i.reading :: events) path output

end Invocation

/-- What is seen of a session from outside. -/
structure Report where
  exitCode : Nat
  output : Text
  /-- The lines on the error channel. -/
  messages : List Text
  /-- Whether the command line itself was refused. -/
  usageError : Bool
  deriving DecidableEq, Repr

def Outcome.report (w : Wording) (verbosity : Verbosity) (outcome : Outcome) : Report :=
  ⟨outcome.exitCode, outcome.output,
    (outcome.events.filter (·.isShown verbosity)).map (Event.text w), false⟩

def versionText : Text := "tplexpand 0.1.0\n".toList

/-- What is shown instead of a session. -/
def Halt.report (w : Wording) (arguments : List Text) : Halt → Report
  | refused => ⟨2, [], [w.usage arguments], true⟩
  | help full => ⟨0, w.help full, [], false⟩
  | version => ⟨0, versionText, [], false⟩

def readTemplate (i : Invocation) (tree : FileTree) (input : Bytes) : Except Fault Text :=
  if i.readsInput then
    match Utf8.decode? input with
    | none => .error (.inaccessible .notText)
    | some text => .ok text
  else tree.readText i.template

/-- Runs a session in a file tree, and gives the tree afterwards. -/
def perform (i : Invocation) (tree : FileTree) (input : Bytes) : Outcome × FileTree :=
  let plan := i.plan (readTemplate i tree input) (i.tagFiles.map tree.readText)
  match plan with
  | .done outcome => (outcome, tree)
  | .write _ path output =>
    match tree.write? path (Utf8.encode output) with
    | none => (plan.close false, tree)
    | some tree => (plan.close true, tree)

/-- Runs the program. -/
def run (w : Wording) (arguments : List Text) (environment : Environment) (tree : FileTree)
    (input : Bytes) : Report × FileTree :=
  match readInvocation arguments environment with
  | .error halt => (halt.report w arguments, tree)
  | .ok i =>
    let (outcome, tree) := perform i tree input
    (outcome.report w i.verbosity, tree)

end LineTemplate.CommandLine
