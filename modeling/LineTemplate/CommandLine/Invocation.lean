import LineTemplate.Line

/-!
# Invocations

What a command line asks for: a template, tags, a line ending, and what to do with them.
-/
namespace LineTemplate.CommandLine

inductive ListFormat where
  /-- The names, each once. -/
  | plain
  /-- Every reference with its place. -/
  | detailed
  /-- Every reference, as a JSON array. -/
  | json
  deriving DecidableEq, Repr

namespace ListFormat

def name : ListFormat → Text
  | plain => "plain".toList
  | detailed => "detailed".toList
  | json => "json".toList

def ofName? (name : Text) : Option ListFormat := [plain, detailed, json].find? (·.name == name)

end ListFormat

inductive Task where
  /-- Expand to a file or to standard output; if strict, not while tags are undefined. -/
  | expand (output : Option Text) (strict : Bool)
  | check
  | list (format : ListFormat)
  deriving DecidableEq, Repr

/-- Which log lines are shown. Asking for more twice shows no other lines than asking once: those
for debugging and tracing are not looked at here. -/
inductive Verbosity where
  | quiet
  | normal
  | verbose
  deriving DecidableEq, Repr

/-- A command line that makes sense. -/
structure Invocation where
  /-- The path of the template; a single hyphen stands for standard input. -/
  template : Text
  tagFiles : List Text
  definitions : List Text
  ending : LineEnding
  task : Task
  verbosity : Verbosity
  deriving DecidableEq, Repr

/-- Why a command line asks for nothing to be expanded. -/
inductive Halt where
  /-- It makes no sense. -/
  | refused
  | help (full : Bool)
  | version
  deriving DecidableEq, Repr

/-- The environment variables that stand in for options. Others, such as a filter for log lines, are
taken to be unset. -/
structure Environment where
  tagFiles : Option Text
  newline : Option Text
  deriving DecidableEq, Repr

end LineTemplate.CommandLine
