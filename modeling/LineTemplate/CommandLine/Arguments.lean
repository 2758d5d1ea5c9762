import LineTemplate.CommandLine.Invocation

/-!
# Reading a command line

Arguments are read from left to right. A long option is one word, its value behind an equals sign
or in the next argument. Short options may share one argument; the first of them that takes a
value takes the rest of the argument, or else the next one. A value in an argument of its own
must not look like an option, and two hyphens end the options. What an option must not have, two
values or a bad one, is refused where it is read; what must not go together is refused at the
end. A request for help or for the version is granted where it is read.
-/
namespace LineTemplate.CommandLine

/-- Options without a value. -/
inductive Flag where
  | check
  | strict
  | verbose
  | quiet
  | help (full : Bool)
  | version
  deriving DecidableEq, Repr

/-- Options with a value. -/
inductive Setting where
  | output
  | tags
  | define
  | newline
  | list
  deriving DecidableEq, Repr

abbrev Key := Flag ⊕ Setting

namespace Key

def longNames : List (Text × Key) :=
  [("output".toList, .inr .output), ("tags".toList, .inr .tags), ("define".toList, .inr .define),
    ("newline".toList, .inr .newline), ("list".toList, .inr .list), ("check".toList, .inl .check),
    ("strict".toList, .inl .strict), ("verbose".toList, .inl .verbose),
    ("quiet".toList, .inl .quiet), ("help".toList, .inl (.help true)),
    ("version".toList, .inl .version)]

def shortNames : List (Char × Key) :=
  [('o', .inr .output), ('t', .inr .tags), ('D', .inr .define), ('n', .inr .newline),
    ('v', .inl .verbose), ('q', .inl .quiet), ('h', .inl (.help false)), ('V', .inl .version)]

end Key

/-- What the arguments read so far have given. Of tag files and definitions the last one stands
first. -/
structure Given where
  template : Option Text
  output : Option Text
  tagFiles : List Text
  definitions : List Text
  newline : Option LineEnding
  list : Option ListFormat
  check : Bool
  strict : Bool
  verbose : Bool
  quiet : Bool
  deriving DecidableEq, Repr

namespace Given

def nothing : Given := ⟨none, none, [], [], none, none, false, false, false, false⟩

/-- The paths in a list separated by commas; none of them may be empty. -/
def paths? (value : Text) : Option (List Text) :=
  let paths := Text.split ',' value
  if [] ∈ paths then none else some paths

/-- Accepts a flag. Only the request for more log lines may come twice. -/
def flag (g : Given) : Flag → Except Halt Given
  | .check => if g.check then .error .refused else .ok { g with check := true }
  | .strict => if g.strict then .error .refused else .ok { g with strict := true }
  | .verbose => .ok { g with verbose := true }
  | .quiet => if g.quiet then .error .refused else .ok { g with quiet := true }
  | .help full => .error (.help full)
  | .version => .error .version

/-- Accepts the value of a setting. Tag files and definitions add up; of the others there may be
only one. -/
def setting (g : Given) (value : Text) : Setting → Except Halt Given
  | .output =>
    if g.output.isSome ∨ value = [] then .error .refused
    else .ok { g with output := some value }
  | .tags =>
    match paths? value with
    | none => .error .refused
    | some paths => .ok { g with tagFiles := paths.reverse ++ g.tagFiles }
  | .define => .ok { g with definitions := value :: g.definitions }
  | .newline =>
    match g.newline, LineEnding.ofName? value with
    | none, some ending => .ok { g with newline := some ending }
    | _, _ => .error .refused
  | .list =>
    match g.list, ListFormat.ofName? value with
    | none, some format => .ok { g with list := some format }
    | _, _ => .error .refused

/-- Accepts a setting without a value, which only the list has. -/
def bare (g : Given) : Setting → Except Halt Given
  | .list => g.setting ListFormat.plain.name .list
  | _ => .error .refused

def positional (g : Given) (argument : Text) : Except Halt Given :=
  if g.template.isSome ∨ argument = [] then .error .refused
  else .ok { g with template := some argument }

/-- Accepts a setting that still waits for its value, now that none comes. -/
def settle (g : Given) : Option Setting → Except Halt Given
  | none => .ok g
  | some setting => g.bare setting

/-- Reads a long option without its hyphens. A setting without a value is returned, since the
value may be the next argument. -/
def long (g : Given) (argument : Text) : Except Halt (Given × Option Setting) :=
  let (name, value) := Text.cut '=' argument
  match Key.longNames.lookup name, value with
  | none, _ => .error .refused
  | some (.inl _), some _ => .error .refused
  | some (.inl flag), none => (g.flag flag).map (·, none)
  | some (.inr setting), some value => (g.setting value setting).map (·, none)
  | some (.inr setting), none => .ok (g, some setting)

/-- Reads short options without their hyphen. An equals sign in front of a value is dropped. -/
def short (g : Given) : Text → Except Halt (Given × Option Setting)
  | [] => .ok (g, none)
  | c :: rest =>
    match Key.shortNames.lookup c with
    | none => .error .refused
    | some (.inl flag) => (g.flag flag).bind (·.short rest)
    | some (.inr setting) =>
      match rest with
      | [] => .ok (g, some setting)
      | '=' :: value => (g.setting value setting).map (·, none)
      | value => (g.setting value setting).map (·, none)

end Given

/-- Reads arguments, `waiting` being a setting whose value may come next. -/
def readArguments (g : Given) (waiting : Option Setting) : List Text → Except Halt Given
  | [] => g.settle waiting
  | argument :: rest =>
    match argument, waiting with
    | ['-', '-'], waiting => (g.settle waiting).bind fun g => rest.foldlM Given.positional g
    | '-' :: '-' :: name, waiting =>
      (g.settle waiting).bind fun g =>
        (g.long name).bind fun (g, waiting) => readArguments g waiting rest
    | '-' :: c :: cluster, waiting =>
      (g.settle waiting).bind fun g =>
        (g.short (c :: cluster)).bind fun (g, waiting) => readArguments g waiting rest
    | value, some setting => (g.setting value setting).bind fun g => readArguments g none rest
    | argument, none => (g.positional argument).bind fun g => readArguments g none rest

namespace Given

/-- The tag files of the environment are used if no option names any. -/
def tagFilesOr (g : Given) (environment : Option Text) : Except Halt (List Text) :=
  match g.tagFiles, environment with
  | [], some value =>
    match paths? value with
    | none => .error .refused
    | some paths => .ok paths
  | paths, _ => .ok paths.reverse

/-- The line ending of the environment is used if no option names one. -/
def endingOr (g : Given) (environment : Option Text) : Except Halt LineEnding :=
  match g.newline, environment with
  | some ending, _ => .ok ending
  | none, none => .ok .lf
  | none, some name =>
    match LineEnding.ofName? name with
    | none => .error .refused
    | some ending => .ok ending

/-- The task that the options ask for; checking and listing exclude each other. -/
def task? (g : Given) : Option Task :=
  match g.check, g.list with
  | true, some _ => none
  | true, none => some .check
  | false, some format => some (.list format)
  | false, none => some (.expand g.output g.strict)

/-- The log lines that the options ask for; one cannot ask for more and for fewer. -/
def verbosity? (g : Given) : Option Verbosity :=
  match g.quiet, g.verbose with
  | true, true => none
  | true, false => some .quiet
  | false, true => some .verbose
  | false, false => some .normal

end Given

/-- Reads a command line without the name of the program. -/
def readInvocation (arguments : List Text) (environment : Environment) :
    Except Halt Invocation := do
  let g ← readArguments .nothing none arguments
  let tagFiles ← g.tagFilesOr environment.tagFiles
  let ending ← g.endingOr environment.newline
  match g.template, g.task?, g.verbosity? with
  | some template, some task, some verbosity =>
    return ⟨template, tagFiles, g.definitions.reverse, ending, task, verbosity⟩
  | _, _, _ => throw .refused

end LineTemplate.CommandLine
