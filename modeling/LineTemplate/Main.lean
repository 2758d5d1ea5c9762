import LineTemplate.CommandLine.Session

/-!
# The program

Reads the files that an invocation names, carries out its plan, and shows what came of it. All
decisions are taken by `Invocation.plan`.
-/
namespace LineTemplate.CommandLine

/-- Actions that take down what the system says of the paths that it turns down. -/
abbrev Shell := StateT (List (Text × Text)) IO

def refuse (path : Text) (error : IO.Error) : Shell Fault := do
  modify ((path, (toString error).toList) :: ·)
  return .inaccessible (.refused path)

def decodeFile (content : ByteArray) : Except Fault Text :=
  match String.fromUTF8? content with
  | none => .error (.inaccessible .notText)
  | some text => .ok text.toList

def readFile (path : Text) : Shell (Except Fault Text) := do
  try
    return decodeFile (← IO.FS.readBinFile (String.ofList path))
  catch
    | error@(.permissionDenied ..) => return .error (← refuse path error)
    | _ => return .error (.fileNotFound path)

def readVariable (name : String) : IO (Option Text) :=
  return (← IO.getEnv name).map (·.toList)

/-- Reads an input to its end. -/
partial def readAll (input : IO.FS.Stream) (content : ByteArray) : IO ByteArray := do
  let chunk ← input.read 65536
  if chunk.isEmpty then return content else readAll input (content ++ chunk)

def readSource (i : Invocation) : Shell (Except Fault Text) := do
  if i.readsInput then
    try
      return decodeFile (← readAll (← IO.getStdin) .empty)
    catch error => return .error (← refuse i.template error)
  else readFile i.template

def carryOut (plan : Plan) : Shell Outcome := do
  match plan with
  | .done outcome => return outcome
  | .write _ path output =>
    try
      IO.FS.writeFile (String.ofList path) (String.ofList output)
      return plan.close true
    catch error =>
      let _ ← refuse path error
      return plan.close false

def usageLine : Text := "Usage: tplexpand [OPTIONS] <TEMPLATE>".toList

/-- The wording of a session, given what the system said. -/
def wordingOf (said : List (Text × Text)) : Wording where
  system path := (said.lookup path).getD []
  json _ := "not a JSON text".toList
  help _ := printed [usageLine]
  usage _ := usageLine

/-- Shows a report, and gives the exit code. -/
def showReport (report : Report) : IO UInt32 := do
  for message in report.messages do
    IO.eprintln (String.ofList message)
  let output ← IO.getStdout
  output.putStr (String.ofList report.output)
  output.flush
  return report.exitCode.toUInt32

def carryOutInvocation (i : Invocation) : Shell Outcome := do
  let template ← readSource i
  let tagFiles ← if template.isOk then i.tagFiles.mapM readFile else pure []
  carryOut (i.plan template tagFiles)

end LineTemplate.CommandLine

open LineTemplate.CommandLine in
def main (arguments : List String) : IO UInt32 := do
  let arguments := arguments.map (·.toList)
  let tagFiles ← readVariable "TPLEXPAND_TAGS"
  let newline ← readVariable "TPLEXPAND_NEWLINE"
  match readInvocation arguments ⟨tagFiles, newline⟩ with
  | .error halt => showReport (halt.report (wordingOf []) arguments)
  | .ok i =>
    let (outcome, said) ← (carryOutInvocation i).run []
    showReport (outcome.report (wordingOf said) i.verbosity)
