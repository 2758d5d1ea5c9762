import LineTemplate.Dictionary
import LineTemplate.Json.Reader

/-!
# Tag files

A tag file is a JSON object whose keys are tag names. Strings are values as they stand, numbers
and `true` are values by their text, and an array of strings is a value of several lines. `false`
and `null` leave a tag undefined. The members are read in the order of their keys and the first
fault counts; of one member, the name is looked at first.
-/
namespace LineTemplate.Dictionary

/-- The name that stands for the whole of a tag file. -/
def rootName : Text := "<root>".toList

/-- The strings of an array; any other item is a fault. -/
def arrayLines (name : Text) : List Json → Except Fault (List Text)
  | [] => .ok []
  | .string line :: rest => (arrayLines name rest).map (line :: ·)
  | item :: _ => .error (.invalidValue name ("array containing ".toList ++ item.kind))

/-- The value that a member gives to a tag, or none if it leaves the tag undefined. -/
def memberValue (name : Text) : Json → Except Fault (Option Text)
  | .null => .ok none
  | .bool flag => .ok (if flag then some flagText else none)
  | .number n => .ok (some n.text)
  | .string value => .ok (some value)
  | .array items => (arrayLines name items).map fun ls => some (['\n'].intercalate ls)
  | .object members => .error (.invalidValue name (Json.object members).kind)

/-- Checks a member, and reads the value that it gives. -/
def readMember (name : Text) (value : Json) : Except Fault (Option Text) :=
  match checkName name with
  | .error fault => .error fault
  | .ok () => memberValue name value

/-- Takes over members one by one, up to the first fault. -/
def addMembers (d : Dictionary) : List (Text × Json) → Except Fault Dictionary
  | [] => .ok d
  | (name, value) :: rest =>
    match readMember name value with
    | .error fault => .error fault
    | .ok none => d.addMembers rest
    | .ok (some text) => (d.insert name text).addMembers rest

def ofJson : Json → Except Fault Dictionary
  | .object members => empty.addMembers members
  | value => .error (.invalidValue rootName value.kind)

def ofTagFile (content : Text) : Except Fault Dictionary :=
  match Json.read? content with
  | none => .error (.malformedTagFile content)
  | some value => ofJson value

/-- Takes over tag files in their order. A file that could not be read is given by its fault. -/
def addTagFiles (d : Dictionary) : List (Except Fault Text) → Except Fault Dictionary
  | [] => .ok d
  | .error fault :: _ => .error fault
  | .ok content :: rest =>
    match ofTagFile content with
    | .error fault => .error fault
    | .ok more => (d.extend more).addTagFiles rest

/-- The dictionary of several tag files, later ones over earlier ones. -/
def ofTagFiles (contents : List (Except Fault Text)) : Except Fault Dictionary :=
  empty.addTagFiles contents

end LineTemplate.Dictionary
