import LineTemplate.CommandLine.Invocation
import LineTemplate.Dictionary
import LineTemplate.Json.Printer
import LineTemplate.Reference
import Std.Data.TreeSet

/-!
# Listing the tags of a template

The references of a template in one of three forms: the names in the order of their first use,
a paragraph for each reference, or a JSON array. The last two say whether the tag is defined.
-/
namespace LineTemplate.CommandLine

/-- The names of the tags referred to, each at its first place. -/
def firstNames (seen : Std.TreeSet Text) : List Reference → List Text
  | [] => []
  | r :: rest =>
    if r.tag ∈ seen then firstNames seen rest
    else r.tag :: firstNames (seen.insert r.tag) rest

def kindName : ReferenceKind → Text
  | .placeholder => "placeholder".toList
  | .condition => "condition".toList

/-- Whether a tag is defined, and how long its value is. -/
def definedText (tags : Dictionary) (name : Text) : Text :=
  match tags.get? name with
  | none => "no".toList
  | some [] => "yes (empty)".toList
  | some value => "yes (".toList ++ Text.ofNat (Text.byteLength value) ++ " bytes)".toList

def describe (tags : Dictionary) (r : Reference) : List Text :=
  ["Tag: ".toList ++ r.tag,
    "  Kind: ".toList ++ kindName r.kind,
    "  Position: ".toList ++ Text.ofNat r.line ++ ':' :: Text.ofNat r.column]
  ++ (match r.options with
    | none => []
    | some options => ["  Options: ".toList ++ options])
  ++ ["  Defined: ".toList ++ definedText tags r.tag]

def referenceJson (tags : Dictionary) (r : Reference) : Json :=
  .object ([("tag".toList, .string r.tag), ("kind".toList, .string (kindName r.kind)),
      ("line".toList, .number (.whole r.line)), ("column".toList, .number (.whole r.column))]
    ++ (match r.options with
      | none => []
      | some options => [("options".toList, .string options)])
    ++ [("defined".toList, .bool (tags.contains r.tag))])

def listing (tags : Dictionary) (references : List Reference) : ListFormat → List Text
  | .plain => firstNames ∅ references
  | .detailed => references.flatMap (describe tags)
  | .json => [(Json.array (references.map (referenceJson tags))).pretty]

end LineTemplate.CommandLine
