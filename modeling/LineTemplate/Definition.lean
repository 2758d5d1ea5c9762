import LineTemplate.Dictionary
import LineTemplate.Text.Blank

/-!
# Definitions

A definition `NAME=VALUE` gives a tag a value, and a bare `NAME` switches it on. White space
around the name is dropped, while everything behind the first equals sign is the value as it
stands.
-/
namespace LineTemplate

/-- A tag with the value it is given, or none where it is only switched on. -/
structure Definition where
  name : Text
  value : Option Text
  deriving DecidableEq, Repr

namespace Definition

def read (text : Text) : Except Fault Definition :=
  let (lead, value) := Text.cut '=' text
  let name := Text.trim lead
  if name.isEmpty then .error (.invalidDefinition text)
  else
    match checkName name with
    | .error fault => .error fault
    | .ok () => .ok ⟨name, value⟩

end Definition

namespace Dictionary

def apply (d : Dictionary) (definition : Definition) : Dictionary :=
  d.insert definition.name (definition.value.getD flagText)

def define (d : Dictionary) (text : Text) : Except Fault Dictionary :=
  match Definition.read text with
  | .error fault => .error fault
  | .ok definition => .ok (d.apply definition)

/-- Takes over definitions in their order, up to the first that cannot be read. -/
def defineAll (d : Dictionary) : List Text → Except Fault Dictionary
  | [] => .ok d
  | text :: rest =>
    match d.define text with
    | .error fault => .error fault
    | .ok d => d.defineAll rest

end Dictionary

end LineTemplate
