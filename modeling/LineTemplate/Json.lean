import LineTemplate.Number

/-!
# JSON values

Tag files hold one JSON value. The members of an object are kept in ascending order of their
keys, code point by code point, and no key comes twice.
-/
namespace LineTemplate

inductive Json where
  | null
  | bool (value : Bool)
  | number (value : Number)
  | string (value : Text)
  | array (items : List Json)
  | object (members : List (Text × Json))

namespace Json

def kind : Json → Text
  | null => "null".toList
  | bool _ => "bool".toList
  | number _ => "number".toList
  | string _ => "string".toList
  | array _ => "array".toList
  | object _ => "object".toList

end Json

end LineTemplate
