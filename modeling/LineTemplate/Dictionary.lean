import LineTemplate.Fault
import LineTemplate.Text.Word
import Std.Data.TreeMap

/-!
# Tag dictionaries

A dictionary gives values to tag names. It is looked at through `get?` only: the laws below say
what each operation does to the answers of `get?`.
-/
namespace LineTemplate

/-- The values of the tags that are defined. -/
structure Dictionary where
  values : Std.TreeMap Text Text

/-- Names of tags have to be words. -/
def checkName (name : Text) : Except Fault Unit :=
  if Text.isName name then .ok () else .error (.invalidName name)

namespace Dictionary

def empty : Dictionary := ⟨∅⟩

/-- The tags that are defined with their values, in the order of their names. -/
def entries (d : Dictionary) : List (Text × Text) := d.values.toList

def get? (d : Dictionary) (name : Text) : Option Text := d.values[name]?

def contains (d : Dictionary) (name : Text) : Bool := (d.get? name).isSome

/-- Whether a tag is defined and its value is not empty. -/
def hasValue (d : Dictionary) (name : Text) : Bool :=
  match d.get? name with
  | none => false
  | some value => !value.isEmpty

def size (d : Dictionary) : Nat := d.values.size

def isEmpty (d : Dictionary) : Bool := d.values.isEmpty

def erase (d : Dictionary) (name : Text) : Dictionary := ⟨d.values.erase name⟩

/-- Gives a tag a value, in place of any earlier one. -/
def insert (d : Dictionary) (name value : Text) : Dictionary := ⟨d.values.insert name value⟩

/-- The value of a tag that is only switched on. -/
def flagText : Text := "true".toList

def setFlag (d : Dictionary) (name : Text) (flag : Bool) : Dictionary :=
  if flag then d.insert name flagText else d.erase name

/-- Adds pairs one after the other, so that the last pair of a name counts. -/
def insertAll (d : Dictionary) (pairs : List (Text × Text)) : Dictionary :=
  pairs.foldl (fun d pair => d.insert pair.1 pair.2) d

/-- Adds what another dictionary defines, over what was there. -/
def extend (d other : Dictionary) : Dictionary := ⟨d.values ∪ other.values⟩

def ofPairs (pairs : List (Text × Text)) : Dictionary := empty.insertAll pairs

@[simp] theorem get?_empty (name : Text) : empty.get? name = none :=
  Std.TreeMap.getElem?_emptyc

@[simp] theorem get?_erase (d : Dictionary) (name other : Text) :
    (d.erase name).get? other = if other = name then none else d.get? other := by
  simp only [get?, erase, Std.TreeMap.getElem?_erase, Std.compare_eq_iff_eq,
    eq_comm (a := name)]

@[simp] theorem get?_insert (d : Dictionary) (name value other : Text) :
    (d.insert name value).get? other = if other = name then some value else d.get? other := by
  simp only [get?, insert, Std.TreeMap.getElem?_insert, Std.compare_eq_iff_eq,
    eq_comm (a := name)]

@[simp] theorem get?_extend (d other : Dictionary) (name : Text) :
    (d.extend other).get? name = (other.get? name).or (d.get? name) :=
  Std.TreeMap.getElem?_union

theorem get?_setFlag (d : Dictionary) (name other : Text) (flag : Bool) :
    (d.setFlag name flag).get? other
      = if other = name then (if flag then some flagText else none) else d.get? other := by
  cases flag <;> simp [setFlag]

end Dictionary

end LineTemplate
