import LineTemplate.Text.Blank

/-!
# Directives

A directive is a whole line between markers `!!` that switches output on and off. White space
may follow each marker, the colon and the name, and may stand in front of the closing marker of
a test or of `endif`, but not of `else`. Any other line is content, even one that starts with the
marker.
-/
namespace LineTemplate

/-- What a condition asks of its tag. A tag that is not defined counts as empty. -/
inductive Test where
  | empty
  | notEmpty
  deriving DecidableEq, Repr

structure Condition where
  test : Test
  tag : Text
  deriving DecidableEq, Repr

/-- Whether a condition holds of a tag that has a non-empty value or has none. -/
def Test.holds (hasValue : Bool) : Test → Bool
  | .empty => !hasValue
  | .notEmpty => hasValue

inductive Directive where
  | opening (condition : Condition)
  /-- Another branch of the innermost block, guarded by a condition. -/
  | alternative (condition : Condition)
  /-- Another branch of the innermost block, for when none before it was taken. -/
  | otherwise
  | closing
  deriving DecidableEq, Repr

namespace Directive

/-- What a directive line begins and ends with. -/
def marker : Text := ['!', '!']

/-- The two kinds of guarded branches with the two tests. -/
inductive Keyword where
  | ifTest (test : Test)
  | elifTest (test : Test)
  deriving DecidableEq, Repr

namespace Keyword

def testText : Test → Text
  | .empty => "ifempty:".toList
  | .notEmpty => "ifnotempty:".toList

def text : Keyword → Text
  | .ifTest test => testText test
  | .elifTest test => "el".toList ++ testText test

/-- All keywords; none of them begins with another. -/
def all : List Keyword := [.ifTest .empty, .ifTest .notEmpty, .elifTest .empty, .elifTest .notEmpty]

def directive (tag : Text) : Keyword → Directive
  | .ifTest test => opening ⟨test, tag⟩
  | .elifTest test => alternative ⟨test, tag⟩

end Keyword

/-- Whether a text is a closing marker with nothing but white space behind it. -/
def isClosed (text : Text) : Bool :=
  match Text.strip? marker text with
  | none => false
  | some rest => rest.all Text.isBlank

/-- A test line read up to its tag: the text in front of the tag, and the directive. -/
structure Located where
  lead : Text
  tag : Text
  directive : Directive
  deriving DecidableEq, Repr

/-- Reads the tag behind a keyword, and the end of the line behind it. -/
def readTag? (lead : Text) (keyword : Keyword) (text : Text) : Option Located :=
  let tag := (Text.trimStart text).takeWhile Text.isWord
  let behind := (Text.trimStart text).dropWhile Text.isWord
  if tag.isEmpty then none
  else if isClosed (Text.trimStart behind) then
    some ⟨lead ++ keyword.text ++ Text.indentation text, tag, keyword.directive tag⟩
  else none

/-- Reads a test line, keeping where its tag stands. -/
def locate? (line : Text) : Option Located :=
  match Text.strip? marker line with
  | none => none
  | some body =>
    Keyword.all.findSome? fun keyword =>
      match Text.strip? keyword.text (Text.trimStart body) with
      | none => none
      | some rest => readTag? (marker ++ Text.indentation body) keyword rest

/-- Whether a line is `else`; no white space may stand in front of the closing marker. -/
def isOtherwise (line : Text) : Bool :=
  match Text.strip? marker line with
  | none => false
  | some body =>
    match Text.strip? "else".toList (Text.trimStart body) with
    | none => false
    | some rest => isClosed rest

def isClosing (line : Text) : Bool :=
  match Text.strip? marker line with
  | none => false
  | some body =>
    match Text.strip? "endif".toList (Text.trimStart body) with
    | none => false
    | some rest => isClosed (Text.trimStart rest)

/-- The directive that a line is, if it is one. -/
def read? (line : Text) : Option Directive :=
  if isClosing line then some closing
  else if isOtherwise line then some otherwise
  else (locate? line).map (·.directive)

/-- Where the tag of a test line stands in it, in bytes and counted from one. -/
def Located.column (located : Located) : Nat := Text.byteLength located.lead + 1

end Directive

end LineTemplate
