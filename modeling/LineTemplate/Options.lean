import LineTemplate.Numeral
import LineTemplate.Text.Blank

/-!
# Options of a placeholder

The options of a placeholder are separated by colons and say how a value is inserted. Each piece
is read on its own, white space around it aside; pieces that are no option are ignored. A later
indentation replaces an earlier one, and a width that cannot be read fails at once, whatever
follows it.
-/
namespace LineTemplate

/-- How the value of a placeholder is inserted. -/
structure Options where
  /-- What is put in front of each inserted line. -/
  indent : Text
  /-- Whether the first inserted line already stands behind its indentation. -/
  keepsIndent : Bool
  /-- Whether an empty value drops the whole line. -/
  skipsEmpty : Bool
  deriving DecidableEq, Repr

inductive OptionItem where
  /-- Indent by as many copies of a character as the numeral says. -/
  | indent (unit : Char) (width : Text)
  | keepIndent
  | skipEmpty
  | unknown
  deriving DecidableEq, Repr

namespace OptionItem

/-- Reads a piece of an option list that has no white space around it. -/
def ofText (text : Text) : OptionItem :=
  match Text.strip? "spaceindent=".toList text, Text.strip? "tabindent=".toList text with
  | some width, _ => indent ' ' width
  | none, some width => indent '\t' width
  | none, none =>
    if text = "keepindent".toList then keepIndent
    else if text = "skipempty".toList then skipEmpty
    else unknown

end OptionItem

namespace Options

/-- Without options a value is inserted as it is. -/
def plain : Options := ⟨[], false, false⟩

/-- The number a width stands for, if it is not too wide. `option` is the whole option, named
by the fault. -/
def width (line : Nat) (option width : Text) : Except Fault Nat :=
  match Numeral.read (Text.trim width) with
  | .error cause => .error (.badWidth line option cause)
  | .ok n => if n ≤ maxIndent then .ok n else .error (.indentTooWide line option)

/-- One more option, on a line with the given indentation. -/
def apply (lineIndent : Text) (line : Nat) (options : Options) (option : Text) :
    Except Fault Options :=
  match OptionItem.ofText option with
  | .indent c text =>
    match width line option text with
    | .error fault => .error fault
    | .ok n => .ok { options with indent := List.replicate n c, keepsIndent := false }
  | .keepIndent => .ok { options with indent := lineIndent, keepsIndent := true }
  | .skipEmpty => .ok { options with skipsEmpty := true }
  | .unknown => .ok options

def pieces (text : Text) : List Text := (Text.split ':' text).map Text.trim

/-- Options in the order of their pieces, later ones over earlier ones. -/
def ofPieces (lineIndent : Text) (line : Nat) (options : Options) :
    List Text → Except Fault Options
  | [] => .ok options
  | option :: rest =>
    match apply lineIndent line options option with
    | .error fault => .error fault
    | .ok options => ofPieces lineIndent line options rest

/-- What one more option does where it is accepted: it sets the indentation, or it asks for the line
to be dropped, or it changes nothing. -/
theorem apply_cases {lineIndent option : Text} {line : Nat} {options next : Options}
    (h : apply lineIndent line options option = .ok next) :
    (∃ unit text n, OptionItem.ofText option = .indent unit text ∧ width line option text = .ok n ∧
        next = { options with indent := List.replicate n unit, keepsIndent := false }) ∨
      (OptionItem.ofText option = .keepIndent ∧
        next = { options with indent := lineIndent, keepsIndent := true }) ∨
      (OptionItem.ofText option = .skipEmpty ∧ next = { options with skipsEmpty := true }) ∨
      (OptionItem.ofText option = .unknown ∧ next = options) := by
  unfold apply at h
  split at h
  · rename_i unit text hitem
    split at h
    · contradiction
    · rename_i n hwidth
      exact .inl ⟨unit, text, n, hitem, hwidth, (Except.ok.inj h).symm⟩
  · rename_i hitem
    exact .inr (.inl ⟨hitem, (Except.ok.inj h).symm⟩)
  · rename_i hitem
    exact .inr (.inr (.inl ⟨hitem, (Except.ok.inj h).symm⟩))
  · rename_i hitem
    exact .inr (.inr (.inr ⟨hitem, (Except.ok.inj h).symm⟩))

/-- What every option keeps is kept by a list of them. -/
theorem ofPieces_keeps (kept : Options → Prop) {lineIndent : Text} {line : Nat}
    (hstep : ∀ options option next, kept options →
      apply lineIndent line options option = .ok next → kept next)
    {options last : Options} {pieces : List Text}
    (h : ofPieces lineIndent line options pieces = .ok last) (hoptions : kept options) :
    kept last := by
  induction pieces generalizing options with
  | nil =>
    cases h
    exact hoptions
  | cons option pieces ih =>
    unfold ofPieces at h
    split at h
    · contradiction
    · rename_i next hnext
      exact ih h (hstep options option next hoptions hnext)

/-- The options of a placeholder on a line with the given indentation. -/
def readIndented (text lineIndent : Text) (line : Nat) : Except Fault Options :=
  ofPieces lineIndent line plain (pieces text)

/-- The options of a placeholder on the given source line. -/
def read (text source : Text) (line : Nat) : Except Fault Options :=
  readIndented text (Text.indentation source) line

end Options

end LineTemplate
