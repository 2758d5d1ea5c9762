import LineTemplate.Text

/-!
# UTF-8

Files hold bytes. `decode?` reads them as a text, if they are well-formed; `decodeLossy` reads
any bytes, with a replacement character for each longest ill-formed part. Both run one machine
over the bytes, which keeps the character under way and the bounds of its next byte.
-/
namespace LineTemplate

/-- The content of a file. -/
abbrev Bytes := List UInt8

namespace Utf8

/-- A character under way: its bits so far, the bounds of the next byte, and how many bytes
follow that one. -/
structure Partial where
  bits : Nat
  low : Nat
  high : Nat
  more : Nat
  deriving DecidableEq, Repr

/-- What the first byte of a character means: the whole character, or the start of a longer
one. Bytes that begin no character are refused. -/
def lead? (b : Nat) : Option (Char ⊕ Partial) :=
  if b < 0x80 then some (.inl (Char.ofNat b))
  else if 0xC2 ≤ b ∧ b ≤ 0xDF then some (.inr ⟨b - 0xC0, 0x80, 0xBF, 0⟩)
  else if b = 0xE0 then some (.inr ⟨0, 0xA0, 0xBF, 1⟩)
  else if b = 0xED then some (.inr ⟨0xD, 0x80, 0x9F, 1⟩)
  else if 0xE1 ≤ b ∧ b ≤ 0xEF then some (.inr ⟨b - 0xE0, 0x80, 0xBF, 1⟩)
  else if b = 0xF0 then some (.inr ⟨0, 0x90, 0xBF, 2⟩)
  else if 0xF1 ≤ b ∧ b ≤ 0xF3 then some (.inr ⟨b - 0xF0, 0x80, 0xBF, 2⟩)
  else if b = 0xF4 then some (.inr ⟨4, 0x80, 0x8F, 2⟩)
  else none

/-- The machine between bytes: what was read, last first with `none` for an ill-formed part, and
the character under way. -/
structure Machine where
  read : List (Option Char)
  underWay : Option Partial

namespace Machine

/-- A byte that comes when no character is under way. -/
def begin (read : List (Option Char)) (b : Nat) : Machine :=
  match lead? b with
  | none => ⟨none :: read, none⟩
  | some (.inl c) => ⟨some c :: read, none⟩
  | some (.inr p) => ⟨read, some p⟩

/-- One more byte. A byte that does not continue the character under way ends an ill-formed part
and is looked at afresh. -/
def step (m : Machine) (byte : UInt8) : Machine :=
  let b := byte.toNat
  match m.underWay with
  | none => begin m.read b
  | some p =>
    if p.low ≤ b ∧ b ≤ p.high then
      let bits := p.bits * 64 + (b - 0x80)
      match p.more with
      | 0 => ⟨some (Char.ofNat bits) :: m.read, none⟩
      | more + 1 => ⟨m.read, some ⟨bits, 0x80, 0xBF, more⟩⟩
    else begin (none :: m.read) b

/-- What was read when the bytes end; a character still under way is ill-formed. -/
def finish (m : Machine) : List (Option Char) :=
  match m.underWay with
  | none => m.read.reverse
  | some _ => (none :: m.read).reverse

end Machine

/-- The characters of some bytes, with `none` for each longest ill-formed part. -/
def scan (bytes : Bytes) : List (Option Char) := (bytes.foldl Machine.step ⟨[], none⟩).finish

/-- The text that the bytes spell, if they are well-formed. -/
def decode? (bytes : Bytes) : Option Text := (scan bytes).mapM id

/-- The text that the bytes spell, ill-formed parts being replaced. -/
def decodeLossy (bytes : Bytes) : Text := (scan bytes).map (·.getD '\ufffd')

/-- A text without the byte order mark that it may start with. -/
def stripMark : Text → Text
  | '\ufeff' :: text => text
  | text => text

def encode (text : Text) : Bytes := text.flatMap String.utf8EncodeChar

end Utf8

end LineTemplate
