import LineTemplate.Json

/-!
# Tokens of JSON

The text of a tag file is first read as a list of tokens: brackets, commas, colons, words,
numerals and strings, with white space in between. Each token takes at least one character, so
the reading ends.
-/
namespace LineTemplate.Json

/-- A token. Words and numerals are given by their values. -/
inductive Token where
  | openArray
  | closeArray
  | openObject
  | closeObject
  | comma
  | colon
  | string (value : Text)
  | scalar (value : Json)

/-- Whether a character may stand between tokens. -/
def isSpace (c : Char) : Bool := c == ' ' || c == '\n' || c == '\t' || c == '\r'

def hexDigit? (c : Char) : Option Nat :=
  if c.isDigit then some (c.toNat - '0'.toNat)
  else if 'a'.toNat ≤ c.toNat ∧ c.toNat ≤ 'f'.toNat then some (c.toNat - 'a'.toNat + 10)
  else if 'A'.toNat ≤ c.toNat ∧ c.toNat ≤ 'F'.toNat then some (c.toNat - 'A'.toNat + 10)
  else none

def hexUnit? (a b c d : Char) : Option Nat :=
  match hexDigit? a, hexDigit? b, hexDigit? c, hexDigit? d with
  | some a, some b, some c, some d => some (((a * 16 + b) * 16 + c) * 16 + d)
  | _, _, _, _ => none

/-- Whether a unit is the first of a surrogate pair. -/
def isHighSurrogate (unit : Nat) : Bool := 0xD800 ≤ unit && unit ≤ 0xDBFF

/-- Whether a unit is the second of a surrogate pair. -/
def isLowSurrogate (unit : Nat) : Bool := 0xDC00 ≤ unit && unit ≤ 0xDFFF

/-- The character that a letter stands for behind a backslash. -/
def escaped? : Char → Option Char
  | '"' => some '"'
  | '\\' => some '\\'
  | '/' => some '/'
  | 'b' => some '\x08'
  | 'f' => some '\x0c'
  | 'n' => some '\n'
  | 'r' => some '\r'
  | 't' => some '\t'
  | _ => none

/-- Reads the unit of an escape `\uXXXX` whose backslash and letter are passed. -/
def readUnit? : Text → Option (Nat × Text)
  | a :: b :: c :: d :: rest => (hexUnit? a b c d).map (·, rest)
  | _ => none

theorem length_readUnit?_lt {text rest : Text} {unit : Nat} (h : readUnit? text = some (unit, rest)) :
    rest.length < text.length := by
  unfold readUnit? at h
  split at h
  · obtain ⟨_, _, h⟩ := Option.map_eq_some_iff.mp h
    simp only [Prod.mk.injEq] at h
    simp [← h.2]
    omega
  · simp at h

/-- Reads what follows `\u`: one unit, or a pair of surrogates. A surrogate by itself is no
character. -/
def readUnicode? (text : Text) : Option (Char × Text) :=
  match readUnit? text with
  | none => none
  | some (unit, rest) =>
    if isLowSurrogate unit then none
    else if isHighSurrogate unit then
      match rest with
      | '\\' :: 'u' :: rest =>
        match readUnit? rest with
        | none => none
        | some (low, rest) =>
          if isLowSurrogate low then
            some (Char.ofNat (0x10000 + (unit - 0xD800) * 0x400 + (low - 0xDC00)), rest)
          else none
      | _ => none
    else some (Char.ofNat unit, rest)

theorem length_readUnicode?_lt {text rest : Text} {c : Char}
    (h : readUnicode? text = some (c, rest)) : rest.length < text.length := by
  unfold readUnicode? at h
  split at h
  · simp at h
  · rename_i unit behind hu
    have hb := length_readUnit?_lt hu
    split at h
    · simp at h
    · split at h
      · split at h
        · rename_i rest'
          split at h
          · simp at h
          · rename_i low rest'' hl
            have := length_readUnit?_lt hl
            split at h
            · simp only [Option.some.injEq, Prod.mk.injEq] at h
              rw [← h.2]
              simp at hb
              omega
            · simp at h
        · simp at h
      · simp only [Option.some.injEq, Prod.mk.injEq] at h
        rw [← h.2]
        exact hb

/-- Reads a string whose opening quote is passed, `taken` being its characters so far, last
first. -/
def readString? (taken text : Text) : Option (Text × Text) :=
  match text with
  | [] => none
  | '"' :: rest => some (taken.reverse, rest)
  | '\\' :: 'u' :: rest =>
    match _h : readUnicode? rest with
    | none => none
    | some (c, rest) => readString? (c :: taken) rest
  | '\\' :: letter :: rest =>
    match escaped? letter with
    | none => none
    | some c => readString? (c :: taken) rest
  | c :: rest => if c.toNat < 0x20 then none else readString? (c :: taken) rest
termination_by text.length
decreasing_by
  · have := length_readUnicode?_lt _h
    simp only [List.length_cons]
    omega
  · simp only [List.length_cons]
    omega
  · simp only [List.length_cons]
    omega

theorem length_readString?_lt {taken text value rest : Text}
    (h : readString? taken text = some (value, rest)) : rest.length < text.length := by
  induction taken, text using readString?.induct with
  | case1 => simp [readString?] at h
  | case2 =>
    simp only [readString?, Option.some.injEq, Prod.mk.injEq] at h
    simp [← h.2]
  | case3 taken rest hu =>
    rw [readString?] at h
    split at h <;> simp_all
  | case4 taken rest c rest' hu ih =>
    rw [readString?] at h
    split at h
    · simp_all
    · rename_i hu'
      rw [hu] at hu'
      simp only [Option.some.injEq, Prod.mk.injEq] at hu'
      rw [← hu'.1, ← hu'.2] at h
      have := ih h
      have := length_readUnicode?_lt hu
      simp
      omega
  | case5 taken letter rest hn he =>
    rw [readString?] at h
    · simp [he] at h
    · exact hn
  | case6 taken letter rest hn c he ih =>
    rw [readString?] at h
    · simp only [he] at h
      have := ih h
      simp
      omega
    · exact hn
  | case7 taken c rest h1 h2 h3 hc =>
    rw [readString?] at h
    · simp [hc] at h
    all_goals assumption
  | case8 taken c rest h1 h2 h3 hc ih =>
    rw [readString?] at h
    · rw [if_neg hc] at h
      have := ih h
      simp
      omega
    all_goals assumption

def readFraction? : Text → Option (Option Text × Text)
  | '.' :: text =>
    let digits := text.takeWhile Char.isDigit
    if digits.isEmpty then none else some (some digits, text.dropWhile Char.isDigit)
  | text => some (none, text)

theorem length_readFraction?_le {text rest : Text} {fraction : Option Text}
    (h : readFraction? text = some (fraction, rest)) : rest.length ≤ text.length := by
  unfold readFraction? at h
  split at h
  · rename_i text
    simp only at h
    split at h
    · simp at h
    · simp only [Option.some.injEq, Prod.mk.injEq] at h
      have := (List.dropWhile_suffix Char.isDigit (l := text)).length_le
      simp [← h.2]
      omega
  · simp only [Option.some.injEq, Prod.mk.injEq] at h
    simp [← h.2]

/-- Reads the sign of an exponent, if there is one: whether it is negative. -/
def readSign : Text → Bool × Text
  | '+' :: text => (false, text)
  | '-' :: text => (true, text)
  | text => (false, text)

theorem length_readSign_le (text : Text) : (readSign text).2.length ≤ text.length := by
  unfold readSign
  split <;> simp

/-- Reads the exponent of a numeral behind its letter: whether it is negative, and its digits. -/
def readExponentDigits? (text : Text) : Option ((Bool × Text) × Text) :=
  let digits := (readSign text).2.takeWhile Char.isDigit
  if digits.isEmpty then none
  else some (((readSign text).1, digits), (readSign text).2.dropWhile Char.isDigit)

theorem length_readExponentDigits?_le {text rest : Text} {exponent : Bool × Text}
    (h : readExponentDigits? text = some (exponent, rest)) : rest.length ≤ text.length := by
  unfold readExponentDigits? at h
  simp only at h
  split at h
  · simp at h
  · simp only [Option.some.injEq, Prod.mk.injEq] at h
    have := (List.dropWhile_suffix Char.isDigit (l := (readSign text).2)).length_le
    have := length_readSign_le text
    rw [← h.2]
    omega

def readExponent? : Text → Option (Option (Bool × Text) × Text)
  | [] => some (none, [])
  | c :: text =>
    if c == 'e' || c == 'E' then
      (readExponentDigits? text).map fun (exponent, rest) => (some exponent, rest)
    else some (none, c :: text)

theorem length_readExponent?_le {text rest : Text} {exponent : Option (Bool × Text)}
    (h : readExponent? text = some (exponent, rest)) : rest.length ≤ text.length := by
  unfold readExponent? at h
  split at h
  · simp_all
  · split at h
    · obtain ⟨⟨e, r⟩, he, hr⟩ := Option.map_eq_some_iff.mp h
      simp only [Prod.mk.injEq] at hr
      have := length_readExponentDigits?_le he
      simp [← hr.2]
      omega
    · simp_all

/-- Reads a numeral without its sign. There are no digits behind a zero at the start. -/
def readUnsigned? (negative : Bool) (text : Text) : Option (Number.Literal × Text) :=
  let digits := text.takeWhile Char.isDigit
  let behind := text.dropWhile Char.isDigit
  if digits.isEmpty || (1 < digits.length && digits.head? == some '0') then none
  else
    match readFraction? behind with
    | none => none
    | some (fraction, behind) =>
      match readExponent? behind with
      | none => none
      | some (exponent, rest) => some (⟨negative, digits, fraction, exponent⟩, rest)

theorem length_readUnsigned?_lt {negative : Bool} {text rest : Text} {literal : Number.Literal}
    (h : readUnsigned? negative text = some (literal, rest)) : rest.length < text.length := by
  have split := congrArg List.length
    (List.takeWhile_append_dropWhile (p := Char.isDigit) (l := text))
  unfold readUnsigned? at h
  simp only at h
  split at h
  · simp at h
  · rename_i hd
    have hpos : 0 < (text.takeWhile Char.isDigit).length := by
      cases hw : text.takeWhile Char.isDigit <;> simp_all
    split at h
    · simp at h
    · rename_i hf
      have := length_readFraction?_le hf
      split at h
      · simp at h
      · rename_i he
        have := length_readExponent?_le he
        simp only [Option.some.injEq, Prod.mk.injEq] at h
        rw [← h.2]
        simp only [List.length_append] at split
        omega

def readLiteral? : Text → Option (Number.Literal × Text)
  | '-' :: text => readUnsigned? true text
  | text => readUnsigned? false text

theorem length_readLiteral?_lt {text rest : Text} {literal : Number.Literal}
    (h : readLiteral? text = some (literal, rest)) : rest.length < text.length := by
  unfold readLiteral? at h
  split at h
  · have := length_readUnsigned?_lt h
    simp
    omega
  · exact length_readUnsigned?_lt h

/-- Reads a numeral as a token; one that is too large is no token. -/
def readNumber? (text : Text) : Option (Token × Text) :=
  match readLiteral? text with
  | none => none
  | some (literal, rest) =>
    (Number.ofLiteral? literal).map fun number => (.scalar (.number number), rest)

def words : List (Text × Json) :=
  [("true".toList, .bool true), ("false".toList, .bool false), ("null".toList, .null)]

def readWord? (text : Text) : Option (Token × Text) :=
  words.findSome? fun (word, value) =>
    (Text.strip? word text).map fun rest => (.scalar value, rest)

def readToken? (text : Text) : Option (Token × Text) :=
  match text with
  | '[' :: rest => some (.openArray, rest)
  | ']' :: rest => some (.closeArray, rest)
  | '{' :: rest => some (.openObject, rest)
  | '}' :: rest => some (.closeObject, rest)
  | ',' :: rest => some (.comma, rest)
  | ':' :: rest => some (.colon, rest)
  | '"' :: rest => (readString? [] rest).map fun (value, rest) => (.string value, rest)
  | text => (readWord? text).or (readNumber? text)

private theorem length_readWord?_lt {text rest : Text} {token : Token}
    (h : readWord? text = some (token, rest)) : rest.length < text.length := by
  simp only [readWord?, words, List.findSome?_cons, List.findSome?_nil] at h
  have key : ∀ (word : Text) (value : Json), word ≠ [] →
      (Text.strip? word text).map (fun rest => (Token.scalar value, rest)) = some (token, rest) →
      rest.length < text.length := by
    intro word value hw hm
    obtain ⟨r, hr, he⟩ := Option.map_eq_some_iff.mp hm
    simp only [Prod.mk.injEq] at he
    have := List.length_pos_iff.mpr hw
    rw [Text.strip?_eq_some_iff.mp hr, ← he.2]
    simp
    omega
  split at h
  · rename_i hm; exact key _ _ (by decide) (hm.trans h)
  · split at h
    · rename_i hm; exact key _ _ (by decide) (hm.trans h)
    · split at h
      · rename_i hm; exact key _ _ (by decide) (hm.trans h)
      · simp at h

theorem length_readToken?_lt {text rest : Text} {token : Token}
    (h : readToken? text = some (token, rest)) : rest.length < text.length := by
  unfold readToken? at h
  split at h
  iterate 6
    simp only [Option.some.injEq, Prod.mk.injEq] at h
    simp [← h.2]
  · obtain ⟨⟨v, r⟩, hs, he⟩ := Option.map_eq_some_iff.mp h
    simp only [Prod.mk.injEq] at he
    have := length_readString?_lt hs
    simp [← he.2]
    omega
  · rcases Option.or_eq_some_iff.mp h with hw | ⟨_, hn⟩
    · exact length_readWord?_lt hw
    · unfold readNumber? at hn
      split at hn
      · simp at hn
      · rename_i hl
        obtain ⟨_, _, he⟩ := Option.map_eq_some_iff.mp hn
        simp only [Prod.mk.injEq] at he
        rw [← he.2]
        exact length_readLiteral?_lt hl

/-- Reads tokens up to the end of a text, `taken` being those before it, last first. -/
def tokensFrom? (taken : List Token) (text : Text) : Option (List Token) :=
  match text with
  | [] => some taken.reverse
  | c :: text =>
    if isSpace c then tokensFrom? taken text
    else
      match _h : readToken? (c :: text) with
      | none => none
      | some (token, rest) => tokensFrom? (token :: taken) rest
termination_by text.length
decreasing_by
  · simp
  · exact length_readToken?_lt _h

def tokens? (text : Text) : Option (List Token) := tokensFrom? [] text

end LineTemplate.Json
