import LineTemplate.Proofs.OptionLists
import Mathlib.Data.Nat.Digits.Defs

/-!
# Widths as decimal numbers

A width is read digit by digit into 64 bits. As far as the reading gets, what it has accumulated is
the decimal value of the digits so far, so that nothing is lost to wrapping around. Of a bad digit
and a value that does not fit, the one that is met first is reported.
-/
namespace LineTemplate

namespace Numeral

/-- A text of ASCII digits, which may be empty. -/
def Digits (text : Text) : Prop := ∀ c ∈ text, c.isDigit = true

/-- The number that digits stand for in decimal notation. -/
def decimal (digits : Text) : Nat :=
  Nat.ofDigits 10 (digits.reverse.map fun c => c.toNat - '0'.toNat)

/-- What is left of a text without one plus sign at its start. -/
def unsigned : Text → Text
  | '+' :: text => text
  | text => text

/-- A text is a numeral of a number, of whatever size: at least one digit, and a plus sign in front
of them or none. -/
structure Spells (text : Text) (n : Nat) : Prop where
  ne_nil : unsigned text ≠ []
  digits : Digits (unsigned text)
  decimal_eq : decimal (unsigned text) = n

/-- The digits at the start of a text already make a number that does not fit 64 bits. -/
def Overflows (text : Text) : Prop :=
  ∃ front, front <+: unsigned text ∧ Digits front ∧ UInt64.size ≤ decimal front

/-- What digits add up to in 64 bits if nothing is checked: sums and products wrap around. -/
def wrapped (digits : Text) : UInt64 :=
  digits.foldl (fun value c => 10 * value + UInt64.ofNat (c.toNat - '0'.toNat)) 0

lemma digit?_eq (c : Char) :
    digit? c = if c.isDigit = true then some (c.toNat - '0'.toNat) else none := by
  have hiff : ('0' ≤ c ∧ c ≤ '9') ↔ c.isDigit = true := by
    rw [Char.isDigit, Bool.and_eq_true, decide_eq_true_iff, decide_eq_true_iff]
    exact Iff.rfl
  rw [digit?]
  simp only [hiff]

@[simp] lemma decimal_nil : decimal [] = 0 := rfl

lemma decimal_append_singleton (digits : Text) (c : Char) :
    decimal (digits ++ [c]) = 10 * decimal digits + (c.toNat - '0'.toNat) := by
  rw [decimal, decimal, List.reverse_append, List.reverse_singleton, List.singleton_append,
    List.map_cons, Nat.ofDigits_cons]
  omega

lemma decimal_le_append (digits more : Text) : decimal digits ≤ decimal (digits ++ more) := by
  induction more using List.reverseRecOn with
  | nil => rw [List.append_nil]
  | append_singleton more c ih =>
    rw [← List.append_assoc, decimal_append_singleton]
    omega

@[simp] lemma digits_cons {c : Char} {text : Text} :
    Digits (c :: text) ↔ c.isDigit = true ∧ Digits text :=
  List.forall_mem_cons

lemma toNat_wrapped (digits : Text) : (wrapped digits).toNat = decimal digits % UInt64.size := by
  induction digits using List.reverseRecOn with
  | nil => rfl
  | append_singleton digits c ih =>
    rw [wrapped, List.foldl_append, List.foldl_cons, List.foldl_nil, ← wrapped, UInt64.toNat_add,
      UInt64.toNat_mul, ih, decimal_append_singleton, UInt64.toNat_ofNat']
    simp [UInt64.size, Nat.add_mod, Nat.mul_mod]

/-- One more character is a bad digit, or it makes the number too large, or it is taken up. -/
lemma readDigits_cons (front : Text) (c : Char) (text : Text) :
    readDigits (decimal front) (c :: text) =
      if c.isDigit = true then
        if decimal (front ++ [c]) < UInt64.size then readDigits (decimal (front ++ [c])) text
        else .error .tooLarge
      else .error .badDigit := by
  rw [readDigits, digit?_eq, decimal_append_singleton]
  by_cases hc : c.isDigit = true
  · simp only [if_pos hc]
    rfl
  · simp only [if_neg hc]

section Reading

variable {front text : Text}

lemma readDigits_eq_ok_iff (h : decimal front < UInt64.size) {n : Nat} :
    readDigits (decimal front) text = .ok n ↔
      Digits text ∧ decimal (front ++ text) = n ∧ n < UInt64.size := by
  induction text generalizing front with
  | nil =>
    rw [readDigits, List.append_nil, Except.ok.injEq]
    constructor
    · rintro rfl
      exact ⟨List.forall_mem_nil _, rfl, h⟩
    · exact fun hn => hn.2.1
  | cons c text ih =>
    have happend : front ++ c :: text = front ++ [c] ++ text := by simp
    rw [readDigits_cons, digits_cons, happend]
    split_ifs with hc hfits
    · simp only [ih hfits, hc, true_and]
    · have hle := decimal_le_append (front ++ [c]) text
      refine iff_of_false nofun ?_
      rintro ⟨-, hn, hlt⟩
      omega
    · simp [hc]

lemma readDigits_eq_tooLarge_iff (h : decimal front < UInt64.size) :
    readDigits (decimal front) text = .error .tooLarge ↔
      ∃ more, more <+: text ∧ Digits more ∧ UInt64.size ≤ decimal (front ++ more) := by
  induction text generalizing front with
  | nil =>
    refine iff_of_false nofun ?_
    rintro ⟨more, hmore, -, hlarge⟩
    rw [List.prefix_nil.mp hmore, List.append_nil] at hlarge
    omega
  | cons c text ih =>
    -- Without a further digit the number still fits, so the first of them is this character.
    have hfirst : (∃ more, more <+: c :: text ∧ Digits more ∧
          UInt64.size ≤ decimal (front ++ more)) ↔
        c.isDigit = true ∧ ∃ more, more <+: text ∧ Digits more ∧
          UInt64.size ≤ decimal (front ++ [c] ++ more) := by
      constructor
      · rintro ⟨more, hmore, hdigits, hlarge⟩
        rcases List.prefix_cons_iff.mp hmore with rfl | ⟨more, rfl, hrest⟩
        · rw [List.append_nil] at hlarge
          omega
        · obtain ⟨hc, hdigits⟩ := digits_cons.mp hdigits
          exact ⟨hc, more, hrest, hdigits, by simpa using hlarge⟩
      · rintro ⟨hc, more, hmore, hdigits, hlarge⟩
        exact ⟨c :: more, List.cons_prefix_cons.mpr ⟨rfl, hmore⟩, digits_cons.mpr ⟨hc, hdigits⟩,
          by simpa using hlarge⟩
    rw [readDigits_cons, hfirst]
    split_ifs with hc hfits
    · simp only [ih hfits, hc, true_and]
    · refine iff_of_true rfl ⟨hc, [], List.nil_prefix, List.forall_mem_nil _, ?_⟩
      rw [List.append_nil]
      omega
    · simp [hc]

lemma readDigits_ne_empty (value : Nat) (text : Text) :
    readDigits value text ≠ .error .empty := by
  induction text generalizing value with
  | nil => nofun
  | cons c text ih =>
    rw [readDigits]
    split
    · nofun
    · split_ifs
      · exact ih _
      · nofun

/-- The reading of a text goes through the value of each front part that it gets through. -/
lemma readDigits_append (value : Nat) (front behind : Text) :
    readDigits value (front ++ behind) =
      (readDigits value front).bind (readDigits · behind) := by
  induction front generalizing value with
  | nil => rfl
  | cons c front ih =>
    rw [List.cons_append, readDigits, readDigits]
    split
    · rfl
    · split_ifs
      · exact ih _
      · rfl

end Reading

lemma read_eq (text : Text) :
    read text =
      if text = [] then .error .empty
      else if unsigned text = [] then .error .badDigit
      else readDigits 0 (unsigned text) := by
  unfold read unsigned
  split <;> simp_all

section Numerals

variable {text : Text}

lemma zero_fits : decimal [] < UInt64.size := by decide

theorem read_eq_ok_iff {n : Nat} : read text = .ok n ↔ Spells text n ∧ n < UInt64.size := by
  have hspells : Spells text n ↔
      unsigned text ≠ [] ∧ Digits (unsigned text) ∧ decimal (unsigned text) = n :=
    ⟨fun h => ⟨h.ne_nil, h.digits, h.decimal_eq⟩, fun h => ⟨h.1, h.2.1, h.2.2⟩⟩
  rw [read_eq, hspells]
  split_ifs with hempty halone
  · simp [hempty, unsigned]
  · simp [halone]
  · rw [← decimal_nil, readDigits_eq_ok_iff zero_fits, List.nil_append]
    tauto

theorem read_eq_empty_iff : read text = .error .empty ↔ text = [] := by
  rw [read_eq]
  split_ifs with hempty halone
  · exact iff_of_true rfl hempty
  · exact iff_of_false nofun hempty
  · exact iff_of_false (readDigits_ne_empty 0 _) hempty

theorem read_eq_tooLarge_iff : read text = .error .tooLarge ↔ Overflows text := by
  -- Where nothing is left to be read, zero is the only number that digits make.
  have hnothing (h : unsigned text = []) : ¬ Overflows text := by
    rintro ⟨front, hfront, -, hlarge⟩
    rw [h, List.prefix_nil] at hfront
    rw [hfront] at hlarge
    exact absurd hlarge (Nat.not_le.mpr zero_fits)
  rw [read_eq]
  split_ifs with hempty halone
  · exact iff_of_false nofun (hnothing (by rw [hempty, unsigned]; exact nofun))
  · exact iff_of_false nofun (hnothing halone)
  · rw [← decimal_nil, readDigits_eq_tooLarge_iff zero_fits]
    rfl

/-- The value of a numeral that does not fit 64 bits is too large from its last digit on, at the
latest. -/
lemma Spells.overflows {n : Nat} (h : Spells text n) (hn : UInt64.size ≤ n) : Overflows text :=
  ⟨unsigned text, List.prefix_rfl, h.digits, h.decimal_eq ▸ hn⟩

theorem read_eq_badDigit_iff :
    read text = .error .badDigit ↔ text ≠ [] ∧ ¬ Overflows text ∧ ∀ n, ¬ Spells text n := by
  rw [ne_eq, ← read_eq_empty_iff, ← read_eq_tooLarge_iff]
  cases hread : read text with
  | ok n => simpa using ⟨n, (read_eq_ok_iff.mp hread).1⟩
  | error cause =>
    have hnumeral (n : Nat) (hspells : Spells text n) : cause = .tooLarge := by
      rcases Nat.lt_or_ge n UInt64.size with hfits | hlarge
      · rw [read_eq_ok_iff.mpr ⟨hspells, hfits⟩] at hread
        contradiction
      · rw [read_eq_tooLarge_iff.mpr (hspells.overflows hlarge)] at hread
        exact (Except.error.inj hread).symm
    cases cause with
    | empty => simp
    | badDigit =>
      refine iff_of_true rfl ⟨nofun, nofun, fun n hspells => ?_⟩
      exact absurd (hnumeral n hspells) nofun
    | tooLarge => simp

/-- What is accumulated when the reading has come to some digit is the decimal value of the digits
so far. Adding them up without a check gives the same, since it does not wrap around. -/
lemma accumulated_eq {front behind : Text} {n : Nat} (hne : front ≠ [])
    (htext : unsigned text = front ++ behind) (h : readDigits 0 front = .ok n) :
    read text = readDigits n behind ∧ n = decimal front ∧ (wrapped front).toNat = n := by
  have hread : read text = readDigits n behind := by
    have hbody : unsigned text ≠ [] := by simp [htext, hne]
    have hempty : text ≠ [] := by
      rintro rfl
      exact hbody rfl
    rw [read_eq, if_neg hempty, if_neg hbody, htext, readDigits_append, h]
    rfl
  rw [← decimal_nil, readDigits_eq_ok_iff zero_fits, List.nil_append] at h
  obtain ⟨-, rfl, hfits⟩ := h
  exact ⟨hread, rfl, by rw [toNat_wrapped, Nat.mod_eq_of_lt hfits]⟩

end Numerals

end Numeral

namespace Options

section Width

variable {line : Nat} {option text : Text}

lemma width_eq_ok_iff {n : Nat} :
    width line option text = .ok n ↔ Numeral.read (Text.trim text) = .ok n ∧ n ≤ maxIndent := by
  unfold width
  cases Numeral.read (Text.trim text) with
  | error cause => simp
  | ok m =>
    simp only [Except.ok.injEq]
    split_ifs with hm
    · rw [Except.ok.injEq]
      exact ⟨fun h => ⟨h, h ▸ hm⟩, And.left⟩
    · refine iff_of_false nofun ?_
      rintro ⟨rfl, hle⟩
      exact hm hle

lemma width_eq_error_iff {fault : Fault} :
    width line option text = .error fault ↔
      (∃ cause, Numeral.read (Text.trim text) = .error cause ∧
        fault = .badWidth line option cause) ∨
      ∃ n, Numeral.read (Text.trim text) = .ok n ∧ maxIndent < n ∧
        fault = .indentTooWide line option := by
  unfold width
  cases Numeral.read (Text.trim text) with
  | error cause => simp [eq_comm]
  | ok m =>
    simp only [Except.ok.injEq, exists_eq_left', reduceCtorEq, false_and, exists_false, false_or]
    split_ifs with hm
    · simp [Nat.not_lt.mpr hm]
    · simp [Nat.lt_of_not_le hm, eq_comm]

lemma width_eq_badWidth_iff {cause : NumeralFault} :
    width line option text = .error (.badWidth line option cause) ↔
      Numeral.read (Text.trim text) = .error cause := by
  simp [width_eq_error_iff]

lemma width_eq_indentTooWide_iff :
    width line option text = .error (.indentTooWide line option) ↔
      ∃ n, Numeral.read (Text.trim text) = .ok n ∧ maxIndent < n := by
  simp [width_eq_error_iff]

end Width

/-- A width is accepted exactly if it spells a number of at most 1024. A larger number is too wide,
as long as it fits 64 bits. Anything else is no width, for one of three reasons: nothing is there,
or the digits at the start do not fit, or else some character is no digit. -/
theorem widths_are_exact (line : Nat) (option text : Text) :
    ∃ numeral, Text.Trimmed text numeral ∧
      (∀ n, width line option text = .ok n ↔ Numeral.Spells numeral n ∧ n ≤ 1024) ∧
      (width line option text = .error (.indentTooWide line option) ↔
        ∃ n, Numeral.Spells numeral n ∧ 1024 < n ∧ n < UInt64.size) ∧
      (width line option text = .error (.badWidth line option .empty) ↔ numeral = []) ∧
      (width line option text = .error (.badWidth line option .tooLarge) ↔
        Numeral.Overflows numeral) ∧
      (width line option text = .error (.badWidth line option .badDigit) ↔
        numeral ≠ [] ∧ ¬ Numeral.Overflows numeral ∧ ∀ n, ¬ Numeral.Spells numeral n) ∧
      (∀ fault, width line option text = .error fault →
        fault = .indentTooWide line option ∨ ∃ cause, fault = .badWidth line option cause) ∧
      ∀ front behind n, front ≠ [] → Numeral.unsigned numeral = front ++ behind →
        Numeral.readDigits 0 front = .ok n →
          Numeral.read numeral = Numeral.readDigits n behind ∧ n = Numeral.decimal front ∧
            (Numeral.wrapped front).toNat = n := by
  refine ⟨Text.trim text, Text.trim_eq_iff.mp rfl, fun n => ?_, ?_, ?_, ?_, ?_, fun fault h => ?_,
    fun front behind n hne htext h => Numeral.accumulated_eq hne htext h⟩
  · rw [width_eq_ok_iff, Numeral.read_eq_ok_iff]
    constructor
    · rintro ⟨⟨hspells, -⟩, hn⟩
      exact ⟨hspells, hn⟩
    · rintro ⟨hspells, hn⟩
      exact ⟨⟨hspells, Nat.lt_of_le_of_lt hn (by decide)⟩, hn⟩
  · rw [width_eq_indentTooWide_iff]
    refine exists_congr fun n => ?_
    rw [Numeral.read_eq_ok_iff, and_assoc, and_comm (a := n < UInt64.size)]
    rfl
  · rw [width_eq_badWidth_iff, Numeral.read_eq_empty_iff]
  · rw [width_eq_badWidth_iff, Numeral.read_eq_tooLarge_iff]
  · rw [width_eq_badWidth_iff, Numeral.read_eq_badDigit_iff]
  · obtain ⟨cause, -, rfl⟩ | ⟨n, -, -, rfl⟩ := width_eq_error_iff.mp h
    · exact .inr ⟨cause, rfl⟩
    · exact .inl rfl

-- What is met first counts, whether it is a digit too many or a character that is no digit.
example : width 3 [] " 18446744073709551616x".toList = .error (.badWidth 3 [] .tooLarge) := by
  decide +kernel

example : width 3 [] "+18446744073709551615x6".toList = .error (.badWidth 3 [] .badDigit) := by
  decide +kernel

end Options

end LineTemplate
