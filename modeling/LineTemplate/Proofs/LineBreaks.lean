import LineTemplate.Line
import Mathlib.Data.List.TakeWhile
import Mathlib.Tactic.Common

/-!
# Texts and their lines

The lines of a text behind another one are those of both, in order, unless the end of a line falls
between the two halves of a break. So lines without breaks are read back from what is written of
them, whatever the ending.
-/
namespace LineTemplate

/-- A text without line breaks. -/
def Unbroken (text : Text) : Prop := ∀ c ∈ text, isBreak c = false

/-- A text that is empty or ends with a line break. -/
def Ended (text : Text) : Prop := ∀ c, text.getLast? = some c → isBreak c = true

/-- The end of one text and the start of the other are a single break. -/
def Fuses (first second : Text) : Prop := first.getLast? = some '\r' ∧ second.head? = some '\n'

theorem isBreak_iff {c : Char} : isBreak c = true ↔ c = '\n' ∨ c = '\r' := by simp [isBreak]

theorem unbroken_nil : Unbroken [] := fun _ hc => absurd hc List.not_mem_nil

@[simp] theorem unbroken_append {a b : Text} : Unbroken (a ++ b) ↔ Unbroken a ∧ Unbroken b :=
  List.forall_mem_append

lemma Unbroken.head?_ne_feed {text : Text} (h : Unbroken text) : text.head? ≠ some '\n' := by
  intro hhead
  have hbreak := h '\n' (List.mem_of_head? hhead)
  contradiction

theorem ended_nil : Ended [] := by simp [Ended]

lemma Ended.append {a b : Text} (ha : Ended a) (hb : Ended b) : Ended (a ++ b) := by
  intro c hc
  rcases Option.or_eq_some_iff.mp (List.getLast?_append ▸ hc) with h | ⟨-, h⟩
  · exact hb c h
  · exact ha c h

lemma Ended.of_suffix {a b : Text} (h : Ended b) (ha : a <:+ b) : Ended a := by
  obtain ⟨front, rfl⟩ := ha
  intro c hc
  exact h c (by rw [List.getLast?_append, hc, Option.some_or])

/-- A text that is not empty cannot both be ended and be without breaks. -/
lemma Ended.eq_nil_of_unbroken {text : Text} (h : Ended text) (hu : Unbroken text) : text = [] := by
  by_contra hne
  have hlast := h _ (List.getLast?_eq_some_getLast hne)
  rw [hu _ (List.getLast_mem hne)] at hlast
  contradiction

namespace LineEnding

theorem isBreak_of_mem_text {ending : LineEnding} {c : Char} (h : c ∈ ending.text) :
    isBreak c = true := by
  have hall : ending.text.all isBreak = true := by cases ending <;> decide
  exact List.all_eq_true.mp hall c h

theorem getLast?_append_text (ending : LineEnding) (text : Text) :
    (text ++ ending.text).getLast? = ending.text.getLast? := by
  rw [List.getLast?_append]
  cases ending <;> rfl

theorem ended_append_text (ending : LineEnding) (text : Text) : Ended (text ++ ending.text) := by
  intro c hc
  rw [getLast?_append_text] at hc
  exact isBreak_of_mem_text (List.mem_of_getLast? hc)

/-- Only a carriage return can share a break with what follows it. -/
lemma not_fuses_append_text {ending : LineEnding} {rest : Text}
    (h : ending = cr → rest.head? ≠ some '\n') (line : Text) :
    ¬ Fuses (line ++ ending.text) rest := by
  rintro ⟨hl, hs⟩
  rw [getLast?_append_text] at hl
  cases ending with
  | lf => contradiction
  | cr => exact h rfl hs
  | crlf => contradiction

end LineEnding

lemma afterBreak_append {first second : Text} (h : first ≠ []) (hf : ¬ Fuses first second) :
    afterBreak (first ++ second) = afterBreak first ++ second := by
  match first, second with
  | [], _ => contradiction
  | [c], [] => simp
  | [c], d :: second =>
    have hcd : ¬ (c = '\r' ∧ d = '\n') := by simpa [Fuses] using hf
    by_cases hc : c = '\r'
    · have hd : d ≠ '\n' := fun hd => hcd ⟨hc, hd⟩
      simp [afterBreak, hd]
    · simp [afterBreak, hc]
  | c :: d :: rest, second =>
    by_cases hcd : c = '\r' ∧ d = '\n'
    · obtain ⟨rfl, rfl⟩ := hcd
      rfl
    · by_cases hc : c = '\r'
      · have hd : d ≠ '\n' := fun hd => hcd ⟨hc, hd⟩
        simp [afterBreak, hd]
      · simp [afterBreak, hc]

/-- Behind an ending that is a whole break, what follows it is left. -/
lemma LineEnding.afterBreak_text_append {ending : LineEnding} {rest : Text}
    (h : ending = cr → rest.head? ≠ some '\n') : afterBreak (ending.text ++ rest) = rest := by
  have hne : ending.text ≠ [] := by cases ending <;> decide
  have hnone : afterBreak ending.text = [] := by cases ending <;> rfl
  rw [afterBreak_append hne (not_fuses_append_text h []), hnone, List.nil_append]

/-- What is left behind the break that a text begins with is an end of the text. -/
lemma afterBreak_suffix (text : Text) : afterBreak text <:+ text := by
  unfold afterBreak
  split
  · exact (List.suffix_cons _ _).trans (List.suffix_cons _ _)
  · exact List.suffix_cons _ _
  · exact List.suffix_refl _

/-- A text has no lines, or it is a single line that is not ended, or its first line is ended by a
break and more text may follow. -/
@[elab_as_elim]
theorem induction_lines {motive : Text → Prop} (nil : motive [])
    (last : ∀ line, line ≠ [] → Unbroken line → motive line)
    (ended : ∀ line c rest, Unbroken line → isBreak c = true → motive (afterBreak (c :: rest)) →
      motive (line ++ c :: rest))
    (text : Text) : motive text := by
  induction text using lines.induct with
  | case1 => exact nil
  | case2 text hne ih =>
    have hsplit := List.takeWhile_append_dropWhile (p := (!isBreak ·)) (l := text)
    have hline : Unbroken (text.takeWhile (!isBreak ·)) := fun c hc => by
      simpa using List.mem_takeWhile_imp hc
    cases hd : text.dropWhile (!isBreak ·) with
    | nil =>
      rw [hd, List.append_nil] at hsplit
      exact last text hne (hsplit ▸ hline)
    | cons c rest =>
      have hc : isBreak c = true := by
        have hhead := List.head_dropWhile_not (!isBreak ·) (l := text) (by simp [hd])
        simpa [hd] using hhead
      rw [hd] at hsplit ih
      rw [← hsplit]
      exact ended _ c rest hline hc ih

theorem lines_of_unbroken {line : Text} (hne : line ≠ []) (h : Unbroken line) :
    lines line = [line] := by
  have hall : ∀ c ∈ line, (!isBreak c) = true := fun c hc => by rw [h c hc]; rfl
  rw [lines_of_ne_nil hne, List.takeWhile_eq_self_iff.mpr hall, List.dropWhile_eq_nil_iff.mpr hall,
    afterBreak, lines_nil]

theorem lines_append_break {line : Text} (h : Unbroken line) {c : Char} (hc : isBreak c = true)
    (rest : Text) : lines (line ++ c :: rest) = line :: lines (afterBreak (c :: rest)) := by
  have hall : ∀ c ∈ line, (!isBreak c) = true := fun c hc => by rw [h c hc]; rfl
  rw [lines_of_ne_nil (by simp), List.takeWhile_append_of_pos hall,
    List.dropWhile_append_of_pos hall]
  simp [hc]

theorem unbroken_of_mem_lines {text line : Text} (h : line ∈ lines text) : Unbroken line := by
  induction text using induction_lines with
  | nil => simp at h
  | last first hne hu =>
    rw [lines_of_unbroken hne hu] at h
    exact List.mem_singleton.mp h ▸ hu
  | ended first c rest hu hc ih =>
    rw [lines_append_break hu hc] at h
    rcases List.mem_cons.mp h with rfl | h
    · exact hu
    · exact ih h

theorem lines_eq_nil_iff {text : Text} : lines text = [] ↔ text = [] := by
  constructor
  · intro h
    by_contra hne
    rw [lines_of_ne_nil hne] at h
    contradiction
  · rintro rfl
    exact lines_nil

/-- Behind a text that is ended, the lines of another one follow, unless both share a break. -/
theorem lines_append {first second : Text} (h : Ended first) (hf : ¬ Fuses first second) :
    lines (first ++ second) = lines first ++ lines second := by
  induction first using induction_lines with
  | nil => simp
  | last line hne hu => exact absurd (h.eq_nil_of_unbroken hu) hne
  | ended line c rest hu hc ih =>
    have hsuffix : c :: rest <:+ line ++ c :: rest := List.suffix_append line (c :: rest)
    have hne : c :: rest ≠ [] := List.cons_ne_nil c rest
    have hbreak : ¬ Fuses (c :: rest) second := fun ⟨hl, hs⟩ =>
      hf ⟨by rw [List.getLast?_append, hl, Option.some_or], hs⟩
    have hlines : lines (afterBreak (c :: rest) ++ second) =
        lines (afterBreak (c :: rest)) ++ lines second := by
      refine ih (h.of_suffix ((afterBreak_suffix _).trans hsuffix)) fun ⟨hl, hs⟩ => ?_
      obtain ⟨front, hfront⟩ := afterBreak_suffix (c :: rest)
      exact hbreak ⟨by rw [← hfront, List.getLast?_append, hl, Option.some_or], hs⟩
    rw [List.append_assoc, List.cons_append, lines_append_break hu hc, lines_append_break hu hc,
      ← List.cons_append, afterBreak_append hne hbreak, hlines, List.cons_append]

theorem lines_append_text {line : Text} (h : Unbroken line) (ending : LineEnding) :
    lines (line ++ ending.text) = [line] := by
  cases ending with
  | lf => exact (lines_append_break h rfl []).trans (by simp [afterBreak])
  | cr => exact (lines_append_break h rfl []).trans (by simp [afterBreak])
  | crlf => exact (lines_append_break h rfl ['\n']).trans (by simp [afterBreak])

@[simp] theorem unlines_nil (ending : LineEnding) : unlines ending [] = [] := rfl

@[simp] theorem unlines_cons (ending : LineEnding) (line : Text) (ls : List Text) :
    unlines ending (line :: ls) = line ++ ending.text ++ unlines ending ls := rfl

/-- An ending and what is written behind it never share a break: a line without breaks does not
start with a line feed, and no ending does where the one before it is a carriage return. -/
lemma not_fuses_unlines {ls : List Text} (h : ∀ line ∈ ls, Unbroken line) (ending : LineEnding)
    (line : Text) : ¬ Fuses (line ++ ending.text) (unlines ending ls) := by
  refine LineEnding.not_fuses_append_text ?_ line
  rintro rfl hs
  cases ls with
  | nil => contradiction
  | cons first ls =>
    rw [unlines_cons, List.append_assoc, List.head?_append, Option.or_eq_some_iff] at hs
    rcases hs with hs | ⟨-, hs⟩
    · exact (h first List.mem_cons_self).head?_ne_feed hs
    · exact absurd (Option.some.inj hs) (by decide)

/-- Lines without breaks are read back from what is written of them. -/
theorem lines_unlines {ls : List Text} (h : ∀ line ∈ ls, Unbroken line) (ending : LineEnding) :
    lines (unlines ending ls) = ls := by
  induction ls with
  | nil => simp
  | cons line ls ih =>
    obtain ⟨hline, hls⟩ := List.forall_mem_cons.mp h
    rw [unlines_cons, lines_append (ending.ended_append_text line) (not_fuses_unlines hls _ _),
      lines_append_text hline, ih hls, List.singleton_append]

/-- Whatever is written line by line is empty or ends with the line ending. -/
theorem unlines_eq_nil_or_append (ending : LineEnding) (ls : List Text) :
    unlines ending ls = [] ∨ ∃ front, unlines ending ls = front ++ ending.text := by
  rcases List.eq_nil_or_concat ls with rfl | ⟨ls, line, rfl⟩
  · exact .inl rfl
  · exact .inr ⟨unlines ending ls ++ line, by simp [unlines]⟩

end LineTemplate
