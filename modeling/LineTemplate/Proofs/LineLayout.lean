import LineTemplate.Proofs.LineBreaks
import Mathlib.Data.Seq.Defs

/-!
# How texts are laid out in lines

A text is laid out in rows, each a line and the break that ends it. Only the last row may lack a
break, and then its line is not empty; a carriage return is a break by itself only where no line
feed follows. Each text is laid out in one way, and to read it line after line comes to an end with
the lines of its rows.
-/
namespace LineTemplate

/-- The first line of a text and what follows its break. Of the empty text no line is read. -/
def nextLine? (text : Text) : Option (Text × Text) :=
  if text = [] then none
  else some (text.takeWhile (!isBreak ·), afterBreak (text.dropWhile (!isBreak ·)))

lemma nextLine?_of_ne_nil {text : Text} (h : text ≠ []) :
    nextLine? text =
      some (text.takeWhile (!isBreak ·), afterBreak (text.dropWhile (!isBreak ·))) := if_neg h

/-- To read line after line is to go through the list of lines, to its end. -/
theorem corec_nextLine? (text : Text) :
    Stream'.Seq.corec nextLine? text = Stream'.Seq.ofList (lines text) := by
  induction text using lines.induct with
  | case1 => rw [Stream'.Seq.corec_nil nextLine? [] rfl, lines_nil, Stream'.Seq.ofList_nil]
  | case2 text hne ih =>
    rw [Stream'.Seq.corec_cons (nextLine?_of_ne_nil hne), ih, lines_of_ne_nil hne,
      Stream'.Seq.ofList_cons]

/-- A line and the break that ends it, if there is one. -/
structure Row where
  line : Text
  ending? : Option LineEnding
  deriving DecidableEq, Repr

namespace Row

def text (row : Row) : Text := row.line ++ row.ending?.elim [] LineEnding.text

def texts (rows : List Row) : Text := rows.flatMap text

@[simp] theorem texts_nil : texts [] = [] := rfl

@[simp] theorem texts_cons (row : Row) (rows : List Row) :
    texts (row :: rows) = row.text ++ texts rows := rfl

@[simp] theorem text_unended (line : Text) : text ⟨line, none⟩ = line := List.append_nil line

@[simp] theorem text_ended (line : Text) (ending : LineEnding) :
    text ⟨line, some ending⟩ = line ++ ending.text := rfl

end Row

/-- Rows in which a text may be laid out: only the last of them may lack a break, and a carriage
return is not the first half of a pair. -/
inductive LaidOut : List Row → Prop
  | nil : LaidOut []
  | last {line : Text} (unbroken : Unbroken line) (ne_nil : line ≠ []) : LaidOut [⟨line, none⟩]
  | ended {line : Text} {ending : LineEnding} {rows : List Row} (unbroken : Unbroken line)
    (whole : ending = .cr → (Row.texts rows).head? ≠ some '\n') (more : LaidOut rows) :
    LaidOut (⟨line, some ending⟩ :: rows)

/-- A text as its lines and breaks. -/
@[ext] structure Layout where
  rows : List Row
  laidOut : LaidOut rows

namespace Layout

def text (layout : Layout) : Text := Row.texts layout.rows

def lines (layout : Layout) : List Text := layout.rows.map Row.line

end Layout

namespace LineEnding

theorem text_ne_nil (ending : LineEnding) : ending.text ≠ [] := by
  cases ending <;> decide

theorem text_injective : Function.Injective text := by
  intro a b
  cases a <;> cases b <;> decide

/-- A text with a break at its start is that break and what follows it. -/
lemma exists_text_append {c : Char} (hc : isBreak c = true) (rest : Text) :
    ∃ ending : LineEnding, ending.text ++ afterBreak (c :: rest) = c :: rest ∧
      (ending = cr → (afterBreak (c :: rest)).head? ≠ some '\n') := by
  rcases isBreak_iff.mp hc with rfl | rfl
  · exact ⟨lf, rfl, nofun⟩
  · by_cases hrest : rest.head? = some '\n'
    · obtain ⟨rest, rfl⟩ := List.head?_eq_some_iff.mp hrest
      exact ⟨crlf, rfl, nofun⟩
    · have hafter : afterBreak ('\r' :: rest) = rest :=
        @afterBreak_text_append cr rest fun _ => hrest
      rw [hafter]
      exact ⟨cr, rfl, fun _ => hrest⟩

/-- Where two endings are whole breaks, a text begins with one of them only. -/
lemma text_append_inj {a b : LineEnding} {rest rest' : Text}
    (ha : a = cr → rest.head? ≠ some '\n') (hb : b = cr → rest'.head? ≠ some '\n')
    (h : a.text ++ rest = b.text ++ rest') : a = b ∧ rest = rest' := by
  have hrest : rest = rest' := by
    rw [← afterBreak_text_append ha, h, afterBreak_text_append hb]
  rw [hrest] at h
  exact ⟨text_injective (List.append_cancel_right h), hrest⟩

end LineEnding

namespace LaidOut

variable {rows rows' : List Row}

theorem lines_texts (h : LaidOut rows) : lines (Row.texts rows) = rows.map Row.line := by
  induction h with
  | nil => exact lines_nil
  | last unbroken ne_nil => simpa using lines_of_unbroken ne_nil unbroken
  | @ended line ending rows unbroken whole more ih =>
    rw [Row.texts_cons, Row.text_ended, lines_append (ending.ended_append_text line)
      (LineEnding.not_fuses_append_text whole line), lines_append_text unbroken, ih]
    rfl

theorem exists_texts_eq (text : Text) : ∃ rows, LaidOut rows ∧ Row.texts rows = text := by
  induction text using induction_lines with
  | nil => exact ⟨[], .nil, rfl⟩
  | last line hne hu => exact ⟨[⟨line, none⟩], .last hu hne, by simp⟩
  | ended line c rest hu hc ih =>
    obtain ⟨rows, hrows, htexts⟩ := ih
    obtain ⟨ending, hending, hwhole⟩ := LineEnding.exists_text_append hc rest
    rw [← htexts] at hending hwhole
    refine ⟨⟨line, some ending⟩ :: rows, .ended hu hwhole hrows, ?_⟩
    rw [Row.texts_cons, Row.text_ended, List.append_assoc, hending]

/-- Rows of one text have the same lines, and with these the same breaks. -/
theorem eq_of_texts_eq (h : LaidOut rows) (h' : LaidOut rows')
    (htexts : Row.texts rows = Row.texts rows') : rows = rows' := by
  have hlines : rows.map Row.line = rows'.map Row.line := by
    rw [← h.lines_texts, htexts, h'.lines_texts]
  -- As the lines agree, two rows can differ in their breaks only.
  induction h generalizing rows' with
  | nil => exact (List.map_eq_nil_iff.mp hlines.symm).symm
  | @last line =>
    cases h' with
    | nil => contradiction
    | @last line' =>
      obtain rfl : line = line' := List.singleton_inj.mp hlines
      rfl
    | @ended line' ending =>
      obtain ⟨rfl, -⟩ := List.cons.inj hlines
      simp [ending.text_ne_nil] at htexts
  | @ended line ending rows unbroken whole more ih =>
    cases h' with
    | nil => contradiction
    | @last line' =>
      obtain ⟨rfl, -⟩ := List.cons.inj hlines
      simp [ending.text_ne_nil] at htexts
    | @ended line' ending' rows' unbroken' whole' more' =>
      obtain ⟨rfl, hmore⟩ := List.cons.inj hlines
      simp only [Row.texts_cons, Row.text_ended, List.append_assoc] at htexts
      obtain ⟨rfl, hrest⟩ :=
        LineEnding.text_append_inj whole whole' (List.append_cancel_left htexts)
      rw [ih more' hrest hmore]

end LaidOut

namespace Layout

theorem lines_text (layout : Layout) : LineTemplate.lines layout.text = layout.lines :=
  layout.laidOut.lines_texts

theorem text_bijective : Function.Bijective text := by
  constructor
  · intro layout other h
    exact Layout.ext (layout.laidOut.eq_of_texts_eq other.laidOut h)
  · intro text
    obtain ⟨rows, hrows, htexts⟩ := LaidOut.exists_texts_eq text
    exact ⟨⟨rows, hrows⟩, htexts⟩

end Layout

/-- A text is laid out in lines and breaks in one way, and to read it line after line comes to an
end with the lines of its layout, of which the empty text has none. Lines that are written with an
ending behind each of them are read back. -/
theorem texts_are_read_as_laid_out :
    (∀ text : Text, ∃ layout : Layout, layout.text = text ∧
      (∀ other : Layout, other.text = text → other = layout) ∧
      lines text = layout.lines ∧
      Stream'.Seq.corec nextLine? text = Stream'.Seq.ofList layout.lines ∧
      (layout.lines = [] ↔ text = [])) ∧
    ∀ (ending : LineEnding) (ls : List Text), (∀ line ∈ ls, Unbroken line) →
      lines (unlines ending ls) = ls := by
  refine ⟨fun text => ?_, fun ending ls hls => lines_unlines hls ending⟩
  obtain ⟨layout, rfl⟩ := Layout.text_bijective.surjective text
  refine ⟨layout, rfl, fun other h => Layout.text_bijective.injective h, layout.lines_text, ?_, ?_⟩
  · rw [corec_nextLine?, layout.lines_text]
  · rw [← layout.lines_text, lines_eq_nil_iff]

/-- Two carriage returns in front of a line feed are a break by itself and a pair, and a line feed in
front of a carriage return is a break of its own. -/
theorem adjacent_breaks_are_told_apart :
    (∀ layout : Layout, layout.text = "a\r\r\n\n\rb".toList →
      layout.rows = [⟨['a'], some .cr⟩, ⟨[], some .crlf⟩, ⟨[], some .lf⟩, ⟨[], some .cr⟩,
        ⟨['b'], none⟩]) ∧
    (∀ line ∈ [['a'], [], ['b'], []], Unbroken line) ∧
    lines (unlines .cr [['a'], [], ['b'], []]) = [['a'], [], ['b'], []] := by
  have hb : LaidOut [⟨['b'], none⟩] := .last (by simp [Unbroken, isBreak]) (List.cons_ne_nil _ _)
  have hpair : LaidOut [⟨[], some .crlf⟩, ⟨[], some .lf⟩, ⟨[], some .cr⟩, ⟨['b'], none⟩] :=
    .ended unbroken_nil (by decide) <| .ended unbroken_nil (by decide) <|
      .ended unbroken_nil (by decide) hb
  have hrows : LaidOut [⟨['a'], some .cr⟩, ⟨[], some .crlf⟩, ⟨[], some .lf⟩, ⟨[], some .cr⟩,
      ⟨['b'], none⟩] := .ended (by simp [Unbroken, isBreak]) (by decide) hpair
  have hls : ∀ line ∈ [['a'], [], ['b'], []], Unbroken line := by simp [Unbroken, isBreak]
  refine ⟨fun layout h => ?_, hls, texts_are_read_as_laid_out.2 .cr _ hls⟩
  obtain ⟨only, -, honly, -⟩ := texts_are_read_as_laid_out.1 "a\r\r\n\n\rb".toList
  have heq : layout = ⟨_, hrows⟩ := (honly layout h).trans (honly ⟨_, hrows⟩ rfl).symm
  rw [heq]

end LineTemplate
