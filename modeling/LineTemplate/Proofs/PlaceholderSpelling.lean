import LineTemplate.Placeholder
import LineTemplate.Proofs.Runs
import Mathlib.Order.Bounds.Basic
import Mathlib.Order.Nat

/-!
# How a placeholder is spelled

The spelling of a placeholder is told without a search: the name and the white space behind it and
behind the colon are runs, and the options end at the least place that can end them. Only where no
place can, and the marker stands directly behind the white space, are the options the last of it.
-/
namespace LineTemplate.Placeholder

/-- A place where a marker stands behind a text without a line feed. -/
def Ends (text : Text) (place : Nat) : Prop := marker <+: text.drop place ∧ '\n' ∉ text.take place

/-- A place where options end that begin with the text: there is at least one character in them. -/
def Closes (body : Text) (place : Nat) : Prop := 1 ≤ place ∧ Ends body place

/-- A marker, a name and the white space behind it at the start of a text; the word and the white
space are as long as they can be. -/
structure Opens (text tag gap behind : Text) : Prop where
  text_eq : text = marker ++ tag ++ gap ++ behind
  tag_ne_nil : tag ≠ []
  word : Text.Run Text.isWord tag (gap ++ behind)
  blank : Text.Run Text.isBlank gap behind

/-- The spellings of a placeholder at the start of a text. -/
inductive Spelled (text : Text) : Found → Prop
  | bare {tag gap rest : Text} (opens : Opens text tag gap (marker ++ rest)) :
    Spelled text ⟨⟨tag, none⟩, marker ++ tag ++ gap ++ marker, rest⟩
  /-- With options up to the least place that can end them. -/
  | options {tag gap lead body : Text} {place : Nat}
    (opens : Opens text tag gap (':' :: (lead ++ body))) (blank : Text.Run Text.isBlank lead body)
    (least : IsLeast {e | Closes body e} place) :
    Spelled text ⟨⟨tag, some (body.take place)⟩,
      marker ++ tag ++ gap ++ ':' :: lead ++ body.take place ++ marker, body.drop (place + 2)⟩
  /-- No place can end options, but a marker stands behind the white space. -/
  | lastBlank {tag gap lead rest : Text} {last : Char}
    (opens : Opens text tag gap (':' :: (lead ++ [last] ++ (marker ++ rest))))
    (blank : Text.Run Text.isBlank (lead ++ [last]) (marker ++ rest)) (inLine : last ≠ '\n')
    (never : ∀ e, ¬ Closes (marker ++ rest) e) :
    Spelled text ⟨⟨tag, some [last]⟩, marker ++ tag ++ gap ++ ':' :: lead ++ [last] ++ marker, rest⟩

lemma ends_zero {text : Text} : Ends text 0 ↔ marker <+: text := by
  simp [Ends]

lemma ends_cons_succ {c : Char} {text : Text} {place : Nat} :
    Ends (c :: text) (place + 1) ↔ c ≠ '\n' ∧ Ends text place := by
  simp only [Ends, List.drop_succ_cons, List.take_succ_cons, List.mem_cons, not_or, ne_comm]
  tauto

lemma not_ends_nil {place : Nat} : ¬ Ends [] place := by
  simp [Ends, marker]

lemma closes_cons_succ {c : Char} {text : Text} {place : Nat} :
    Closes (c :: text) (place + 1) ↔ c ≠ '\n' ∧ Ends text place := by
  simp [Closes, ends_cons_succ]

/-- A first place moves along with a character in front that is not itself the place. -/
lemma isLeast_succ_iff {p q : Nat → Prop} (hzero : ¬ p 0) (hsucc : ∀ e, p (e + 1) ↔ q e)
    {place : Nat} :
    IsLeast {e | p e} place ↔ ∃ before, place = before + 1 ∧ IsLeast {e | q e} before := by
  constructor
  · rintro ⟨hplace, hleast⟩
    cases place with
    | zero => exact absurd hplace hzero
    | succ before =>
      refine ⟨before, rfl, (hsucc before).mp hplace, fun e he => ?_⟩
      exact Nat.le_of_succ_le_succ (hleast ((hsucc e).mpr he))
  · rintro ⟨before, rfl, hbefore, hleast⟩
    refine ⟨(hsucc before).mpr hbefore, fun e he => ?_⟩
    cases e with
    | zero => exact absurd he hzero
    | succ e => exact Nat.succ_le_succ (hleast ((hsucc e).mp he))

/-- The search for the end of the options finds the least place that can be it. -/
theorem closeFrom_eq_some_iff_isLeast {taken text options rest : Text} :
    closeFrom taken text = some (options, rest) ↔
      ∃ place, IsLeast {e | Ends text e} place ∧ options = taken.reverse ++ text.take place ∧
        rest = text.drop (place + 2) := by
  induction taken, text using closeFrom.induct with
  | case1 taken =>
    refine iff_of_false (by simp [closeFrom]) ?_
    rintro ⟨place, ⟨hends, -⟩, -⟩
    exact not_ends_nil hends
  | case2 taken text =>
    have hzero : IsLeast {e | Ends ('%' :: '%' :: text) e} 0 :=
      ⟨ends_zero.mpr ⟨text, rfl⟩, fun _ _ => Nat.zero_le _⟩
    simp only [closeFrom, Option.some.injEq, Prod.mk.injEq, hzero.isLeast_iff_eq]
    constructor
    · rintro ⟨rfl, rfl⟩
      exact ⟨0, rfl, by simp, rfl⟩
    · rintro ⟨_, rfl, rfl, rfl⟩
      exact ⟨by simp, rfl⟩
  | case3 taken text hm =>
    refine iff_of_false (by simp [closeFrom]) ?_
    rintro ⟨place, ⟨hends, -⟩, -⟩
    cases place with
    | zero => simp [ends_zero, marker] at hends
    | succ place => exact (ends_cons_succ.mp hends).1 rfl
  | case4 taken c text hm hc ih =>
    have hmarker : ¬ marker <+: c :: text := by
      rintro ⟨rest, h⟩
      obtain ⟨rfl, rfl⟩ := List.cons.inj h
      exact hm rest rfl rfl
    have hzero : ¬ Ends (c :: text) 0 := fun h => hmarker (ends_zero.mp h)
    have hsucc (e : Nat) : Ends (c :: text) (e + 1) ↔ Ends text e :=
      ends_cons_succ.trans (and_iff_right hc)
    rw [closeFrom, if_neg hc, ih]
    · simp only [isLeast_succ_iff hzero hsucc]
      constructor
      · rintro ⟨p, hleast, rfl, rfl⟩
        exact ⟨p + 1, ⟨p, rfl, hleast⟩, by simp, rfl⟩
      · rintro ⟨_, ⟨p, rfl, hleast⟩, rfl, rfl⟩
        exact ⟨p, hleast, by simp, rfl⟩
    · exact hm

/-- The options take their first character as it is, and run up to the least place that can end
them. -/
theorem close?_eq_some_iff_isLeast {body options rest : Text} :
    close? body = some (options, rest) ↔
      ∃ place, IsLeast {e | Closes body e} place ∧ options = body.take place ∧
        rest = body.drop (place + 2) := by
  cases body with
  | nil =>
    refine iff_of_false (by simp [close?]) ?_
    rintro ⟨place, ⟨⟨-, hends⟩, -⟩, -⟩
    exact not_ends_nil hends
  | cons c text =>
    have hzero : ¬ Closes (c :: text) 0 := fun h => Nat.not_succ_le_zero 0 h.1
    by_cases hc : c = '\n'
    · refine iff_of_false (by simp [close?, hc]) ?_
      rintro ⟨place, ⟨hcloses, -⟩, -⟩
      cases place with
      | zero => exact hzero hcloses
      | succ place => exact (closes_cons_succ.mp hcloses).1 hc
    · have hsucc (e : Nat) : Closes (c :: text) (e + 1) ↔ Ends text e :=
        closes_cons_succ.trans (and_iff_right hc)
      rw [close?, if_neg hc, closeFrom_eq_some_iff_isLeast]
      simp only [isLeast_succ_iff hzero hsucc]
      constructor
      · rintro ⟨p, hleast, rfl, rfl⟩
        exact ⟨p + 1, ⟨p, rfl, hleast⟩, rfl, rfl⟩
      · rintro ⟨_, ⟨p, rfl, hleast⟩, rfl, rfl⟩
        exact ⟨p, hleast, rfl, rfl⟩

theorem close?_eq_none_iff {body : Text} : close? body = none ↔ ∀ e, ¬ Closes body e := by
  constructor
  · intro h e he
    classical
    have hleast := Nat.isLeast_find (p := Closes body) ⟨e, he⟩
    have hsome := close?_eq_some_iff_isLeast.mpr ⟨_, hleast, rfl, rfl⟩
    rw [h] at hsome
    contradiction
  · intro h
    rw [Option.eq_none_iff_forall_ne_some]
    rintro ⟨options, rest⟩ hsome
    obtain ⟨place, hleast, -⟩ := close?_eq_some_iff_isLeast.mp hsome
    exact h place hleast.1

/-- Behind a colon, the options end at the least place that can end them; without one, they are the
last white space if the marker stands directly behind it. -/
theorem readOptions?_eq_some_iff {text lead options rest : Text} :
    readOptions? text = some (lead, options, rest) ↔
      (∃ body place, text = lead ++ body ∧ Text.Run Text.isBlank lead body ∧
        IsLeast {e | Closes body e} place ∧ options = body.take place ∧
        rest = body.drop (place + 2)) ∨
      ∃ last, text = lead ++ [last] ++ (marker ++ rest) ∧
        Text.Run Text.isBlank (lead ++ [last]) (marker ++ rest) ∧ last ≠ '\n' ∧ options = [last] ∧
        ∀ e, ¬ Closes (marker ++ rest) e := by
  constructor
  · intro h
    have hrun : Text.Run Text.isBlank (Text.indentation text) (Text.trimStart text) :=
      Text.run_takeWhile Text.isBlank text
    have htext := Text.indentation_append_trimStart text
    rcases readOptions?_cases h with ⟨rfl, hclose⟩ | ⟨last, hclose, hmarker, hlead, hline, rfl⟩
    · obtain ⟨place, hleast, rfl, rfl⟩ := close?_eq_some_iff_isLeast.mp hclose
      exact .inl ⟨_, place, htext.symm, hrun, hleast, rfl, rfl⟩
    · rw [hmarker, hlead] at hrun htext
      rw [hmarker, close?_eq_none_iff] at hclose
      exact .inr ⟨last, htext.symm, hrun, hline, rfl, hclose⟩
  · rintro (⟨body, place, rfl, hblank, hleast, rfl, rfl⟩ | ⟨last, rfl, hblank, hline, rfl, hnever⟩)
    · have hclose := close?_eq_some_iff_isLeast.mpr ⟨place, hleast, rfl, rfl⟩
      simp only [readOptions?, Text.indentation, Text.trimStart, hblank.takeWhile_eq,
        hblank.dropWhile_eq, hclose]
    · have hclose := close?_eq_none_iff.mpr hnever
      simp only [readOptions?, Text.indentation, Text.trimStart, hblank.takeWhile_eq,
        hblank.dropWhile_eq, hclose, Text.strip?_append, List.getLast?_concat]
      simp [hline]

/-- The word and the white space behind a marker are these where the word is not empty. -/
lemma opens_takeWhile {body : Text} (hne : ¬ (body.takeWhile Text.isWord).isEmpty = true) :
    Opens (marker ++ body) (body.takeWhile Text.isWord)
      (Text.indentation (body.dropWhile Text.isWord))
      (Text.trimStart (body.dropWhile Text.isWord)) := by
  have hword := Text.run_takeWhile Text.isWord body
  have hblank := Text.run_takeWhile Text.isBlank (body.dropWhile Text.isWord)
  have hbehind := Text.indentation_append_trimStart (body.dropWhile Text.isWord)
  refine ⟨?_, by rwa [List.isEmpty_iff] at hne, by rwa [hbehind], hblank⟩
  rw [List.append_assoc, hbehind, List.append_assoc, List.takeWhile_append_dropWhile]

/-- What is read off a text that begins with the marker, a word and white space. -/
lemma Opens.reads {text tag gap behind : Text} (h : Opens text tag gap behind) :
    Text.strip? marker text = some (tag ++ (gap ++ behind)) ∧
      (tag ++ (gap ++ behind)).takeWhile Text.isWord = tag ∧
      (tag ++ (gap ++ behind)).dropWhile Text.isWord = gap ++ behind ∧
      Text.indentation (gap ++ behind) = gap ∧ Text.trimStart (gap ++ behind) = behind ∧
      tag.isEmpty = false := by
  refine ⟨?_, h.word.takeWhile_eq, h.word.dropWhile_eq, h.blank.takeWhile_eq,
    h.blank.dropWhile_eq, List.isEmpty_eq_false_iff.mpr h.tag_ne_nil⟩
  rw [h.text_eq, List.append_assoc, List.append_assoc, Text.strip?_append]

/-- A text is read as a placeholder just where it begins with the spelling of one. -/
theorem read?_eq_some_iff {text : Text} {found : Found} :
    read? text = some found ↔ Spelled text found := by
  constructor
  · intro h
    obtain ⟨body, tag, gap, behind, rfl, rfl, rfl, rfl, hempty, hcases⟩ := read?_cases h
    have hopens := opens_takeWhile hempty
    rcases hcases with ⟨rest, hrest, rfl⟩ | ⟨list, lead, options, rest, hlist, hread, rfl⟩
    · rw [hrest] at hopens
      exact .bare hopens
    · rw [hlist] at hopens
      obtain ⟨body, place, rfl, hblank, hleast, rfl, rfl⟩ |
        ⟨last, rfl, hblank, hline, rfl, hnever⟩ := readOptions?_eq_some_iff.mp hread
      · exact .options hopens hblank hleast
      · exact .lastBlank hopens hblank hline hnever
  · rintro (h | ⟨h, hblank, hleast⟩ | ⟨h, hblank, hline, hnever⟩)
    · obtain ⟨hstrip, htake, hdrop, hindent, htrim, hempty⟩ := h.reads
      simp only [read?, hstrip, htake, hdrop, hindent, htrim, hempty, Bool.false_eq_true, if_false]
      rfl
    · obtain ⟨hstrip, htake, hdrop, hindent, htrim, hempty⟩ := h.reads
      have hread := readOptions?_eq_some_iff.mpr
        (.inl ⟨_, _, rfl, hblank, hleast, rfl, rfl⟩)
      simp only [read?, hstrip, htake, hdrop, hindent, htrim, hempty, hread, Bool.false_eq_true,
        if_false]
    · obtain ⟨hstrip, htake, hdrop, hindent, htrim, hempty⟩ := h.reads
      have hread := readOptions?_eq_some_iff.mpr
        (.inr ⟨_, rfl, hblank, hline, rfl, hnever⟩)
      simp only [read?, hstrip, htake, hdrop, hindent, htrim, hempty, hread, Bool.false_eq_true,
        if_false]

end LineTemplate.Placeholder
