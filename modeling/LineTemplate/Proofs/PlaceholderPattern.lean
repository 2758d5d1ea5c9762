import LineTemplate.Proofs.Pattern
import LineTemplate.Proofs.PlaceholderSpelling
import Mathlib.Data.List.Basic

/-!
# Placeholders by a pattern

The placeholders of a text are the matches of a pattern in it. The pattern may match in several ways
at one place, and a matcher would have to go back over white space; all the same they are found in
one pass from left to right, as the word, the white space and the options come.
-/
namespace LineTemplate.Placeholder

/-- Whether a character may stand in options. -/
def inLine (c : Char) : Bool := c != '\n'

def optionsPattern : Pattern := .group 2 (.seq (.one inLine) (.few inLine))

/-- What stands behind the name of a placeholder and the white space behind it. -/
def closingPattern : Pattern :=
  .seq (.optional (.seq (.literal [':']) (.seq (.many Text.isBlank) optionsPattern)))
    (.literal marker)

/-- The pattern of a placeholder, `%%(\w+)\s*(?::\s*(.+?))?%%` as a regular expression. -/
def pattern : Pattern :=
  .seq (.literal marker) <| .seq (.group 1 (.oneOrMore Text.isWord)) <|
    .seq (.many Text.isBlank) closingPattern

def groups (placeholder : Placeholder) : List (Nat × Text) :=
  (1, placeholder.tag) :: placeholder.options.toList.map (2, ·)

def Found.way (found : Found) : Pattern.Way :=
  ⟨found.source, found.placeholder.groups, found.rest⟩

/-- The way in which options with the marker behind them are found. -/
def closedWay (options rest : Text) : Pattern.Way := ⟨options ++ marker, [(2, options)], rest⟩

/-- Of the ways to take few characters, the first one that a marker follows ends at the first
marker. -/
lemma findSome?_longestFirst_reverse (taken text : Text) :
    (Pattern.longestFirst inLine text).reverse.findSome? (fun w =>
        (Text.strip? marker w.rest).map fun rest =>
          (⟨taken.reverse ++ w.taken ++ marker, (2, taken.reverse ++ w.taken) :: w.groups, rest⟩ :
            Pattern.Way)) =
      (closeFrom taken text).map fun (options, rest) => closedWay options rest := by
  induction taken, text using closeFrom.induct with
  | case1 taken => rfl
  | case2 taken text =>
    simp [closeFrom, closedWay, Pattern.longestFirst, inLine, Pattern.Way.nothing, marker,
      Text.strip?]
  | case3 taken text hm =>
    simp [closeFrom, Pattern.longestFirst, inLine, Pattern.Way.nothing, marker, Text.strip?]
  | case4 taken c text hm hc ih =>
    have hkind : inLine c = true := by simpa [inLine] using hc
    have hstrip : Text.strip? marker (c :: text) = none := by
      rw [Text.strip?_eq_none_iff]
      intro rest h
      obtain ⟨rfl, rfl⟩ := List.cons.inj h
      exact hm rest rfl rfl
    have hcons (w : Pattern.Way) :
        taken.reverse ++ (w.cons c).taken = (c :: taken).reverse ++ w.taken := by
      simp [Pattern.Way.cons]
    rw [closeFrom, if_neg hc, ← ih, Pattern.longestFirst, if_pos hkind, List.reverse_append,
      ← List.map_reverse, List.reverse_singleton, List.singleton_append, List.findSome?_cons,
      Pattern.Way.nothing, hstrip, Option.map_none, List.findSome?_map]
    · simp only [Function.comp_def, hcons]
      rfl
    · exact hm

lemma first?_marker (text : Text) :
    (Pattern.literal marker).first? text = (Text.strip? marker text).map (⟨marker, [], ·⟩) := by
  rw [Pattern.first?, Pattern.ways]
  cases Text.strip? marker text <;> rfl

/-- Options and the marker behind them. -/
lemma first?_options_marker (body : Text) :
    (optionsPattern.seq (.literal marker)).first? body =
      (close? body).map fun (options, rest) => closedWay options rest := by
  cases body with
  | nil => rfl
  | cons c body =>
    rw [Pattern.first?_seq, optionsPattern, Pattern.ways, Pattern.ways, Pattern.ways, close?]
    by_cases hc : c = '\n'
    · rw [if_pos hc, if_neg (by simp [inLine, hc])]
      rfl
    · rw [if_neg hc, if_pos (by simp [inLine, hc]), List.flatMap_singleton, Pattern.ways,
        ← findSome?_longestFirst_reverse, List.findSome?_map, List.findSome?_map]
      congr 1
      funext w
      simp [first?_marker, Pattern.Way.keep, Pattern.Way.andThen, Function.comp_def]

lemma ends_blank_append {blanks text : Text} (h : ∀ c ∈ blanks, Text.isBlank c = true)
    {place : Nat} :
    Ends (blanks ++ text) place ↔
      '\n' ∉ blanks ∧ ∃ behind, place = blanks.length + behind ∧ Ends text behind := by
  induction blanks generalizing place with
  | nil => simp
  | cons c blanks ih =>
    obtain ⟨hc, hblanks⟩ := List.forall_mem_cons.mp h
    cases place with
    | zero =>
      refine iff_of_false ?_ ?_
      · rintro hends
        obtain ⟨rest, hrest⟩ := ends_zero.mp hends
        obtain ⟨rfl, -⟩ := List.cons.inj hrest
        exact absurd hc (by decide)
      · rintro ⟨-, behind, hplace, -⟩
        rw [List.length_cons] at hplace
        omega
    | succ place =>
      rw [List.cons_append, ends_cons_succ, ih hblanks, List.mem_cons, not_or, List.length_cons,
        and_assoc, ne_comm]
      simp only [Nat.add_right_comm _ 1, Nat.add_right_cancel_iff]

/-- Wherever options can be read behind white space, there are options that are read. -/
lemma exists_readOptions? {passed text : Text} {place : Nat}
    (hpassed : ∀ c ∈ passed, Text.isBlank c = true) (h : Closes text place) :
    ∃ found, readOptions? (passed ++ text) = some found := by
  have hpart : ∀ c ∈ text.takeWhile Text.isBlank, Text.isBlank c = true :=
    (Text.run_takeWhile Text.isBlank text).all
  have hstop := (Text.run_takeWhile Text.isBlank text).stops
  have htext := List.takeWhile_append_dropWhile (p := Text.isBlank) (l := text)
  generalize text.takeWhile Text.isBlank = part at hpart htext
  generalize text.dropWhile Text.isBlank = body at hstop htext
  subst htext
  have hrun : Text.Run Text.isBlank (passed ++ part) body :=
    ⟨List.forall_mem_append.mpr ⟨hpassed, hpart⟩, hstop⟩
  rw [← List.append_assoc]
  by_cases hcloses : ∃ e, Closes body e
  · classical
    have hleast := Nat.isLeast_find hcloses
    exact ⟨_, readOptions?_eq_some_iff.mpr (.inl ⟨_, _, rfl, hrun, hleast, rfl, rfl⟩)⟩
  · have hnever := not_exists.mp hcloses
    obtain ⟨hplace, hends⟩ := h
    obtain ⟨hline, behind, rfl, hbehind⟩ := (ends_blank_append hpart).mp hends
    obtain rfl : behind = 0 := by
      by_contra hpos
      exact hnever behind ⟨Nat.one_le_iff_ne_zero.mpr hpos, hbehind⟩
    obtain ⟨rest, rfl⟩ := ends_zero.mp hbehind
    have hne : part ≠ [] := List.ne_nil_of_length_pos hplace
    obtain ⟨front, last, rfl⟩ := (List.eq_nil_or_concat' part).resolve_left hne
    have hlast : last ≠ '\n' := fun h => hline (by simp [h])
    rw [← List.append_assoc] at hrun ⊢
    exact ⟨(passed ++ front, [last], rest),
      readOptions?_eq_some_iff.mpr (.inr ⟨last, by simp, hrun, hlast, rfl, hnever⟩)⟩

/-- White space that was passed in some way, with options and the marker behind it. -/
def optionsBehind (w : Pattern.Way) : Option Pattern.Way :=
  ((optionsPattern.seq (.literal marker)).first? w.rest).map w.andThen

lemma optionsBehind_cons (c : Char) (w : Pattern.Way) :
    optionsBehind (w.cons c) = (optionsBehind w).map (.cons c) := by
  rw [optionsBehind, optionsBehind, Option.map_map]
  rfl

/-- Where only the last white space can be the options, the way that takes all of the white space
fails, and the next one is the one that counts. -/
lemma findSome?_lastBlank {front rest : Text} {last : Char}
    (hblank : Text.Run Text.isBlank (front ++ [last]) (marker ++ rest)) (hline : last ≠ '\n')
    (hnever : ∀ e, ¬ Closes (marker ++ rest) e) :
    (Pattern.longestFirst Text.isBlank (front ++ [last] ++ (marker ++ rest))).findSome?
        optionsBehind =
      some ⟨front ++ [last] ++ marker, [(2, [last])], rest⟩ := by
  induction front with
  | nil =>
    have hkind : Text.isBlank last = true := hblank.all last (by simp)
    have hlong : close? (marker ++ rest) = none := close?_eq_none_iff.mpr hnever
    have hshort : close? (last :: (marker ++ rest)) = some ([last], rest) := by
      rw [close?, if_neg hline, marker, List.cons_append, List.cons_append, closeFrom]
      rfl
    have hways : Pattern.longestFirst Text.isBlank ([last] ++ (marker ++ rest)) =
        [⟨[last], [], marker ++ rest⟩, ⟨[], [], last :: (marker ++ rest)⟩] := by
      have hpercent : Text.isBlank '%' = false := by decide
      simp [Pattern.longestFirst, hkind, marker, hpercent, Pattern.Way.nothing, Pattern.Way.cons]
    simp only [List.nil_append, hways, List.findSome?_cons, optionsBehind, first?_options_marker,
      hlong, hshort, Option.map_none, Option.map_some]
    rfl
  | cons c front ih =>
    have hc : Text.isBlank c = true := hblank.all c (by simp)
    have hfront : Text.Run Text.isBlank (front ++ [last]) (marker ++ rest) :=
      ⟨fun d hd => hblank.all d (List.mem_cons_of_mem _ hd), hblank.stops⟩
    have hmore : optionsBehind ∘ Pattern.Way.cons c = Option.map (.cons c) ∘ optionsBehind :=
      funext (optionsBehind_cons c)
    rw [List.cons_append, List.cons_append, Pattern.longestFirst, if_pos hc, List.findSome?_append,
      List.findSome?_map, hmore, ← List.map_findSome?, ih hfront]
    rfl

theorem first?_behindColon (list : Text) :
    ((Pattern.many Text.isBlank).seq (optionsPattern.seq (.literal marker))).first? list =
      (readOptions? list).map fun (lead, options, rest) =>
        ⟨lead ++ options ++ marker, [(2, options)], rest⟩ := by
  rw [Pattern.first?_seq, Pattern.ways]
  cases h : readOptions? list with
  | none =>
    rw [Option.map_none, List.findSome?_eq_none_iff]
    intro w hw
    obtain ⟨rfl, htaken, -⟩ := Pattern.mem_longestFirst_iff.mp hw
    rw [first?_options_marker]
    cases hclose : close? w.rest with
    | none => rfl
    | some found =>
      obtain ⟨place, hleast, -⟩ := close?_eq_some_iff_isLeast.mp hclose
      obtain ⟨found', hfound'⟩ := exists_readOptions? htaken hleast.1
      rw [h] at hfound'
      contradiction
  | some found =>
    obtain ⟨lead, options, rest⟩ := found
    obtain ⟨body, place, rfl, hblank, hleast, rfl, rfl⟩ |
      ⟨last, rfl, hblank, hline, rfl, hnever⟩ := readOptions?_eq_some_iff.mp h
    · refine Pattern.findSome?_longestFirst_of_eq_some ?_
      have hclose := close?_eq_some_iff_isLeast.mpr ⟨place, hleast, rfl, rfl⟩
      simp only [hblank.takeWhile_eq, hblank.dropWhile_eq, first?_options_marker, hclose]
      simp [closedWay, Pattern.Way.andThen]
    · exact findSome?_lastBlank hblank hline hnever

/-- The options and the marker behind them, or else the marker alone. -/
lemma first?_closingPattern (behind : Text) :
    closingPattern.first? behind =
      ((Text.strip? [':'] behind).bind fun list => (readOptions? list).map
        fun (lead, options, rest) => ⟨':' :: lead ++ options ++ marker, [(2, options)], rest⟩).or
      ((Text.strip? marker behind).map fun rest => ⟨marker, [], rest⟩) := by
  rw [closingPattern, Pattern.first?_optional_seq, first?_marker]
  congr 1
  rw [Pattern.first?, Pattern.ways_seq_assoc, ← Pattern.first?, Pattern.first?_literal_seq]
  congr 1
  funext list
  rw [Pattern.first?, Pattern.ways_seq_assoc, ← Pattern.first?, first?_behindColon, Option.map_map]
  rfl

lemma first?_closingPattern_eq_none {behind : Text}
    (hmarker : ∀ rest, behind = '%' :: '%' :: rest → False)
    (hcolon : ∀ list, behind = ':' :: list → False) : closingPattern.first? behind = none := by
  have hoptions : Text.strip? [':'] behind = none := Text.strip?_eq_none_iff.mpr hcolon
  have hbare : Text.strip? marker behind = none := Text.strip?_eq_none_iff.mpr hmarker
  rw [first?_closingPattern, hoptions, hbare]
  rfl

lemma first?_closingPattern_of_ne {c : Char} (hpercent : c ≠ '%') (hcolon : c ≠ ':')
    (behind : Text) : closingPattern.first? (c :: behind) = none :=
  first?_closingPattern_eq_none (fun _ h => hpercent (List.cons.inj h).1)
    fun _ h => hcolon (List.cons.inj h).1

/-- The pattern matches the start of a text just as a placeholder is read there. -/
theorem first?_pattern (text : Text) : pattern.first? text = (read? text).map Found.way := by
  have hblank (c : Char) (behind : Text) (hc : Text.isBlank c = true) :
      closingPattern.first? (c :: behind) = none :=
    first?_closingPattern_of_ne (by rintro rfl; exact absurd hc (by decide))
      (by rintro rfl; exact absurd hc (by decide)) behind
  have hword (c : Char) (behind : Text) (hc : Text.isWord c = true) :
      ((Pattern.many Text.isBlank).seq closingPattern).first? (c :: behind) = none := by
    have hgap : ¬ Text.isBlank c = true := by simp [Text.isBlank_eq_false_of_isWord hc]
    rw [Pattern.first?_many_seq hblank, List.dropWhile_cons_of_neg hgap,
      first?_closingPattern_of_ne (by rintro rfl; exact absurd hc (by decide +kernel))
        (by rintro rfl; exact absurd hc (by decide +kernel)), Option.map_none]
  rw [pattern, Pattern.first?_literal_seq, read?]
  cases Text.strip? marker text with
  | none => rfl
  | some body =>
    rw [Option.bind_some, Pattern.first?_group_oneOrMore_seq hword, Pattern.first?_many_seq hblank]
    simp only [List.isEmpty_iff, Text.trimStart, Text.indentation]
    split_ifs with hempty
    · rfl
    · generalize (body.dropWhile Text.isWord).dropWhile Text.isBlank = behind
      split
      · simp [first?_closingPattern, Text.strip?, marker, Found.way, groups, Pattern.Way.andThen]
      · rename_i list
        have hoptions : Text.strip? [':'] (':' :: list) = some list := rfl
        have hbare : Text.strip? marker (':' :: list) = none := rfl
        rw [first?_closingPattern, hoptions, hbare, Option.bind_some]
        cases readOptions? list with
        | none => rfl
        | some found => simp [Found.way, groups, Pattern.Way.andThen]
      · rename_i hmarker hcolon
        rw [first?_closingPattern_eq_none hmarker hcolon]
        rfl

end LineTemplate.Placeholder
