import LineTemplate.Directive
import LineTemplate.Proofs.Pattern
import LineTemplate.Proofs.Production
import LineTemplate.Proofs.Runs
import LineTemplate.Proofs.TagNames

/-!
# The grammar of directives

Directives are spelled in three forms, with white space in fixed places. No line has two spellings:
there is neither a doubt about its form, nor about what belongs to the name and what to the white
space. Reading a line takes its spelling apart, in whatever order the forms are tried, and a line
without a spelling is content.
-/
namespace LineTemplate.Directive

/-- White space, which may be empty. -/
abbrev Blanks := {text : Text // ∀ c ∈ text, Text.isBlank c = true}

abbrev Name := {text : Text // Text.isName text = true}

/-- A way to spell a directive. -/
inductive Spelling where
  | closing (a b c : Blanks)
  | otherwise (a b : Blanks)
  | test (alternate : Bool) (kind : Test) (a b : Blanks) (tag : Name) (c d : Blanks)

/-- The word in front of the tag of a test. -/
def testWord (alternate : Bool) (kind : Test) : Text :=
  (if alternate then "el".toList else []) ++ "if".toList ++
    (if kind = .notEmpty then "not".toList else []) ++ "empty:".toList

namespace Spelling

/-- The line that is spelled. -/
def text : Spelling → Text
  | closing a b c => marker ++ a ++ "endif".toList ++ b ++ marker ++ c
  | otherwise a b => marker ++ a ++ "else".toList ++ marker ++ b
  | test alternate kind a b tag c d =>
    marker ++ a ++ testWord alternate kind ++ b ++ tag ++ c ++ marker ++ d

/-- The directive that is meant. -/
def directive : Spelling → Directive
  | closing _ _ _ => .closing
  | otherwise _ _ => .otherwise
  | test true kind _ _ tag _ _ => .alternative ⟨kind, tag⟩
  | test false kind _ _ tag _ _ => .opening ⟨kind, tag⟩

end Spelling

lemma run_cons (blanks : Blanks) {c : Char} (hc : Text.isBlank c = false) (rest : Text) :
    Text.Run Text.isBlank blanks (c :: rest) :=
  ⟨blanks.2, fun d hd => by rwa [← Option.some.inj hd]⟩

lemma run_marker (blanks : Blanks) (rest : Text) : Text.Run Text.isBlank blanks (marker ++ rest) :=
  run_cons blanks (by decide) _

/-- White space comes off a text in one way. -/
lemma blanks_unique {a b : Blanks} {rest rest' : Text} (ha : Text.Run Text.isBlank a rest)
    (hb : Text.Run Text.isBlank b rest') (h : a.1 ++ rest = b.1 ++ rest') :
    a = b ∧ rest = rest' := by
  obtain ⟨hblanks, hrest⟩ := ha.unique hb h
  exact ⟨Subtype.ext hblanks, hrest⟩

lemma run_name (blanks : Blanks) (tag : Name) (rest : Text) :
    Text.Run Text.isBlank blanks (tag.1 ++ rest) := by
  obtain ⟨tag, htag⟩ := tag
  obtain ⟨hne, hword⟩ := Text.isName_iff.mp htag
  obtain ⟨c, more, rfl⟩ := List.exists_cons_of_ne_nil hne
  exact run_cons blanks (Text.isBlank_eq_false_of_isWord (hword c List.mem_cons_self)) _

lemma run_word (tag : Name) (blanks : Blanks) (rest : Text) :
    Text.Run Text.isWord tag (blanks.1 ++ (marker ++ rest)) := by
  refine ⟨(Text.isName_iff.mp tag.2).2, fun c hc => ?_⟩
  obtain ⟨blanks, hblanks⟩ := blanks
  cases blanks with
  | nil =>
    obtain rfl := Option.some.inj hc
    decide +kernel
  | cons d blanks =>
    obtain rfl := Option.some.inj hc
    exact Text.isWord_eq_false_of_isBlank (hblanks d List.mem_cons_self)

lemma testWord_append (alternate : Bool) (kind : Test) (rest : Text) :
    testWord alternate kind ++ rest =
      (if alternate then "el".toList else []) ++ ("if".toList ++
        ((if kind = .notEmpty then "not".toList else []) ++ ("empty:".toList ++ rest))) := by
  rw [testWord, List.append_assoc, List.append_assoc, List.append_assoc]

lemma testWord_append_inj {alternate alternate' : Bool} {kind kind' : Test} {rest rest' : Text}
    (h : testWord alternate kind ++ rest = testWord alternate' kind' ++ rest') :
    alternate = alternate' ∧ kind = kind' ∧ rest = rest' := by
  cases alternate <;> cases alternate' <;> cases kind <;> cases kind' <;> simp_all [testWord]

namespace Spelling

def lead : Spelling → Blanks
  | closing a _ _ => a
  | otherwise a _ => a
  | test _ _ a _ _ _ _ => a

def behind : Spelling → Text
  | closing _ b c => "endif".toList ++ (b ++ (marker ++ c))
  | otherwise _ b => "else".toList ++ (marker ++ b)
  | test alternate kind _ b tag c d =>
    testWord alternate kind ++ (b ++ (tag ++ (c ++ (marker ++ d))))

lemma text_eq (s : Spelling) : s.text = marker ++ (s.lead ++ s.behind) := by
  cases s <;> simp [text, lead, behind]

lemma run_lead (s : Spelling) : Text.Run Text.isBlank s.lead s.behind := by
  cases s with
  | closing a b c => exact run_cons a (c := 'e') (by decide) _
  | otherwise a b => exact run_cons a (c := 'e') (by decide) _
  | test alternate kind a b tag c d =>
    cases alternate with
    | true => exact run_cons a (c := 'e') (by decide) _
    | false => exact run_cons a (c := 'i') (by decide) _

/-- A line has no more than one spelling. -/
theorem text_injective : Function.Injective text := by
  intro s s' h
  rw [text_eq, text_eq, List.append_cancel_left_eq] at h
  obtain ⟨hlead, hbehind⟩ := blanks_unique s.run_lead s'.run_lead h
  cases s with
  | closing a b c =>
    cases s' with
    | closing a' b' c' =>
      obtain ⟨rfl, hmarker⟩ := blanks_unique (run_marker _ _) (run_marker _ _)
        (List.append_cancel_left hbehind)
      obtain rfl := Subtype.ext (List.append_cancel_left hmarker)
      rw [show a = a' from hlead]
    | otherwise a' b' => simp [behind] at hbehind
    | test alternate kind a' b' tag c' d' =>
      cases alternate <;> simp [behind, testWord] at hbehind
  | otherwise a b =>
    cases s' with
    | closing a' b' c' => simp [behind] at hbehind
    | otherwise a' b' =>
      obtain rfl := Subtype.ext (List.append_cancel_left (List.append_cancel_left hbehind))
      rw [show a = a' from hlead]
    | test alternate kind a' b' tag c' d' =>
      cases alternate <;> simp [behind, testWord] at hbehind
  | test alternate kind a b tag c d =>
    cases s' with
    | closing a' b' c' => cases alternate <;> simp [behind, testWord] at hbehind
    | otherwise a' b' => cases alternate <;> simp [behind, testWord] at hbehind
    | test alternate' kind' a' b' tag' c' d' =>
      obtain ⟨rfl, rfl, hrest⟩ := testWord_append_inj hbehind
      obtain ⟨rfl, htag⟩ := blanks_unique (run_name _ _ _) (run_name _ _ _) hrest
      obtain ⟨hname, hblanks⟩ := (run_word _ _ _).unique (run_word _ _ _) htag
      obtain rfl := Subtype.ext hname
      obtain ⟨rfl, hmarker⟩ := blanks_unique (run_marker _ _) (run_marker _ _) hblanks
      obtain rfl := Subtype.ext (List.append_cancel_left hmarker)
      rw [show a = a' from hlead]

end Spelling

lemma exists_blanks (text : Text) :
    ∃ blanks : Blanks, Text.indentation text = blanks ∧ text = blanks ++ Text.trimStart text :=
  ⟨⟨Text.indentation text, (Text.run_takeWhile Text.isBlank text).all⟩, rfl,
    (Text.indentation_append_trimStart text).symm⟩

lemma trimStart_of_run {blanks : Blanks} {rest : Text} (h : Text.Run Text.isBlank blanks rest) :
    Text.trimStart (blanks ++ rest) = rest := h.dropWhile_eq

lemma isClosed_iff {text : Text} :
    isClosed text = true ↔ ∃ blanks : Blanks, text = marker ++ blanks := by
  unfold isClosed
  constructor
  · intro h
    split at h
    · contradiction
    · rename_i rest hrest
      exact ⟨⟨rest, List.all_eq_true.mp h⟩, Text.strip?_eq_some_iff.mp hrest⟩
  · rintro ⟨blanks, rfl⟩
    rw [Text.strip?_append]
    exact List.all_eq_true.mpr blanks.2

lemma isClosing_iff {line : Text} :
    isClosing line = true ↔ ∃ a b c, (Spelling.closing a b c).text = line := by
  unfold isClosing
  constructor
  · intro h
    split at h
    · contradiction
    · rename_i body hbody
      split at h
      · contradiction
      · rename_i rest hrest
        obtain ⟨a, -, ha⟩ := exists_blanks body
        obtain ⟨b, -, hb⟩ := exists_blanks rest
        obtain ⟨c, hc⟩ := isClosed_iff.mp h
        rw [Text.strip?_eq_some_iff] at hbody hrest
        refine ⟨a, b, c, ?_⟩
        rw [hbody, ha, hrest, hb, hc]
        simp [Spelling.text]
  · rintro ⟨a, b, c, rfl⟩
    simp only [Spelling.text_eq, Text.strip?_append, trimStart_of_run (Spelling.run_lead _)]
    simp only [Spelling.behind, Text.strip?_append, trimStart_of_run (run_marker b c)]
    exact isClosed_iff.mpr ⟨c, rfl⟩

lemma isOtherwise_iff {line : Text} :
    isOtherwise line = true ↔ ∃ a b, (Spelling.otherwise a b).text = line := by
  unfold isOtherwise
  constructor
  · intro h
    split at h
    · contradiction
    · rename_i body hbody
      split at h
      · contradiction
      · rename_i rest hrest
        obtain ⟨a, -, ha⟩ := exists_blanks body
        obtain ⟨b, hb⟩ := isClosed_iff.mp h
        rw [Text.strip?_eq_some_iff] at hbody hrest
        refine ⟨a, b, ?_⟩
        rw [hbody, ha, hrest, hb]
        simp [Spelling.text]
  · rintro ⟨a, b, rfl⟩
    simp only [Spelling.text_eq, Text.strip?_append, trimStart_of_run (Spelling.run_lead _)]
    simp only [Spelling.behind, Text.strip?_append]
    exact isClosed_iff.mpr ⟨b, rfl⟩

def Keyword.ofTest (alternate : Bool) (kind : Test) : Keyword :=
  if alternate then .elifTest kind else .ifTest kind

lemma text_ofTest (alternate : Bool) (kind : Test) :
    (Keyword.ofTest alternate kind).text = testWord alternate kind := by
  cases alternate <;> cases kind <;> rfl

lemma exists_ofTest (keyword : Keyword) :
    ∃ alternate kind, Keyword.ofTest alternate kind = keyword := by
  cases keyword with
  | ifTest kind => exact ⟨false, kind, rfl⟩
  | elifTest kind => exact ⟨true, kind, rfl⟩

lemma directive_ofTest (alternate : Bool) (kind : Test) (a b : Blanks) (tag : Name) (c d : Blanks) :
    (Keyword.ofTest alternate kind).directive tag =
      (Spelling.test alternate kind a b tag c d).directive := by
  cases alternate <;> rfl

lemma readTag?_eq_some {lead text : Text} {keyword : Keyword} {located : Located}
    (h : readTag? lead keyword text = some located) :
    ∃ (b : Blanks) (tag : Name) (c d : Blanks), text = b ++ (tag ++ (c ++ (marker ++ d))) ∧
      located = ⟨lead ++ keyword.text ++ b, tag, keyword.directive tag⟩ := by
  obtain ⟨word, rfl, hempty, hclosed, rfl⟩ := word_of_readTag? h
  obtain ⟨b, hlead, hb⟩ := exists_blanks text
  obtain ⟨c, -, hc⟩ := exists_blanks ((Text.trimStart text).dropWhile Text.isWord)
  obtain ⟨d, hd⟩ := isClosed_iff.mp hclosed
  refine ⟨b, ⟨_, Text.isName_takeWhile hempty⟩, c, d, ?_, by rw [hlead]⟩
  rw [← hd, ← hc, List.takeWhile_append_dropWhile, ← hb]

lemma readTag?_of_spelled (lead : Text) (keyword : Keyword) (b : Blanks) (tag : Name)
    (c d : Blanks) :
    readTag? lead keyword (b ++ (tag ++ (c ++ (marker ++ d)))) =
      some ⟨lead ++ keyword.text ++ b, tag, keyword.directive tag⟩ := by
  have hempty : tag.1.isEmpty = false := List.isEmpty_eq_false_iff.mpr (Text.isName_iff.mp tag.2).1
  have hclosed : isClosed (marker ++ d) = true := isClosed_iff.mpr ⟨d, rfl⟩
  simp only [readTag?, Text.trimStart, Text.indentation, (run_name b tag _).dropWhile_eq,
    (run_name b tag _).takeWhile_eq, (run_word tag c d).takeWhile_eq,
    (run_word tag c d).dropWhile_eq, (run_marker c d).dropWhile_eq, hempty, hclosed,
    Bool.false_eq_true, if_false, if_true]

/-- What is located in a line is the tag of the test that is spelled there. -/
theorem locate?_eq_some {line : Text} {located : Located} (h : locate? line = some located) :
    ∃ alternate kind a b tag c d, (Spelling.test alternate kind a b tag c d).text = line ∧
      located = ⟨marker ++ a ++ testWord alternate kind ++ b, tag,
        (Spelling.test alternate kind a b tag c d).directive⟩ := by
  obtain ⟨keyword, body, rest, rfl, hbody, hread⟩ := exists_of_locate? h
  obtain ⟨alternate, kind, rfl⟩ := exists_ofTest keyword
  obtain ⟨a, hlead, ha⟩ := exists_blanks body
  obtain ⟨b, tag, c, d, rfl, rfl⟩ := readTag?_eq_some hread
  refine ⟨alternate, kind, a, b, tag, c, d, ?_, ?_⟩
  · rw [ha, hbody, text_ofTest]
    simp [Spelling.text]
  · rw [hlead, text_ofTest, directive_ofTest]

/-- A line that is spelled as a test is read as one, whichever keyword is tried first. -/
lemma locate?_ne_none (alternate : Bool) (kind : Test) (a b : Blanks) (tag : Name) (c d : Blanks) :
    locate? (Spelling.test alternate kind a b tag c d).text ≠ none := by
  have hmem : Keyword.ofTest alternate kind ∈ Keyword.all := by
    cases alternate <;> cases kind <;> decide
  intro h
  simp only [locate?, Spelling.text_eq, Text.strip?_append, List.findSome?_eq_none_iff,
    trimStart_of_run (Spelling.run_lead _)] at h
  have hkeyword := h _ hmem
  simp only [Spelling.behind, text_ofTest, Text.strip?_append, readTag?_of_spelled] at hkeyword
  contradiction

/-- A line is read as a directive just where that directive is spelled. -/
theorem read?_eq_some_iff {line : Text} {d : Directive} :
    read? line = some d ↔ ∃ s : Spelling, s.text = line ∧ s.directive = d := by
  have hsound {d : Directive} (h : read? line = some d) :
      ∃ s : Spelling, s.text = line ∧ s.directive = d := by
    unfold read? at h
    split_ifs at h with hclosing hotherwise
    · obtain ⟨a, b, c, rfl⟩ := isClosing_iff.mp hclosing
      exact ⟨_, rfl, Option.some.inj h⟩
    · obtain ⟨a, b, rfl⟩ := isOtherwise_iff.mp hotherwise
      exact ⟨_, rfl, Option.some.inj h⟩
    · obtain ⟨located, hlocated, rfl⟩ := Option.map_eq_some_iff.mp h
      obtain ⟨alternate, kind, a, b, tag, c, d, htext, rfl⟩ := locate?_eq_some hlocated
      exact ⟨_, htext, rfl⟩
  refine ⟨hsound, ?_⟩
  rintro ⟨s, rfl, rfl⟩
  have hread : read? s.text ≠ none := by
    unfold read?
    split_ifs with hclosing hotherwise
    · exact nofun
    · exact nofun
    · cases s with
      | closing a b c => exact absurd (isClosing_iff.mpr ⟨a, b, c, rfl⟩) hclosing
      | otherwise a b => exact absurd (isOtherwise_iff.mpr ⟨a, b, rfl⟩) hotherwise
      | test alternate kind a b tag c d =>
        rw [Ne, Option.map_eq_none_iff]
        exact locate?_ne_none alternate kind a b tag c d
  -- What is read has a spelling of its own, and the line has no other one.
  obtain ⟨d, hd⟩ := Option.ne_none_iff_exists'.mp hread
  obtain ⟨s', htext, rfl⟩ := hsound hd
  rw [hd, Spelling.text_injective htext]

/-- The three forms of a directive. -/
inductive Form where
  | closing
  | otherwise
  | test
  deriving DecidableEq, Repr

namespace Form

/-- All forms, in the order in which `read?` tries them. -/
def all : List Form := [closing, otherwise, test]

lemma mem_all (form : Form) : form ∈ all := by
  cases form <;> decide

/-- A marker with white space behind it, up to the end of the line. -/
def ending : Pattern := .seq (.literal marker) (.seq (.many Text.isBlank) .atEnd)

/-- The pattern of a form; as regular expressions, `!!\s*endif\s*!!\s*$`, `!!\s*else!!\s*$` and
`!!\s*(el)?if(not)?empty:\s*(\w+)\s*!!\s*$`. -/
def pattern : Form → Pattern
  | closing =>
    .seq (.literal marker) <| .seq (.many Text.isBlank) <| .seq (.literal "endif".toList) <|
      .seq (.many Text.isBlank) ending
  | otherwise =>
    .seq (.literal marker) <| .seq (.many Text.isBlank) <| .seq (.literal "else".toList) ending
  | test =>
    .seq (.literal marker) <| .seq (.many Text.isBlank) <|
      .seq (.optional (.group 1 (.literal "el".toList))) <| .seq (.literal "if".toList) <|
      .seq (.optional (.group 2 (.literal "not".toList))) <| .seq (.literal "empty:".toList) <|
      .seq (.many Text.isBlank) <| .seq (.group 3 (.oneOrMore Text.isWord)) <|
      .seq (.many Text.isBlank) ending

/-- The directive that a match of the form means. -/
def directive? (form : Form) (w : Pattern.Way) : Option Directive :=
  match form with
  | closing => some .closing
  | otherwise => some .otherwise
  | test => (w.group? 3).map fun tag =>
    let condition : Condition := ⟨if (w.group? 2).isSome then .notEmpty else .empty, tag⟩
    if (w.group? 1).isSome then .alternative condition else .opening condition

/-- Reads a line by the pattern of a form. -/
def read? (form : Form) (line : Text) : Option Directive :=
  (form.pattern.first? line).bind form.directive?

end Form

namespace Spelling

def form : Spelling → Form
  | closing _ _ _ => .closing
  | otherwise _ _ => .otherwise
  | test _ _ _ _ _ _ _ => .test

def groups : Spelling → List (Nat × Text)
  | closing _ _ _ => []
  | otherwise _ _ => []
  | test alternate kind _ _ tag _ _ =>
    (if alternate then [(1, "el".toList)] else []) ++
      (if kind = .notEmpty then [(2, "not".toList)] else []) ++ [(3, tag.1)]

end Spelling

lemma matches_ending {taken rest : Text} {groups : List (Nat × Text)} :
    Form.ending.Matches taken groups rest ↔
      ∃ blanks : Blanks, taken = marker ++ blanks ∧ groups = [] ∧ rest = [] := by
  simp only [Form.ending, Pattern.matches_literal_seq, Pattern.matches_many_seq]
  constructor
  · rintro ⟨_, rfl, blanks, _, rfl, hblanks, rfl, rfl, rfl⟩
    exact ⟨⟨blanks, hblanks⟩, by simp, rfl, rfl⟩
  · rintro ⟨blanks, rfl, rfl, rfl⟩
    exact ⟨_, rfl, blanks, [], by simp, blanks.2, rfl, rfl, rfl⟩

/-- The pattern of a form matches just what is spelled in this form. -/
theorem matches_pattern_iff {form : Form} {line rest : Text} {groups : List (Nat × Text)} :
    form.pattern.Matches line groups rest ↔
      rest = [] ∧ ∃ s : Spelling, s.form = form ∧ s.text = line ∧ s.groups = groups := by
  constructor
  · intro h
    cases form with
    | closing =>
      simp only [Form.pattern, Pattern.matches_literal_seq, Pattern.matches_many_seq,
        matches_ending] at h
      obtain ⟨_, rfl, a, _, rfl, ha, _, rfl, b, _, rfl, hb, c, rfl, rfl, rfl⟩ := h
      exact ⟨rfl, .closing ⟨a, ha⟩ ⟨b, hb⟩ c, rfl, Spelling.text_eq _, rfl⟩
    | otherwise =>
      simp only [Form.pattern, Pattern.matches_literal_seq, Pattern.matches_many_seq,
        matches_ending] at h
      obtain ⟨_, rfl, a, _, rfl, ha, _, rfl, b, rfl, rfl, rfl⟩ := h
      exact ⟨rfl, .otherwise ⟨a, ha⟩ b, rfl, Spelling.text_eq _, rfl⟩
    | test =>
      simp only [Form.pattern, Pattern.matches_literal_seq, Pattern.matches_many_seq,
        Pattern.matches_optional_group_literal_seq, Pattern.matches_group_oneOrMore_seq,
        matches_ending] at h
      obtain ⟨_, rfl, a, _, rfl, ha, alternate, _, _, rfl, rfl, _, rfl, negated, _, _, rfl, rfl, _,
        rfl, b, _, rfl, hb, tag, _, _, rfl, rfl, hne, hword, c, _, rfl, hc, d, rfl, rfl, rfl⟩ := h
      refine ⟨rfl, .test alternate (if negated then .notEmpty else .empty) ⟨a, ha⟩ ⟨b, hb⟩
        ⟨tag, Text.isName_iff.mpr ⟨hne, hword⟩⟩ ⟨c, hc⟩ d, rfl, ?_, ?_⟩
      · rw [Spelling.text_eq, Spelling.behind, testWord_append]
        cases negated <;> rfl
      · cases negated <;> simp [Spelling.groups]
  · rintro ⟨rfl, s, rfl, rfl, rfl⟩
    cases s with
    | closing a b c =>
      simp only [Spelling.form, Form.pattern, Pattern.matches_literal_seq,
        Pattern.matches_many_seq, matches_ending]
      exact ⟨_, Spelling.text_eq _, a, _, rfl, a.2, _, rfl, b, _, rfl, b.2, c, rfl, rfl, trivial⟩
    | otherwise a b =>
      simp only [Spelling.form, Form.pattern, Pattern.matches_literal_seq,
        Pattern.matches_many_seq, matches_ending]
      exact ⟨_, Spelling.text_eq _, a, _, rfl, a.2, _, rfl, b, rfl, rfl, trivial⟩
    | test alternate kind a b tag c d =>
      obtain ⟨hne, hword⟩ := Text.isName_iff.mp tag.2
      simp only [Spelling.form, Form.pattern, Pattern.matches_literal_seq, Pattern.matches_many_seq,
        Pattern.matches_optional_group_literal_seq, Pattern.matches_group_oneOrMore_seq,
        matches_ending]
      refine ⟨_, Spelling.text_eq _, a, _, rfl, a.2, alternate, _, _, ?_, ?_, _, rfl,
        decide (kind = .notEmpty), _, _, rfl, rfl, _, rfl, b, _, rfl, b.2, tag, _, [], rfl, rfl,
        hne, hword, c, _, rfl, c.2, d, rfl, rfl, trivial⟩
      · rw [Spelling.behind, testWord_append]
        cases kind <;> rfl
      · cases kind <;> simp [Spelling.groups]

lemma directive?_groups (s : Spelling) (taken rest : Text) :
    s.form.directive? ⟨taken, s.groups, rest⟩ = some s.directive := by
  cases s with
  | closing a b c => rfl
  | otherwise a b => rfl
  | test alternate kind a b tag c d => cases alternate <;> cases kind <;> rfl

/-- A form is read just where the line is spelled in it. -/
lemma Form.read?_eq_some_iff {form : Form} {line : Text} {d : Directive} :
    form.read? line = some d ↔
      ∃ s : Spelling, s.form = form ∧ s.text = line ∧ s.directive = d := by
  have hsound {w : Pattern.Way} (h : form.pattern.first? line = some w) :
      ∃ s : Spelling, s.form = form ∧ s.text = line ∧ form.directive? w = some s.directive := by
    obtain ⟨taken, groups, rest⟩ := w
    obtain ⟨rfl, hmatch⟩ := Pattern.matches_of_first? h
    obtain ⟨rfl, s, rfl, rfl, rfl⟩ := matches_pattern_iff.mp hmatch
    exact ⟨s, rfl, by simp, directive?_groups s _ _⟩
  rw [Form.read?, Option.bind_eq_some_iff]
  constructor
  · rintro ⟨w, hw, hd⟩
    obtain ⟨s, hform, htext, hs⟩ := hsound hw
    exact ⟨s, hform, htext, Option.some.inj (hs.symm.trans hd)⟩
  · rintro ⟨s, rfl, rfl, rfl⟩
    have hmatch : s.form.pattern.Matches s.text s.groups [] :=
      matches_pattern_iff.mpr ⟨rfl, s, rfl, rfl, rfl⟩
    have hfirst : s.form.pattern.first? s.text ≠ none := fun h =>
      Pattern.first?_eq_none_iff.mp h _ _ _ (List.append_nil _).symm hmatch
    obtain ⟨w, hw⟩ := Option.ne_none_iff_exists'.mp hfirst
    obtain ⟨s', -, htext, hs'⟩ := hsound hw
    rw [Spelling.text_injective htext] at hs'
    exact ⟨w, hw, hs'⟩

/-- A line has one spelling at most, and is read as the directive that it spells; any other line is
content. The patterns of the three forms may be tried in any order. -/
theorem directives_are_read_by_grammar :
    Function.Injective Spelling.text ∧
      (∀ line d, read? line = some d ↔ ∃ s : Spelling, s.text = line ∧ s.directive = d) ∧
      (∀ line, (∀ s : Spelling, s.text ≠ line) → Entry.read line = .content line) ∧
      ∀ forms : List Form, forms.Perm Form.all →
        ∀ line, forms.findSome? (·.read? line) = read? line := by
  refine ⟨Spelling.text_injective, fun line d => read?_eq_some_iff, fun line h => ?_,
    fun forms hforms line => ?_⟩
  · have hnone : read? line = none := by
      rw [Option.eq_none_iff_forall_ne_some]
      intro d hd
      obtain ⟨s, htext, -⟩ := read?_eq_some_iff.mp hd
      exact h s htext
    rw [Entry.read, hnone]
  · ext d
    rw [read?_eq_some_iff]
    constructor
    · intro h
      obtain ⟨form, -, hform⟩ := List.exists_of_findSome?_eq_some h
      obtain ⟨s, -, htext, hdirective⟩ := Form.read?_eq_some_iff.mp hform
      exact ⟨s, htext, hdirective⟩
    · rintro ⟨s, rfl, rfl⟩
      have hmem : s.form ∈ forms := hforms.mem_iff.mpr s.form.mem_all
      have hread : s.form.read? s.text = some s.directive :=
        Form.read?_eq_some_iff.mpr ⟨s, rfl, rfl, rfl⟩
      cases h : forms.findSome? (·.read? s.text) with
      | none =>
        rw [List.findSome?_eq_none_iff.mp h s.form hmem] at hread
        contradiction
      | some d =>
        obtain ⟨form, -, hform⟩ := List.exists_of_findSome?_eq_some h
        obtain ⟨s', -, htext, rfl⟩ := Form.read?_eq_some_iff.mp hform
        rw [Spelling.text_injective htext]

end LineTemplate.Directive
