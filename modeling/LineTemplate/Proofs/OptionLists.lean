import LineTemplate.Proofs.SubstitutedLine
import LineTemplate.Proofs.TagFiles
import LineTemplate.Proofs.Warnings
import Mathlib.Data.List.Forall2

/-!
# Lists of options

A list of options is cut into tokens at its colons, and white space around a token does not count.
The first token with a width that is not accepted makes the list fail, even if a later one would
replace its indentation. Otherwise the last token that sets the indentation counts, and a request to
drop the line counts wherever it stands. No other token means anything.
-/
namespace LineTemplate

namespace Text

/-- What is left of a piece without the white space around it. -/
def Trimmed (piece token : Text) : Prop :=
  ∃ front back : Text, piece = front ++ token ++ back ∧ Run isBlank front token ∧
    Run isBlank back.reverse token.reverse

lemma trimEnd_append {token back : Text} (h : Run isBlank back.reverse token.reverse) :
    trimEnd (token ++ back) = token := by
  rw [trimEnd, trimStart, List.reverse_append, h.dropWhile_eq, List.reverse_reverse]

theorem trim_eq_iff {piece token : Text} : trim piece = token ↔ Trimmed piece token := by
  constructor
  · rintro rfl
    have hstart : Run isBlank (indentation piece) (trimStart piece) := run_takeWhile isBlank piece
    have hend := run_takeWhile isBlank (trimStart piece).reverse
    have hback : trim piece ++ (indentation (trimStart piece).reverse).reverse =
        trimStart piece := by
      rw [trim, trimEnd, ← List.reverse_append, indentation_append_trimStart, List.reverse_reverse]
    refine ⟨indentation piece, (indentation (trimStart piece).reverse).reverse, ?_,
      ⟨hstart.all, fun c hc => ?_⟩, ?_⟩
    · rw [List.append_assoc, hback, indentation_append_trimStart]
    · refine hstart.stops c ?_
      rw [← hback, List.head?_append, hc, Option.some_or]
    · rw [List.reverse_reverse, trim, trimEnd, List.reverse_reverse]
      exact hend
  · rintro ⟨front, back, rfl, hfront, hback⟩
    cases token with
    | nil =>
      have hall : ∀ c ∈ front ++ [] ++ back, isBlank c = true := by
        intro c hc
        have hmem : c ∈ front ∨ c ∈ back.reverse := by simpa using hc
        exact hmem.elim (hfront.all c) (hback.all c)
      rw [trim, trimStart, List.dropWhile_eq_nil_iff.mpr hall]
      rfl
    | cons c token =>
      have hrun : Run isBlank front (c :: token ++ back) := ⟨hfront.all, hfront.stops⟩
      rw [trim, trimStart, List.append_assoc, hrun.dropWhile_eq, trimEnd_append hback]

end Text

namespace Options

def keepText : Text := "keepindent".toList

/-- The tokens of a list, which are its pieces between the colons without the white space around
them. -/
def Tokens (text : Text) (tokens : List Text) : Prop :=
  ∃ pieces : List Text, pieces ≠ [] ∧ (∀ piece ∈ pieces, ':' ∉ piece) ∧
    [':'].intercalate pieces = text ∧ List.Forall₂ Text.Trimmed pieces tokens

theorem pieces_eq_iff {text : Text} {tokens : List Text} :
    pieces text = tokens ↔ Tokens text tokens := by
  have hforall {ps : List Text} :
      List.Forall₂ Text.Trimmed ps tokens ↔ ps.map Text.trim = tokens := by
    have htrimmed : Text.Trimmed = fun piece token => Text.trim piece = token := by
      funext piece token
      exact propext Text.trim_eq_iff.symm
    rw [htrimmed, ← List.forall₂_map_left_iff (R := Eq), List.forall₂_eq_eq_eq]
  constructor
  · intro h
    obtain ⟨hne, hpieces, htext⟩ := Text.split_spec ':' text
    exact ⟨_, hne, hpieces, htext, hforall.mpr h⟩
  · rintro ⟨ps, hne, hpieces, htext, htokens⟩
    rw [pieces, Text.split_eq_iff.mpr ⟨hne, hpieces, htext⟩, hforall.mp htokens]

/-- A token that asks for an indentation by copies of a character, and how many it asks for. -/
inductive Asks : Text → Char → Text → Prop
  | spaces (width : Text) : Asks ("spaceindent=".toList ++ width) ' ' width
  | tabs (width : Text) : Asks ("tabindent=".toList ++ width) '\t' width

/-- The fault of a token that asks for a width which is no number, or for too many copies. -/
inductive Fails (line : Nat) (token : Text) : Fault → Prop
  | noNumber {unit : Char} {width : Text} {cause : NumeralFault} (asks : Asks token unit width)
    (bad : Numeral.read (Text.trim width) = .error cause) :
    Fails line token (.badWidth line token cause)
  | tooWide {unit : Char} {width : Text} {n : Nat} (asks : Asks token unit width)
    (number : Numeral.read (Text.trim width) = .ok n) (wide : maxIndent < n) :
    Fails line token (.indentTooWide line token)

/-- The indentation that a token sets on a line with the given one, and whether that is the
indentation of the line. -/
inductive Sets (lineIndent : Text) : Text → Text × Bool → Prop
  | copies {token : Text} {unit : Char} {width : Text} {n : Nat} (asks : Asks token unit width)
    (number : Numeral.read (Text.trim width) = .ok n) (narrow : n ≤ maxIndent) :
    Sets lineIndent token (List.replicate n unit, false)
  | keeps : Sets lineIndent keepText (lineIndent, true)

/-- Whether a token is about the indentation. -/
def concernsIndent (token : Text) : Bool :=
  "spaceindent=".toList.isPrefixOf token || "tabindent=".toList.isPrefixOf token ||
    token == keepText

lemma concernsIndent_iff {token : Text} :
    concernsIndent token = true ↔ (∃ unit width, Asks token unit width) ∨ token = keepText := by
  rw [concernsIndent, Bool.or_eq_true, Bool.or_eq_true, List.isPrefixOf_iff_prefix,
    List.isPrefixOf_iff_prefix, beq_iff_eq]
  refine or_congr_left ⟨fun h => ?_, fun h => ?_⟩
  · obtain ⟨width, rfl⟩ | ⟨width, rfl⟩ := h
    · exact ⟨_, _, .spaces width⟩
    · exact ⟨_, _, .tabs width⟩
  · obtain ⟨unit, width, hasks⟩ := h
    cases hasks with
    | spaces => exact .inl (List.prefix_append _ _)
    | tabs => exact .inr (List.prefix_append _ _)

lemma ofText_eq_indent_iff {token width : Text} {unit : Char} :
    OptionItem.ofText token = .indent unit width ↔ Asks token unit width := by
  constructor
  · intro h
    unfold OptionItem.ofText at h
    split at h
    · rename_i hspaces
      cases h
      rw [Text.strip?_eq_some_iff.mp hspaces]
      exact .spaces width
    · rename_i htabs
      cases h
      rw [Text.strip?_eq_some_iff.mp htabs]
      exact .tabs width
    · split_ifs at h
  · intro h
    cases h with
    | spaces => rw [OptionItem.ofText, Text.strip?_append]
    | tabs => rfl

lemma ofText_eq_keepIndent_iff {token : Text} :
    OptionItem.ofText token = .keepIndent ↔ token = keepText := by
  constructor
  · intro h
    unfold OptionItem.ofText at h
    split at h
    · contradiction
    · contradiction
    · split_ifs at h with hkeep
      exact hkeep
  · rintro rfl
    rfl

section Tokens

variable {lineIndent : Text} {line : Nat} {token : Text}

/-- What a token does: it fails, or it sets the indentation, or it is not about the indentation. -/
lemma token_cases (lineIndent : Text) (line : Nat) (token : Text) :
    (∃ fault, Fails line token fault) ∨ (∃ i, Sets lineIndent token i) ∨
      concernsIndent token = false := by
  cases hconcerns : concernsIndent token with
  | false => exact .inr (.inr rfl)
  | true =>
    obtain ⟨unit, width, hasks⟩ | rfl := concernsIndent_iff.mp hconcerns
    · cases hnumber : Numeral.read (Text.trim width) with
      | error cause => exact .inl ⟨_, .noNumber hasks hnumber⟩
      | ok n =>
        by_cases hn : n ≤ maxIndent
        · exact .inr (.inl ⟨_, .copies hasks hnumber hn⟩)
        · exact .inl ⟨_, .tooWide hasks hnumber (Nat.lt_of_not_le hn)⟩
    · exact .inr (.inl ⟨_, .keeps⟩)

lemma concernsIndent_of_fails {fault : Fault} (h : Fails line token fault) :
    concernsIndent token = true := by
  cases h with
  | noNumber asks => exact concernsIndent_iff.mpr (.inl ⟨_, _, asks⟩)
  | tooWide asks => exact concernsIndent_iff.mpr (.inl ⟨_, _, asks⟩)

lemma concernsIndent_of_sets {i : Text × Bool} (h : Sets lineIndent token i) :
    concernsIndent token = true := by
  cases h with
  | copies asks => exact concernsIndent_iff.mpr (.inl ⟨_, _, asks⟩)
  | keeps => exact concernsIndent_iff.mpr (.inr rfl)

lemma apply_of_fails {fault : Fault} (h : Fails line token fault) (options : Options) :
    apply lineIndent line options token = .error fault := by
  cases h with
  | noNumber asks bad => simp only [apply, ofText_eq_indent_iff.mpr asks, width, bad]
  | tooWide asks number wide =>
    simp only [apply, ofText_eq_indent_iff.mpr asks, width, number, if_neg (Nat.not_le.mpr wide)]

lemma apply_of_sets {i : Text × Bool} (h : Sets lineIndent token i) (options : Options) :
    apply lineIndent line options token =
      .ok { options with indent := i.1, keepsIndent := i.2 } := by
  cases h with
  | copies asks number narrow =>
    simp only [apply, ofText_eq_indent_iff.mpr asks, width, number, if_pos narrow]
  | keeps => rfl

lemma apply_of_other (h : concernsIndent token = false) (options : Options) :
    ∃ skips, apply lineIndent line options token = .ok { options with skipsEmpty := skips } := by
  unfold apply
  cases hitem : OptionItem.ofText token with
  | indent unit width =>
    rw [concernsIndent_iff.mpr (.inl ⟨_, _, ofText_eq_indent_iff.mp hitem⟩)] at h
    contradiction
  | keepIndent =>
    rw [concernsIndent_iff.mpr (.inr (ofText_eq_keepIndent_iff.mp hitem))] at h
    contradiction
  | skipEmpty => exact ⟨true, rfl⟩
  | unknown => exact ⟨options.skipsEmpty, rfl⟩

end Tokens

/-- The indentation of options, and whether it is that of the line. -/
def indentation (options : Options) : Text × Bool := (options.indent, options.keepsIndent)

/-- The indentation that a list of tokens leads to. -/
inductive Indents (lineIndent : Text) (tokens : List Text) : Text × Bool → Prop
  | last {i : Text × Bool} (last : LastOf (Sets lineIndent) tokens i) : Indents lineIndent tokens i
  | never (none : ∀ t ∈ tokens, ∀ i, ¬ Sets lineIndent t i) :
    Indents lineIndent tokens ([], false)

/-- What a list of tokens means on a line: the fault of the first token that fails, or else options
with the indentation that the last one sets. -/
inductive Means (lineIndent : Text) (line : Nat) (tokens : List Text) : Except Fault Options → Prop
  | fails {before behind : List Text} {token : Text} {fault : Fault}
    (split : tokens = before ++ token :: behind) (good : ∀ t ∈ before, ∀ f, ¬ Fails line t f)
    (first : Fails line token fault) : Means lineIndent line tokens (.error fault)
  | succeeds {indent : Text} {keeps : Bool} (good : ∀ t ∈ tokens, ∀ f, ¬ Fails line t f)
    (indents : Indents lineIndent tokens (indent, keeps)) :
    Means lineIndent line tokens (.ok ⟨indent, keeps, tokens.contains skipText⟩)

section Lists

variable {lineIndent : Text} {line : Nat} {tokens : List Text}

lemma ofPieces_append (options : Options) (before behind : List Text) :
    ofPieces lineIndent line options (before ++ behind) =
      (ofPieces lineIndent line options before).bind (ofPieces lineIndent line · behind) := by
  induction before generalizing options with
  | nil => rfl
  | cons token before ih =>
    rw [List.cons_append, ofPieces, ofPieces]
    cases apply lineIndent line options token with
    | error fault => rfl
    | ok next => exact ih next

/-- Tokens that do not fail lead to options. -/
lemma ofPieces_of_good (good : ∀ t ∈ tokens, ∀ f, ¬ Fails line t f) (options : Options) :
    ∃ last, ofPieces lineIndent line options tokens = .ok last := by
  induction tokens generalizing options with
  | nil => exact ⟨options, rfl⟩
  | cons token tokens ih =>
    obtain ⟨htoken, htokens⟩ := List.forall_mem_cons.mp good
    obtain ⟨fault, hfails⟩ | ⟨i, hsets⟩ | hother := token_cases lineIndent line token
    · exact absurd hfails (htoken fault)
    · rw [ofPieces, apply_of_sets hsets]
      exact ih htokens _
    · obtain ⟨skips, happly⟩ := apply_of_other hother options
      rw [ofPieces, happly]
      exact ih htokens _

/-- Only the tokens about the indentation decide on it, and on the fault. -/
theorem map_indentation_ofPieces {options options' : Options}
    (h : options.indentation = options'.indentation) :
    (ofPieces lineIndent line options tokens).map indentation =
      (ofPieces lineIndent line options' (tokens.filter concernsIndent)).map indentation := by
  -- Both lists go on with the same indentation, though perhaps not with the same options.
  induction tokens generalizing options options' with
  | nil => exact congrArg Except.ok h
  | cons token tokens ih =>
    obtain ⟨fault, hfails⟩ | ⟨i, hsets⟩ | hother := token_cases lineIndent line token
    · rw [List.filter_cons_of_pos (concernsIndent_of_fails hfails), ofPieces, ofPieces,
        apply_of_fails hfails, apply_of_fails hfails]
    · rw [List.filter_cons_of_pos (concernsIndent_of_sets hsets), ofPieces, ofPieces,
        apply_of_sets hsets, apply_of_sets hsets]
      exact ih rfl
    · obtain ⟨skips, happly⟩ := apply_of_other hother options
      rw [List.filter_cons_of_neg (by simp [hother]), ofPieces, happly]
      exact ih h

lemma map_indentation_of_quiet (good : ∀ t ∈ tokens, ∀ f, ¬ Fails line t f)
    (quiet : ∀ t ∈ tokens, ∀ i, ¬ Sets lineIndent t i) (options : Options) :
    (ofPieces lineIndent line options tokens).map indentation = .ok options.indentation := by
  have hnone : tokens.filter concernsIndent = [] := by
    refine List.filter_eq_nil_iff.mpr fun token htoken hconcerns => ?_
    obtain ⟨fault, hfails⟩ | ⟨i, hsets⟩ | hother := token_cases lineIndent line token
    · exact good token htoken fault hfails
    · exact quiet token htoken i hsets
    · rw [hother] at hconcerns
      contradiction
  rw [map_indentation_ofPieces rfl, hnone]
  rfl

lemma Indents.map_indentation {i : Text × Bool} (h : Indents lineIndent tokens i)
    (good : ∀ t ∈ tokens, ∀ f, ¬ Fails line t f) :
    (ofPieces lineIndent line plain tokens).map indentation = .ok i := by
  cases h with
  | last last =>
    obtain ⟨before, token, behind, rfl, hsets, hlater⟩ := last
    obtain ⟨hbefore, hrest⟩ := List.forall_mem_append.mp good
    obtain ⟨-, hbehind⟩ := List.forall_mem_cons.mp hrest
    obtain ⟨options, hoptions⟩ := ofPieces_of_good hbefore plain
    have hcons : ofPieces lineIndent line options (token :: behind) =
        ofPieces lineIndent line { options with indent := i.1, keepsIndent := i.2 } behind := by
      rw [ofPieces, apply_of_sets hsets]
    -- Whatever was set before is replaced here, and nothing replaces it behind.
    rw [ofPieces_append, hoptions, Except.bind, hcons, map_indentation_of_quiet hbehind hlater]
    rfl
  | never none => exact map_indentation_of_quiet good none plain

/-- A list of tokens is read as what it means. -/
theorem Means.ofPieces_eq {result : Except Fault Options}
    (h : Means lineIndent line tokens result) :
    ofPieces lineIndent line plain tokens = result := by
  cases h with
  | @fails before behind token fault split good first =>
    obtain ⟨options, hoptions⟩ := ofPieces_of_good good plain
    rw [split, ofPieces_append, hoptions, Except.bind, ofPieces, apply_of_fails first]
  | @succeeds indent keeps good indents =>
    obtain ⟨options, hoptions⟩ := ofPieces_of_good good plain
    have hindents := indents.map_indentation good
    have hskips : options.skipsEmpty = tokens.contains skipText := skipsEmpty_of_ofPieces hoptions
    rw [hoptions] at hindents ⊢
    obtain ⟨hindent, hkeeps⟩ := Prod.mk.inj (Except.ok.inj hindents)
    rw [← hindent, ← hkeeps, ← hskips]

lemma exists_indents (lineIndent : Text) (tokens : List Text) :
    ∃ i, Indents lineIndent tokens i := by
  by_cases hsome : ∃ t ∈ tokens, ∃ i, Sets lineIndent t i
  · obtain ⟨t, ht, i, hsets⟩ := hsome
    obtain ⟨i, hlast⟩ := exists_lastOf ht hsets
    exact ⟨i, .last hlast⟩
  · exact ⟨_, .never fun t ht i hsets => hsome ⟨t, ht, i, hsets⟩⟩

/-- Every list of tokens has a meaning: some token is the first to fail, or none fails. -/
lemma exists_means (lineIndent : Text) (line : Nat) (tokens : List Text) :
    ∃ result, Means lineIndent line tokens result := by
  obtain hnone | ⟨before, token, behind, hsplit, hbefore, fault, hfails⟩ :=
    exists_first (fun t => ∃ f, Fails line t f) tokens
  · obtain ⟨i, hindents⟩ := exists_indents lineIndent tokens
    exact ⟨_, .succeeds (fun t ht f h => hnone t ht ⟨f, h⟩) hindents⟩
  · exact ⟨_, .fails hsplit (fun t ht f h => hbefore t ht ⟨f, h⟩) hfails⟩

theorem means_iff {result : Except Fault Options} :
    Means lineIndent line tokens result ↔ ofPieces lineIndent line plain tokens = result := by
  refine ⟨Means.ofPieces_eq, ?_⟩
  intro h
  obtain ⟨result', hmeans⟩ := exists_means lineIndent line tokens
  rwa [← h, hmeans.ofPieces_eq]

/-- An indentation that is not that of the line consists of blanks or of tabs, and of not too many
of them. -/
lemma Indents.bounded {i : Text × Bool} (h : Indents lineIndent tokens i) :
    (i.2 = true → i.1 = lineIndent) ∧
      (i.2 = false → ∃ unit n, (unit = ' ' ∨ unit = '\t') ∧ n ≤ maxIndent ∧
        i.1 = List.replicate n unit) := by
  cases h with
  | last last =>
    obtain ⟨_, token, _, _, hsets, _⟩ := last
    cases hsets with
    | @copies _ unit width n asks number narrow =>
      refine ⟨nofun, fun _ => ⟨unit, n, ?_, narrow, rfl⟩⟩
      cases asks with
      | spaces => exact .inl rfl
      | tabs => exact .inr rfl
    | keeps => exact ⟨fun _ => rfl, nofun⟩
  | never => exact ⟨nofun, fun _ => ⟨' ', 0, .inl rfl, Nat.zero_le _, rfl⟩⟩

end Lists

/-- A list of options fails with the fault of its first token that fails. Otherwise the indentation
is that of the last token that sets one, and the line may be dropped if some token says so. Whatever
other tokens there are, and wherever they stand, the fault and the indentation are the same; and an
indentation that is not that of the line is bounded. -/
theorem option_lists_are_last_wins (text source : Text) (line : Nat) :
    (∀ result, read text source line = result ↔
        ∃ tokens, Tokens text tokens ∧ Means (Text.indentation source) line tokens result) ∧
      (∃ rest, source = Text.indentation source ++ rest ∧
        Text.Run Text.isBlank (Text.indentation source) rest) ∧
      (∀ text' tokens tokens', Tokens text tokens → Tokens text' tokens' →
        tokens.filter concernsIndent = tokens'.filter concernsIndent →
          (read text source line).map indentation = (read text' source line).map indentation) ∧
      ∀ options, read text source line = .ok options →
        (options.keepsIndent = true → options.indent = Text.indentation source) ∧
        (options.keepsIndent = false → ∃ unit n, (unit = ' ' ∨ unit = '\t') ∧ n ≤ maxIndent ∧
          options.indent = List.replicate n unit) := by
  refine ⟨fun result => ?_, ?_, fun text' tokens tokens' h h' hfilter => ?_, fun options h => ?_⟩
  · constructor
    · intro h
      exact ⟨pieces text, pieces_eq_iff.mp rfl, means_iff.mpr h⟩
    · rintro ⟨tokens, htokens, hmeans⟩
      rw [← pieces_eq_iff.mpr htokens] at hmeans
      exact hmeans.ofPieces_eq
  · exact ⟨Text.trimStart source, (Text.indentation_append_trimStart source).symm,
      Text.run_takeWhile Text.isBlank source⟩
  · rw [read, read, readIndented, readIndented, pieces_eq_iff.mpr h, pieces_eq_iff.mpr h',
      map_indentation_ofPieces rfl, hfilter, ← map_indentation_ofPieces rfl]
  · cases means_iff.mpr h with
    | succeeds good indents => exact indents.bounded

-- A width that is too large is a fault, although the indentation is replaced behind it.
example : read "x: tabindent=1025 :keepindent".toList "\t%%".toList 7 =
    .error (.indentTooWide 7 "tabindent=1025".toList) := by
  decide +kernel

end Options

end LineTemplate
