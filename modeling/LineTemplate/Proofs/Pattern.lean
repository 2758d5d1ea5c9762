import LineTemplate.Text
import Mathlib.Data.List.TakeWhile
import Mathlib.Tactic.Common

/-!
# Patterns

A pattern describes texts by the usual constructs of regular expressions. It can match the start of
a text in several ways, which are listed here in the order in which a backtracking matcher comes to
them; the first one counts. What a pattern matches at all can be told without this order, and where
the next part of a pattern rules out all ways but the longest one there is nothing to go back for.
-/
namespace LineTemplate

/-- A pattern of a text. -/
inductive Pattern where
  | literal (text : Text)
  | one (kind : Char → Bool)
  /-- Characters of a kind, as many as possible. -/
  | many (kind : Char → Bool)
  /-- Characters of a kind, as few as possible. -/
  | few (kind : Char → Bool)
  | seq (first second : Pattern)
  /-- A pattern, or else nothing. -/
  | optional (pattern : Pattern)
  | group (number : Nat) (pattern : Pattern)
  | atEnd

namespace Pattern

/-- A way to match the start of a text: what is taken of it, the texts that are kept, and what
follows. -/
structure Way where
  taken : Text
  groups : List (Nat × Text)
  rest : Text
  deriving DecidableEq, Repr

namespace Way

def nothing (text : Text) : Way := ⟨[], [], text⟩

def cons (c : Char) (w : Way) : Way := { w with taken := c :: w.taken }

def andThen (w v : Way) : Way := ⟨w.taken ++ v.taken, w.groups ++ v.groups, v.rest⟩

def keep (number : Nat) (w : Way) : Way := { w with groups := (number, w.taken) :: w.groups }

def group? (w : Way) (number : Nat) : Option Text := w.groups.lookup number

@[simp] theorem nothing_andThen (text : Text) (w : Way) : (nothing text).andThen w = w := rfl

lemma eq_nothing_iff {w : Way} {text : Text} :
    w = nothing text ↔ text = w.taken ++ w.rest ∧ w.taken = [] ∧ w.groups = [] := by
  obtain ⟨taken, groups, rest⟩ := w
  rw [nothing, Way.mk.injEq]
  constructor
  · rintro ⟨rfl, rfl, rfl⟩
    exact ⟨rfl, rfl, rfl⟩
  · rintro ⟨rfl, rfl, rfl⟩
    exact ⟨rfl, rfl, rfl⟩

theorem andThen_assoc (u v w : Way) : (u.andThen v).andThen w = u.andThen (v.andThen w) := by
  simp [andThen]

end Way

/-- The ways to take characters of a kind, the longest one first. -/
def longestFirst (kind : Char → Bool) : Text → List Way
  | [] => [.nothing []]
  | c :: text =>
    if kind c then (longestFirst kind text).map (.cons c) ++ [.nothing (c :: text)]
    else [.nothing (c :: text)]

/-- All ways to match the start of a text, in the order in which they are tried. -/
def ways : Pattern → Text → List Way
  | literal start, text =>
    match Text.strip? start text with
    | none => []
    | some rest => [⟨start, [], rest⟩]
  | one _, [] => []
  | one kind, c :: text => if kind c then [⟨[c], [], text⟩] else []
  | many kind, text => longestFirst kind text
  | few kind, text => (longestFirst kind text).reverse
  | seq first second, text =>
    (first.ways text).flatMap fun w => (second.ways w.rest).map w.andThen
  | optional pattern, text => pattern.ways text ++ [.nothing text]
  | group number pattern, text => (pattern.ways text).map (.keep number)
  | atEnd, [] => [.nothing []]
  | atEnd, _ :: _ => []

/-- The way in which a pattern matches the start of a text, if it does. -/
def first? (pattern : Pattern) (text : Text) : Option Way := (pattern.ways text).head?

def oneOrMore (kind : Char → Bool) : Pattern := seq (one kind) (many kind)

/-- A pattern matches a text that stands in front of a rest, and keeps some texts: the same as
`ways`, but without an order. -/
def Matches : Pattern → Text → List (Nat × Text) → Text → Prop
  | literal text, taken, groups, _ => taken = text ∧ groups = []
  | one kind, taken, groups, _ => (∃ c, kind c = true ∧ taken = [c]) ∧ groups = []
  | many kind, taken, groups, _ => (∀ c ∈ taken, kind c = true) ∧ groups = []
  | few kind, taken, groups, _ => (∀ c ∈ taken, kind c = true) ∧ groups = []
  | seq first second, taken, groups, rest =>
    ∃ a b g h, taken = a ++ b ∧ groups = g ++ h ∧ first.Matches a g (b ++ rest) ∧
      second.Matches b h rest
  | optional pattern, taken, groups, rest =>
    pattern.Matches taken groups rest ∨ taken = [] ∧ groups = []
  | group number pattern, taken, groups, rest =>
    ∃ g, groups = (number, taken) :: g ∧ pattern.Matches taken g rest
  | atEnd, taken, groups, rest => taken = [] ∧ groups = [] ∧ rest = []

lemma mem_longestFirst_iff {kind : Char → Bool} {text : Text} {w : Way} :
    w ∈ longestFirst kind text ↔
      text = w.taken ++ w.rest ∧ (∀ c ∈ w.taken, kind c = true) ∧ w.groups = [] := by
  induction text generalizing w with
  | nil =>
    rw [longestFirst, List.mem_singleton, Way.eq_nothing_iff]
    constructor
    · rintro ⟨htext, htaken, hgroups⟩
      exact ⟨htext, by simp [htaken], hgroups⟩
    · rintro ⟨htext, -, hgroups⟩
      exact ⟨htext, (List.append_eq_nil_iff.mp htext.symm).1, hgroups⟩
  | cons c text ih =>
    obtain ⟨taken, groups, rest⟩ := w
    rw [longestFirst]
    split_ifs with hc
    · rw [List.mem_append, List.mem_map, List.mem_singleton, Way.eq_nothing_iff]
      constructor
      · rintro (⟨v, hv, hw⟩ | ⟨htext, rfl, hgroups⟩)
        · obtain ⟨rfl, rfl, rfl⟩ := Way.mk.inj hw
          obtain ⟨rfl, htaken, hgroups⟩ := ih.mp hv
          exact ⟨rfl, by simpa [hc] using htaken, hgroups⟩
        · exact ⟨htext, by simp, hgroups⟩
      · rintro ⟨htext, htaken, hgroups⟩
        cases taken with
        | nil => exact .inr ⟨htext, rfl, hgroups⟩
        | cons d taken =>
          obtain ⟨rfl, htext⟩ := List.cons.inj htext
          refine .inl ⟨⟨taken, groups, rest⟩, ih.mpr ⟨htext, ?_, hgroups⟩, rfl⟩
          exact fun c h => htaken c (List.mem_cons_of_mem _ h)
    · rw [List.mem_singleton, Way.eq_nothing_iff]
      constructor
      · rintro ⟨htext, rfl, hgroups⟩
        exact ⟨htext, by simp, hgroups⟩
      · rintro ⟨htext, htaken, hgroups⟩
        cases taken with
        | nil => exact ⟨htext, rfl, hgroups⟩
        | cons d taken =>
          obtain ⟨rfl, -⟩ := List.cons.inj htext
          exact absurd (htaken c List.mem_cons_self) hc

/-- The ways of a pattern are just its matches. -/
theorem mem_ways_iff {pattern : Pattern} {text : Text} {w : Way} :
    w ∈ pattern.ways text ↔
      text = w.taken ++ w.rest ∧ pattern.Matches w.taken w.groups w.rest := by
  induction pattern generalizing text w with
  | literal start =>
    obtain ⟨taken, groups, rest⟩ := w
    rw [ways, Matches]
    cases h : Text.strip? start text with
    | none =>
      rw [Text.strip?_eq_none_iff] at h
      refine iff_of_false List.not_mem_nil ?_
      rintro ⟨htext, rfl, -⟩
      exact h rest htext
    | some behind =>
      obtain rfl := Text.strip?_eq_some_iff.mp h
      rw [List.mem_singleton, Way.mk.injEq]
      constructor
      · rintro ⟨rfl, rfl, rfl⟩
        exact ⟨rfl, rfl, rfl⟩
      · rintro ⟨htext, rfl, rfl⟩
        exact ⟨rfl, rfl, (List.append_cancel_left htext).symm⟩
  | one kind =>
    obtain ⟨taken, groups, rest⟩ := w
    rw [Matches]
    cases text with
    | nil =>
      refine iff_of_false List.not_mem_nil ?_
      rintro ⟨htext, ⟨c, -, rfl⟩, -⟩
      contradiction
    | cons c text =>
      rw [ways]
      split_ifs with hc
      · rw [List.mem_singleton, Way.mk.injEq]
        constructor
        · rintro ⟨rfl, rfl, rfl⟩
          exact ⟨rfl, ⟨c, hc, rfl⟩, rfl⟩
        · rintro ⟨htext, ⟨d, -, rfl⟩, rfl⟩
          obtain ⟨rfl, rfl⟩ := List.cons.inj htext
          exact ⟨rfl, rfl, rfl⟩
      · refine iff_of_false List.not_mem_nil ?_
        rintro ⟨htext, ⟨d, hd, rfl⟩, -⟩
        obtain ⟨rfl, -⟩ := List.cons.inj htext
        exact hc hd
  | many kind => exact mem_longestFirst_iff
  | few kind =>
    rw [ways, List.mem_reverse]
    exact mem_longestFirst_iff
  | seq first second ihf ihs =>
    simp only [ways, List.mem_flatMap, List.mem_map, Matches]
    constructor
    · rintro ⟨u, hu, v, hv, rfl⟩
      obtain ⟨rfl, hfirst⟩ := ihf.mp hu
      obtain ⟨hrest, hsecond⟩ := ihs.mp hv
      rw [hrest] at hfirst
      exact ⟨by simp [Way.andThen, hrest], _, _, _, _, rfl, rfl, hfirst, hsecond⟩
    · rintro ⟨rfl, a, b, g, h, htaken, hgroups, hfirst, hsecond⟩
      refine ⟨⟨a, g, b ++ w.rest⟩, ihf.mpr ⟨?_, hfirst⟩, ⟨b, h, w.rest⟩, ihs.mpr ⟨rfl, hsecond⟩, ?_⟩
      · rw [htaken, List.append_assoc]
      · rw [Way.andThen, ← htaken, ← hgroups]
  | optional pattern ih =>
    rw [ways, List.mem_append, List.mem_singleton, ih, Way.eq_nothing_iff, Matches]
    tauto
  | group number pattern ih =>
    simp only [ways, List.mem_map, Matches]
    constructor
    · rintro ⟨v, hv, rfl⟩
      obtain ⟨rfl, hmatch⟩ := ih.mp hv
      exact ⟨rfl, v.groups, rfl, hmatch⟩
    · rintro ⟨rfl, g, hgroups, hmatch⟩
      refine ⟨⟨w.taken, g, w.rest⟩, ih.mpr ⟨rfl, hmatch⟩, ?_⟩
      rw [Way.keep, ← hgroups]
  | atEnd =>
    obtain ⟨taken, groups, rest⟩ := w
    cases text with
    | nil =>
      rw [ways, List.mem_singleton, Way.eq_nothing_iff, Matches]
      constructor
      · rintro ⟨htext, rfl, hgroups⟩
        exact ⟨htext, rfl, hgroups, htext.symm⟩
      · rintro ⟨htext, htaken, hgroups, -⟩
        exact ⟨htext, htaken, hgroups⟩
    | cons c text =>
      refine iff_of_false List.not_mem_nil ?_
      rintro ⟨htext, rfl, -, rfl⟩
      contradiction

/-- A pattern that matches the start of a text in the way that counts matches it at all. -/
lemma matches_of_first? {pattern : Pattern} {text : Text} {w : Way}
    (h : pattern.first? text = some w) :
    text = w.taken ++ w.rest ∧ pattern.Matches w.taken w.groups w.rest :=
  mem_ways_iff.mp (List.mem_of_mem_head? h)

lemma first?_eq_none_iff {pattern : Pattern} {text : Text} :
    pattern.first? text = none ↔
      ∀ taken groups rest, text = taken ++ rest → ¬ pattern.Matches taken groups rest := by
  rw [first?, List.head?_eq_none_iff, List.eq_nil_iff_forall_not_mem]
  constructor
  · rintro h taken groups rest rfl hmatch
    exact h ⟨taken, groups, rest⟩ (mem_ways_iff.mpr ⟨rfl, hmatch⟩)
  · intro h w hw
    obtain ⟨htext, hmatch⟩ := mem_ways_iff.mp hw
    exact h _ _ _ htext hmatch

lemma matches_literal_seq {start : Text} {second : Pattern} {taken rest : Text}
    {groups : List (Nat × Text)} :
    ((literal start).seq second).Matches taken groups rest ↔
      ∃ behind, taken = start ++ behind ∧ second.Matches behind groups rest := by
  constructor
  · rintro ⟨_, behind, _, _, rfl, rfl, ⟨rfl, rfl⟩, hbehind⟩
    exact ⟨behind, rfl, hbehind⟩
  · rintro ⟨behind, rfl, hbehind⟩
    exact ⟨start, behind, [], groups, rfl, rfl, ⟨rfl, rfl⟩, hbehind⟩

lemma matches_many_seq {kind : Char → Bool} {second : Pattern} {taken rest : Text}
    {groups : List (Nat × Text)} :
    ((many kind).seq second).Matches taken groups rest ↔
      ∃ run behind, taken = run ++ behind ∧ (∀ c ∈ run, kind c = true) ∧
        second.Matches behind groups rest := by
  constructor
  · rintro ⟨run, behind, _, _, rfl, rfl, ⟨hrun, rfl⟩, hbehind⟩
    exact ⟨run, behind, rfl, hrun, hbehind⟩
  · rintro ⟨run, behind, rfl, hrun, hbehind⟩
    exact ⟨run, behind, [], groups, rfl, rfl, ⟨hrun, rfl⟩, hbehind⟩

/-- A text that may be there is kept if it is. -/
lemma matches_optional_group_literal_seq {number : Nat} {start : Text} {second : Pattern}
    {taken rest : Text} {groups : List (Nat × Text)} :
    ((group number (literal start)).optional.seq second).Matches taken groups rest ↔
      ∃ (present : Bool) (behind : Text) (kept : List (Nat × Text)),
        taken = (if present then start else []) ++ behind ∧
        groups = (if present then [(number, start)] else []) ++ kept ∧
        second.Matches behind kept rest := by
  constructor
  · rintro ⟨_, behind, _, kept, rfl, rfl, ⟨_, rfl, rfl, rfl⟩ | ⟨rfl, rfl⟩, hbehind⟩
    · exact ⟨true, behind, kept, rfl, rfl, hbehind⟩
    · exact ⟨false, behind, kept, rfl, rfl, hbehind⟩
  · rintro ⟨present, behind, kept, rfl, rfl, hbehind⟩
    refine ⟨_, behind, _, kept, rfl, rfl, ?_, hbehind⟩
    cases present with
    | true => exact .inl ⟨[], rfl, rfl, rfl⟩
    | false => exact .inr ⟨rfl, rfl⟩

lemma matches_group_oneOrMore_seq {number : Nat} {kind : Char → Bool} {second : Pattern}
    {taken rest : Text} {groups : List (Nat × Text)} :
    ((group number (oneOrMore kind)).seq second).Matches taken groups rest ↔
      ∃ run behind kept, taken = run ++ behind ∧ groups = (number, run) :: kept ∧ run ≠ [] ∧
        (∀ c ∈ run, kind c = true) ∧ second.Matches behind kept rest := by
  constructor
  · rintro ⟨_, behind, _, kept, rfl, rfl,
      ⟨_, rfl, _, more, _, _, rfl, rfl, ⟨⟨c, hc, rfl⟩, rfl⟩, hmore, rfl⟩, hbehind⟩
    exact ⟨c :: more, behind, kept, rfl, rfl, List.cons_ne_nil c more,
      List.forall_mem_cons.mpr ⟨hc, hmore⟩, hbehind⟩
  · rintro ⟨run, behind, kept, rfl, rfl, hne, hrun, hbehind⟩
    obtain ⟨c, more, rfl⟩ := List.exists_cons_of_ne_nil hne
    obtain ⟨hc, hmore⟩ := List.forall_mem_cons.mp hrun
    exact ⟨c :: more, behind, [(number, c :: more)], kept, rfl, rfl,
      ⟨[], rfl, [c], more, [], [], rfl, rfl, ⟨⟨c, hc, rfl⟩, rfl⟩, hmore, rfl⟩, hbehind⟩

/-- Where some part comes first, its ways are gone through until one leaves a rest that the next
part matches. -/
theorem first?_seq (first second : Pattern) (text : Text) :
    (seq first second).first? text =
      (first.ways text).findSome? fun w => (second.first? w.rest).map w.andThen := by
  simp only [first?, ways, List.head?_flatMap, List.head?_map]

theorem ways_seq_assoc (a b c : Pattern) (text : Text) :
    ((a.seq b).seq c).ways text = (a.seq (b.seq c)).ways text := by
  have hassoc (u v : Way) : (u.andThen v).andThen = u.andThen ∘ v.andThen :=
    funext (Way.andThen_assoc u v)
  simp only [ways, List.flatMap_assoc, List.map_flatMap, List.flatMap_map, List.map_map, hassoc]
  rfl

theorem first?_literal_seq (start : Text) (second : Pattern) (text : Text) :
    ((literal start).seq second).first? text =
      (Text.strip? start text).bind fun rest =>
        (second.first? rest).map (Way.andThen ⟨start, [], rest⟩) := by
  rw [first?_seq, ways]
  cases Text.strip? start text with
  | none => rfl
  | some rest => simp

theorem first?_optional_seq (pattern second : Pattern) (text : Text) :
    (pattern.optional.seq second).first? text =
      ((pattern.seq second).first? text).or (second.first? text) := by
  have hnothing : (Way.nothing text).andThen = id := funext (Way.nothing_andThen text)
  rw [first?_seq, first?_seq, ways, List.findSome?_append, List.findSome?_singleton, hnothing,
    Option.map_id_fun, id, Way.nothing]

/-- If the next part cannot begin with a character of the kind, then only the longest way counts. -/
lemma findSome?_longestFirst {α : Type} {kind : Char → Bool} {f : Way → Option α}
    (h : ∀ (w : Way) (c : Char) (rest : Text), w.rest = c :: rest → kind c = true → f w = none)
    (text : Text) :
    (longestFirst kind text).findSome? f = f ⟨text.takeWhile kind, [], text.dropWhile kind⟩ := by
  induction text generalizing f with
  | nil => simp [longestFirst, Way.nothing]
  | cons c text ih =>
    rw [longestFirst]
    split_ifs with hc
    · have hrest := ih (f := f ∘ Way.cons c) fun w d rest hw => h (w.cons c) d rest hw
      rw [List.findSome?_append, List.findSome?_map, hrest, List.takeWhile_cons_of_pos hc,
        List.dropWhile_cons_of_pos hc, List.findSome?_cons, h (.nothing (c :: text)) c text rfl hc]
      simp [Way.cons]
    · rw [List.takeWhile_cons_of_neg hc, List.dropWhile_cons_of_neg hc]
      simp [Way.nothing]

/-- The longest way comes first. -/
lemma findSome?_longestFirst_of_eq_some {α : Type} {kind : Char → Bool} {f : Way → Option α} {a : α}
    {text : Text} (h : f ⟨text.takeWhile kind, [], text.dropWhile kind⟩ = some a) :
    (longestFirst kind text).findSome? f = some a := by
  induction text generalizing f with
  | nil => simpa [longestFirst, Way.nothing] using h
  | cons c text ih =>
    rw [longestFirst]
    split_ifs with hc
    · rw [List.takeWhile_cons_of_pos hc, List.dropWhile_cons_of_pos hc] at h
      have hrest := ih (f := f ∘ Way.cons c) h
      rw [List.findSome?_append, List.findSome?_map, hrest, Option.some_or]
    · rw [List.takeWhile_cons_of_neg hc, List.dropWhile_cons_of_neg hc] at h
      simpa [Way.nothing] using h

/-- There is nothing to go back for behind characters of a kind that the next part cannot begin
with. -/
theorem first?_many_seq {kind : Char → Bool} {second : Pattern}
    (h : ∀ c text, kind c = true → second.first? (c :: text) = none) (text : Text) :
    ((many kind).seq second).first? text =
      (second.first? (text.dropWhile kind)).map
        (Way.andThen ⟨text.takeWhile kind, [], text.dropWhile kind⟩) := by
  rw [first?_seq, ways, findSome?_longestFirst]
  intro w c rest hw hc
  rw [hw, h c rest hc, Option.map_none]

/-- The same of one or more characters that are kept. -/
theorem first?_group_oneOrMore_seq {kind : Char → Bool} {second : Pattern}
    (h : ∀ c text, kind c = true → second.first? (c :: text) = none) (number : Nat) (text : Text) :
    ((group number (oneOrMore kind)).seq second).first? text =
      if text.takeWhile kind = [] then none
      else (second.first? (text.dropWhile kind)).map
        (Way.andThen ⟨text.takeWhile kind, [(number, text.takeWhile kind)],
          text.dropWhile kind⟩) := by
  cases text with
  | nil => rfl
  | cons c text =>
    by_cases hc : kind c = true
    · rw [first?_seq, ways, oneOrMore, ways, ways, if_pos hc, List.flatMap_singleton, ways,
        List.findSome?_map, List.findSome?_map, findSome?_longestFirst]
      · simp [hc, Way.keep, Way.andThen]
      · intro w d rest hw hd
        simp [Way.keep, Way.andThen, hw, h d rest hd]
    · rw [List.takeWhile_cons_of_neg hc, if_pos rfl, first?_seq, ways, oneOrMore, ways, ways,
        if_neg hc]
      rfl

/-- A match inside of a text: where it begins and where it ends, and the texts that are kept. -/
structure Match where
  start : Nat
  stop : Nat
  groups : List (Nat × Text)
  deriving DecidableEq, Repr

/-- The matches of a pattern in a text that begins at some place. Each of them is sought from the
end of the one before on, and begins at the first place where there is one. Matches that take
nothing are left out. -/
def search (pattern : Pattern) (start : Nat) : Text → List Match
  | [] => []
  | c :: text =>
    match pattern.first? (c :: text) with
    | none => pattern.search (start + 1) text
    | some w =>
      if w.rest.length < (c :: text).length then
        ⟨start, start + w.taken.length, w.groups⟩ ::
          pattern.search (start + w.taken.length) w.rest
      else pattern.search (start + 1) text
termination_by text => text.length
decreasing_by
  · exact Nat.lt_succ_self _
  · assumption
  · exact Nat.lt_succ_self _

end Pattern

end LineTemplate
