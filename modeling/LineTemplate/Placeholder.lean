import LineTemplate.Text.Blank

/-!
# Placeholders

`%%NAME%%` stands for the value of a tag, and `%%NAME:OPTIONS%%` says besides how the value is
inserted. White space may follow the name and the colon. The options run up to the first marker
behind their first character, and hold no line feed; if there is no such marker, the last white
space behind the colon may itself be the options.

A line is read from left to right. `cut` divides it into its placeholders, the literal text in
front of each of them, and the literal text behind the last.
-/
namespace LineTemplate

/-- A reference to a tag, with the options as they are written. -/
structure Placeholder where
  tag : Text
  options : Option Text
  deriving DecidableEq, Repr

namespace Placeholder

def marker : Text := ['%', '%']

/-- A placeholder found at the start of a text: its spelling, and the text that follows. -/
structure Found where
  placeholder : Placeholder
  source : Text
  rest : Text
  deriving DecidableEq, Repr

/-- Collects characters up to a marker, `taken` being those already passed, last first. A line
feed ends the search. -/
def closeFrom (taken : Text) : Text → Option (Text × Text)
  | [] => none
  | '%' :: '%' :: rest => some (taken.reverse, rest)
  | c :: rest => if c = '\n' then none else closeFrom (c :: taken) rest

/-- The text up to the first marker behind the first character, and what follows the marker. -/
def close? : Text → Option (Text × Text)
  | [] => none
  | c :: rest => if c = '\n' then none else closeFrom [c] rest

/-- Reads behind the colon of a placeholder: the white space that is passed over, the options,
and the text behind the closing marker. -/
def readOptions? (text : Text) : Option (Text × Text × Text) :=
  let lead := Text.indentation text
  let body := Text.trimStart text
  match close? body with
  | some (options, rest) => some (lead, options, rest)
  | none =>
    match Text.strip? marker body, lead.getLast? with
    | some rest, some last => if last = '\n' then none else some (lead.dropLast, [last], rest)
    | _, _ => none

def read? (text : Text) : Option Found :=
  match Text.strip? marker text with
  | none => none
  | some body =>
    let tag := body.takeWhile Text.isWord
    let behind := body.dropWhile Text.isWord
    let gap := Text.indentation behind
    if tag.isEmpty then none
    else
      match Text.trimStart behind with
      | '%' :: '%' :: rest => some ⟨⟨tag, none⟩, marker ++ tag ++ gap ++ marker, rest⟩
      | ':' :: list =>
        match readOptions? list with
        | none => none
        | some (lead, options, rest) =>
          some ⟨⟨tag, some options⟩,
            marker ++ tag ++ gap ++ ':' :: lead ++ options ++ marker, rest⟩
      | _ => none

/-- A placeholder with the literal text in front of it and its own spelling. -/
structure Occurrence where
  gap : Text
  placeholder : Placeholder
  source : Text
  deriving DecidableEq, Repr

/-- A text divided at its placeholders. -/
structure Cut where
  occurrences : List Occurrence
  tail : Text
  deriving DecidableEq, Repr

theorem closeFrom_eq_some {taken text options rest : Text}
    (h : closeFrom taken text = some (options, rest)) :
    taken.reverse ++ text = options ++ marker ++ rest := by
  induction taken, text using closeFrom.induct with
  | case1 => simp [closeFrom] at h
  | case2 => simp [closeFrom] at h; simp [h, marker]
  | case3 => simp_all [closeFrom]
  | case4 taken c rest hm hc ih =>
    rw [closeFrom, if_neg hc] at h
    · simpa using ih h
    · exact hm

theorem close?_eq_some {text options rest : Text} (h : close? text = some (options, rest)) :
    text = options ++ marker ++ rest := by
  cases text with
  | nil => simp [close?] at h
  | cons c text =>
    by_cases hc : c = '\n'
    · simp [close?, hc] at h
    · rw [close?, if_neg hc] at h
      simpa using closeFrom_eq_some h

/-- Options end at a marker behind their first character, or they are the last white space in front
of one. -/
theorem readOptions?_cases {text lead options rest : Text}
    (h : readOptions? text = some (lead, options, rest)) :
    (Text.indentation text = lead ∧ close? (Text.trimStart text) = some (options, rest)) ∨
      ∃ last, close? (Text.trimStart text) = none ∧ Text.trimStart text = marker ++ rest ∧
        Text.indentation text = lead ++ [last] ∧ last ≠ '\n' ∧ options = [last] := by
  simp only [readOptions?] at h
  split at h
  · rename_i options' rest' hclose
    simp only [Option.some.injEq, Prod.mk.injEq] at h
    obtain ⟨rfl, rfl, rfl⟩ := h
    exact .inl ⟨rfl, hclose⟩
  · rename_i hclose
    split at h
    · rename_i rest' last hstrip hlast
      split at h
      · simp at h
      · rename_i hline
        simp only [Option.some.injEq, Prod.mk.injEq] at h
        obtain ⟨rfl, rfl, rfl⟩ := h
        obtain ⟨front, hfront⟩ := List.getLast?_eq_some_iff.mp hlast
        refine .inr ⟨last, hclose, Text.strip?_eq_some_iff.mp hstrip, ?_, hline, rfl⟩
        rw [hfront, List.dropLast_concat]
    · simp at h

theorem readOptions?_eq_some {text lead options rest : Text}
    (h : readOptions? text = some (lead, options, rest)) :
    text = lead ++ options ++ marker ++ rest := by
  have hsplit := Text.indentation_append_trimStart text
  rcases readOptions?_cases h with ⟨rfl, hclose⟩ | ⟨last, -, hmarker, hlead, -, rfl⟩
  · rw [close?_eq_some hclose] at hsplit
    simpa using hsplit.symm
  · rw [hmarker, hlead] at hsplit
    simpa using hsplit.symm

/-- A placeholder begins with a marker and a word. Behind the white space that follows, it is closed
by a marker, or its options begin with a colon. -/
theorem read?_cases {text : Text} {found : Found} (h : read? text = some found) :
    ∃ body tag gap behind : Text, text = marker ++ body ∧ tag = body.takeWhile Text.isWord ∧
      gap = Text.indentation (body.dropWhile Text.isWord) ∧
      behind = Text.trimStart (body.dropWhile Text.isWord) ∧ ¬ tag.isEmpty = true ∧
      ((∃ rest, behind = marker ++ rest ∧
          found = ⟨⟨tag, none⟩, marker ++ tag ++ gap ++ marker, rest⟩) ∨
        ∃ list lead options rest, behind = ':' :: list ∧
          readOptions? list = some (lead, options, rest) ∧
          found = ⟨⟨tag, some options⟩,
            marker ++ tag ++ gap ++ ':' :: lead ++ options ++ marker, rest⟩) := by
  unfold read? at h
  split at h
  · simp at h
  · rename_i body hstrip
    refine ⟨body, _, _, _, Text.strip?_eq_some_iff.mp hstrip, rfl, rfl, rfl, ?_⟩
    simp only at h
    split at h
    · simp at h
    · rename_i hempty
      refine ⟨hempty, ?_⟩
      split at h
      · rename_i rest hrest
        exact .inl ⟨rest, hrest, (Option.some.inj h).symm⟩
      · rename_i list hlist
        split at h
        · simp at h
        · rename_i lead options rest hread
          exact .inr ⟨list, lead, options, rest, hlist, hread, (Option.some.inj h).symm⟩
      · simp at h

/-- A placeholder is read off the text it stands in: spelling and rest make up the text. -/
theorem source_append_rest {text : Text} {found : Found} (h : read? text = some found) :
    found.source ++ found.rest = text := by
  obtain ⟨body, tag, gap, behind, rfl, htag, hgap, hbehind, -, hcases⟩ := read?_cases h
  have hbody : tag ++ (gap ++ behind) = body := by
    rw [htag, hgap, hbehind, Text.indentation_append_trimStart, List.takeWhile_append_dropWhile]
  rw [← hbody]
  rcases hcases with ⟨rest, hmarker, rfl⟩ | ⟨list, lead, options, rest, hlist, hread, rfl⟩
  · simp [hmarker]
  · simp [hlist, readOptions?_eq_some hread]

theorem length_rest_lt {text : Text} {found : Found} (h : read? text = some found) :
    found.rest.length < text.length := by
  have hlength := congrArg List.length (source_append_rest h)
  have hsource : 0 < found.source.length := by
    obtain ⟨body, tag, gap, behind, -, -, -, -, -, hcases⟩ := read?_cases h
    rcases hcases with ⟨rest, -, rfl⟩ | ⟨list, lead, options, rest, -, -, rfl⟩
    · simp [marker]
    · simp [marker]
  rw [List.length_append] at hlength
  omega

/-- Divides a text, `gap` being the literal text passed since the last placeholder, last
character first. -/
def cutFrom (gap text : Text) : Cut :=
  match text with
  | [] => ⟨[], gap.reverse⟩
  | c :: text =>
    match _h : read? (c :: text) with
    | none => cutFrom (c :: gap) text
    | some found =>
      let cut := cutFrom [] found.rest
      ⟨⟨gap.reverse, found.placeholder, found.source⟩ :: cut.occurrences, cut.tail⟩
termination_by text.length
decreasing_by
  · simp
  · exact length_rest_lt _h

/-- Divides a text at its placeholders, read from left to right. -/
def cut (text : Text) : Cut := cutFrom [] text

end Placeholder

namespace Placeholder.Cut

def text (cut : Cut) : Text :=
  cut.occurrences.flatMap (fun o => o.gap ++ o.source) ++ cut.tail

end Placeholder.Cut

namespace Placeholder

theorem text_cutFrom (gap text : Text) : (cutFrom gap text).text = gap.reverse ++ text := by
  induction gap, text using cutFrom.induct with
  | case1 gap => simp [cutFrom, Cut.text]
  | case2 gap c text h ih => rw [cutFrom, h]; simpa using ih
  | case3 gap c text found h ih =>
    rw [cutFrom, h]
    have := source_append_rest h
    simp only [Cut.text, List.reverse_nil, List.nil_append, List.flatMap_cons,
      List.append_assoc] at ih ⊢
    rw [ih, this]

/-- Dividing a text loses nothing of it. -/
@[simp] theorem text_cut (text : Text) : (cut text).text = text := by
  simp [cut, text_cutFrom]

end Placeholder

end LineTemplate
