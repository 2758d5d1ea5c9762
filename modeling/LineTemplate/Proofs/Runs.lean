import LineTemplate.Text.Blank
import Mathlib.Data.List.TakeWhile
import Mathlib.Tactic.Common

/-!
# Runs and pieces

The characters of a kind at the start of a text come to an end before the first character of another
kind. A text is divided there in one way only, and in one way only it is cut into pieces between
separators.
-/
namespace LineTemplate.Text

/-- All characters of a kind in front of a rest, which does not begin with a further one. -/
structure Run (kind : Char → Bool) (run rest : Text) : Prop where
  all : ∀ c ∈ run, kind c = true
  stops : ∀ c, rest.head? = some c → kind c = false

variable {kind : Char → Bool} {run rest : Text}

theorem run_takeWhile (kind : Char → Bool) (text : Text) :
    Run kind (text.takeWhile kind) (text.dropWhile kind) := by
  refine ⟨fun c hc => List.mem_takeWhile_imp hc, fun c hc => ?_⟩
  have h := List.head?_dropWhile_not kind text
  simpa [hc] using h

namespace Run

theorem takeWhile_eq (h : Run kind run rest) : (run ++ rest).takeWhile kind = run := by
  rw [List.takeWhile_append_of_pos h.all]
  cases rest with
  | nil => simp
  | cons c rest =>
    rw [List.takeWhile_cons_of_neg (by simp [h.stops c rfl]), List.append_nil]

theorem dropWhile_eq (h : Run kind run rest) : (run ++ rest).dropWhile kind = rest := by
  rw [List.dropWhile_append_of_pos h.all]
  cases rest with
  | nil => rfl
  | cons c rest => rw [List.dropWhile_cons_of_neg (by simp [h.stops c rfl])]

/-- A text is divided behind its run in one way only. -/
theorem unique {run' rest' : Text} (h : Run kind run rest) (h' : Run kind run' rest')
    (htext : run ++ rest = run' ++ rest') : run = run' ∧ rest = rest' := by
  constructor
  · rw [← h.takeWhile_eq, htext, h'.takeWhile_eq]
  · rw [← h.dropWhile_eq, htext, h'.dropWhile_eq]

end Run

lemma notMem_takeWhile (separator : Char) (text : Text) :
    separator ∉ text.takeWhile (· != separator) := by
  intro hmem
  have hne := List.mem_takeWhile_imp (p := (· != separator)) hmem
  exact absurd rfl (bne_iff_ne.mp hne)

/-- The pieces of a text hold no separator, and with separators in between they are the text. -/
lemma split_spec (separator : Char) (text : Text) :
    split separator text ≠ [] ∧ (∀ piece ∈ split separator text, separator ∉ piece) ∧
      [separator].intercalate (split separator text) = text := by
  induction text using split.induct separator with
  | case1 text h =>
    have hsplit : split separator text = [text] := by rw [split, h]
    have hall := List.takeWhile_append_dropWhile (p := (· != separator)) (l := text)
    rw [h, List.append_nil] at hall
    have hnone : separator ∉ text := hall ▸ notMem_takeWhile separator text
    rw [hsplit]
    exact ⟨List.cons_ne_nil _ _, List.forall_mem_singleton.mpr hnone, List.intercalate_singleton⟩
  | case2 text c rest h ih =>
    obtain ⟨hne, hpieces, hrest⟩ := ih
    obtain rfl : c = separator := by
      have hhead := List.head?_dropWhile_not (· != separator) text
      simpa [h] using hhead
    have hsplit : split c text = text.takeWhile (· != c) :: split c rest := by rw [split, h]
    have htext : text.takeWhile (· != c) ++ c :: rest = text := by
      rw [← h, List.takeWhile_append_dropWhile]
    rw [hsplit, List.intercalate_cons_of_ne_nil hne, hrest, List.append_assoc,
      List.singleton_append, htext]
    exact ⟨List.cons_ne_nil _ _, List.forall_mem_cons.mpr ⟨notMem_takeWhile c text, hpieces⟩, rfl⟩

/-- A text is cut into pieces in one way. -/
theorem split_eq_iff {separator : Char} {text : Text} {pieces : List Text} :
    split separator text = pieces ↔
      pieces ≠ [] ∧ (∀ piece ∈ pieces, separator ∉ piece) ∧
        [separator].intercalate pieces = text := by
  obtain ⟨hne, hpieces, htext⟩ := split_spec separator text
  constructor
  · intro h
    rw [← h]
    exact ⟨hne, hpieces, htext⟩
  · intro h
    obtain ⟨hne', hpieces', htext'⟩ := h
    calc split separator text
        = List.splitOn separator text := by
          conv_rhs => rw [← htext, List.splitOn_intercalate separator hpieces hne]
      _ = pieces := by rw [← htext', List.splitOn_intercalate separator hpieces' hne']

lemma intercalate_cons (separator first : Text) (rest : List Text) :
    separator.intercalate (first :: rest) = first ++ rest.flatMap (separator ++ ·) := by
  induction rest generalizing first with
  | nil => simp
  | cons second rest ih =>
    rw [List.intercalate_cons_cons, ih, List.flatMap_cons]
    simp only [List.append_assoc]

lemma intercalate_append (separator : Text) {front : List Text} (h : front ≠ [])
    (rest : List Text) :
    separator.intercalate (front ++ rest) =
      separator.intercalate front ++ rest.flatMap (separator ++ ·) := by
  cases front with
  | nil => contradiction
  | cons first front =>
    rw [List.cons_append, intercalate_cons, intercalate_cons, List.flatMap_append,
      List.append_assoc]

end LineTemplate.Text
