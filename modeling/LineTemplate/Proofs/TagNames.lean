import LineTemplate.Definition
import LineTemplate.Proofs.Dependence
import LineTemplate.Proofs.OptionSpan

/-!
# Names of tags

Whatever a template refers to is a word, and a word read as a definition is that name without a
value: no white space is dropped from it and it holds no equals sign. So the names that are met in
templates can be given back as definitions, in any order.
-/
namespace LineTemplate

namespace Text

lemma isName_iff {text : Text} : isName text = true ↔ text ≠ [] ∧ ∀ c ∈ text, isWord c = true := by
  rw [isName, Bool.and_eq_true, Bool.not_eq_true', List.isEmpty_eq_false_iff, List.all_eq_true]

/-- The longest word at the start of a text is a name, unless it is empty. -/
lemma isName_takeWhile {text : Text} (h : ¬ (text.takeWhile isWord).isEmpty = true) :
    isName (text.takeWhile isWord) = true := by
  refine isName_iff.mpr ⟨?_, fun c hc => List.mem_takeWhile_imp hc⟩
  rwa [List.isEmpty_iff] at h

lemma equals_notMem_of_isName {name : Text} (h : isName name = true) : '=' ∉ name := by
  intro hmem
  exact absurd ((isName_iff.mp h).2 '=' hmem) (by decide +kernel)

lemma trim_of_no_blank {text : Text} (h : ∀ c ∈ text, isBlank c = false) : trim text = text := by
  have hstart {t : Text} (ht : ∀ c ∈ t, isBlank c = false) : trimStart t = t := by
    cases t with
    | nil => rfl
    | cons c t =>
      rw [trimStart, List.dropWhile_cons_of_neg]
      rw [ht c List.mem_cons_self]
      exact Bool.false_ne_true
  have hreverse : ∀ c ∈ text.reverse, isBlank c = false := fun c hc => h c (List.mem_reverse.mp hc)
  rw [trim, hstart h, trimEnd, hstart hreverse, List.reverse_reverse]

lemma cut_of_notMem {separator : Char} {text : Text} (h : separator ∉ text) :
    cut separator text = (text, none) := by
  have hdrop : text.dropWhile (· != separator) = [] := by
    rw [List.dropWhile_eq_nil_iff]
    intro c hc
    rw [bne_iff_ne]
    rintro rfl
    exact h hc
  rw [cut, hdrop]

end Text

namespace Definition

lemma read_of_cut {text name : Text} {value : Option Text}
    (hcut : Text.cut '=' text = (name, value)) (h : Text.isName name = true) :
    read text = .ok ⟨name, value⟩ := by
  obtain ⟨hne, hword⟩ := Text.isName_iff.mp h
  have hblank : ∀ c ∈ name, Text.isBlank c = false :=
    fun c hc => Text.isBlank_eq_false_of_isWord (hword c hc)
  have hempty : name.isEmpty = false := List.isEmpty_eq_false_iff.mpr hne
  simp only [read, hcut, Text.trim_of_no_blank hblank, hempty, checkName, h,
    Bool.false_eq_true, if_false, if_true]

/-- A word is the definition of that name, without a value. -/
theorem read_of_isName {name : Text} (h : Text.isName name = true) :
    read name = .ok ⟨name, none⟩ :=
  read_of_cut (Text.cut_of_notMem (Text.equals_notMem_of_isName h)) h

end Definition

namespace Reference

lemma isName_of_placeholder {text : Text} {o : Placeholder.Occurrence}
    (h : o ∈ (Placeholder.cut text).occurrences) : Text.isName o.placeholder.tag = true := by
  obtain ⟨here, found, hread, hplaceholder, -⟩ := Placeholder.read?_of_mem_cutFrom h
  obtain ⟨body, tag, gap, behind, -, rfl, -, -, hempty, hcases⟩ := Placeholder.read?_cases hread
  rw [← hplaceholder]
  rcases hcases with ⟨rest, -, rfl⟩ | ⟨list, lead, options, rest, -, -, rfl⟩
  · exact Text.isName_takeWhile hempty
  · exact Text.isName_takeWhile hempty

lemma isName_of_located {text : Text} {located : Directive.Located}
    (h : Directive.locate? text = some located) : Text.isName located.tag = true := by
  obtain ⟨keyword, body, rest, -, -, hread⟩ := Directive.exists_of_locate? h
  obtain ⟨word, rfl, hempty, -, rfl⟩ := Directive.word_of_readTag? hread
  exact Text.isName_takeWhile hempty

/-- The references of a template are those of its lines. -/
lemma mem_ofLines_iff {line : Nat} {ls : List Text} {r : Reference} :
    r ∈ ofLines line ls ↔ ∃ k text, ls[k]? = some text ∧ r ∈ ofLine (line + k) text := by
  induction ls generalizing line with
  | nil => simp [ofLines]
  | cons first ls ih =>
    rw [ofLines, List.mem_append, ih]
    constructor
    · rintro (h | ⟨k, text, hk, h⟩)
      · exact ⟨0, first, rfl, h⟩
      · exact ⟨k + 1, text, hk, by rwa [show line + (k + 1) = line + 1 + k by omega]⟩
    · rintro ⟨k, text, hk, h⟩
      cases k with
      | zero =>
        obtain rfl := Option.some.inj hk
        exact .inl h
      | succ k => exact .inr ⟨k, text, hk, by rwa [show line + 1 + k = line + (k + 1) by omega]⟩

/-- Whatever a template refers to is a word. -/
theorem isName_tag {template : Text} {r : Reference} (h : r ∈ ofTemplate template) :
    Text.isName r.tag = true := by
  obtain ⟨k, text, -, h⟩ := mem_ofLines_iff.mp h
  unfold ofLine at h
  split at h
  · split at h
    · rename_i located hlocated
      obtain rfl := List.mem_singleton.mp h
      exact isName_of_located hlocated
    · contradiction
  · have htag := List.mem_map_of_mem (f := (·.tag)) h
    rw [tags_ofOccurrences] at htag
    obtain ⟨o, ho, heq⟩ := List.mem_map.mp htag
    rw [← heq]
    exact isName_of_placeholder ho

end Reference

namespace Dictionary

/-- Names that are given back as definitions switch on their tags and no others, in any order. -/
theorem get?_defineAll_names {names : List Text} (h : ∀ name ∈ names, Text.isName name = true)
    (d : Dictionary) :
    ∃ defined, d.defineAll names = .ok defined ∧
      ∀ name, defined.get? name = if name ∈ names then some flagText else d.get? name := by
  induction names generalizing d with
  | nil => exact ⟨d, rfl, fun name => by simp⟩
  | cons first names ih =>
    obtain ⟨hfirst, hnames⟩ := List.forall_mem_cons.mp h
    obtain ⟨defined, hdefine, hget⟩ := ih hnames (d.insert first flagText)
    refine ⟨defined, ?_, fun name => ?_⟩
    · simp only [defineAll, define, Definition.read_of_isName hfirst, apply, Option.getD_none,
        hdefine]
    · rw [hget, get?_insert]
      by_cases hmem : name ∈ names <;> by_cases heq : name = first <;> simp [hmem, heq]

end Dictionary

end LineTemplate
