import LineTemplate.CommandLine.Session
import LineTemplate.Proofs.NameUses
import LineTemplate.Proofs.OptionLists
import LineTemplate.Proofs.TagObjects

/-!
# Definitions and tag files

A definition is divided at its first equals sign. In front of it stands the name of a tag, and white
space around that does not count; behind it stands the value, where nothing is dropped. The first
definition without a proper name is reported, but only if all tag files can be loaded. Otherwise the
last definition of a tag gives its value, and only where there is none do the tag files.
-/
namespace LineTemplate

namespace Definition

/-- A definition is divided at its first equals sign, if it has one. -/
inductive Divided : Text → Text → Option Text → Prop
  | bare {text : Text} (none_left : '=' ∉ text) : Divided text text none
  | valued {lead : Text} (first : '=' ∉ lead) (value : Text) :
    Divided (lead ++ '=' :: value) lead (some value)

/-- The fault of a definition whose name is missing, or cannot be the name of a tag. -/
inductive Refused (text : Text) : Fault → Prop
  | nameless {lead : Text} {given : Option Text} (divided : Divided text lead given)
    (trimmed : Text.Trimmed lead []) : Refused text (.invalidDefinition text)
  | misnamed {lead name : Text} {given : Option Text} (divided : Divided text lead given)
    (trimmed : Text.Trimmed lead name) (named : name ≠ []) (bad : Text.isName name = false) :
    Refused text (.invalidName name)

/-- A definition gives a tag a value, which is `true` if the definition has none. -/
def Gives (text name value : Text) : Prop :=
  ∃ lead given, Divided text lead given ∧ Text.Trimmed lead name ∧ Text.isName name = true ∧
    value = given.getD "true".toList

variable {text lead name value : Text} {given : Option Text} {fault : Fault}

lemma cut_eq_iff : Text.cut '=' text = (lead, given) ↔ Divided text lead given := by
  constructor
  · intro h
    by_cases hmem : '=' ∈ text
    · obtain ⟨front, rest, rfl, hfront⟩ := List.eq_append_cons_of_mem hmem
      rw [Text.cut_append_separator hfront] at h
      obtain ⟨rfl, rfl⟩ := Prod.mk.inj h
      exact .valued hfront rest
    · rw [Text.cut_of_notMem hmem] at h
      obtain ⟨rfl, rfl⟩ := Prod.mk.inj h
      exact .bare hmem
  · intro h
    cases h with
    | bare none_left => exact Text.cut_of_notMem none_left
    | valued first value => exact Text.cut_append_separator first value

lemma read_of_divided (hdivided : Divided text lead given) (htrimmed : Text.Trimmed lead name) :
    read text =
      if name = [] then .error (.invalidDefinition text)
      else if Text.isName name = true then .ok ⟨name, given⟩
      else .error (.invalidName name) := by
  simp only [read, cut_eq_iff.mpr hdivided, Text.trim_eq_iff.mpr htrimmed, List.isEmpty_iff,
    checkName]
  split_ifs <;> rfl

lemma exists_divided (text : Text) :
    ∃ lead given name, Divided text lead given ∧ Text.Trimmed lead name :=
  ⟨_, _, _, cut_eq_iff.mp rfl, Text.trim_eq_iff.mp rfl⟩

theorem read_eq_error_iff : read text = .error fault ↔ Refused text fault := by
  constructor
  · intro h
    obtain ⟨lead, given, name, hdivided, htrimmed⟩ := exists_divided text
    rw [read_of_divided hdivided htrimmed] at h
    split_ifs at h with hnone hname
    · obtain rfl := Except.error.inj h
      exact .nameless hdivided (hnone ▸ htrimmed)
    · obtain rfl := Except.error.inj h
      exact .misnamed hdivided htrimmed hnone (Bool.eq_false_iff.mpr hname)
  · intro h
    cases h with
    | nameless hdivided htrimmed => rw [read_of_divided hdivided htrimmed, if_pos rfl]
    | misnamed hdivided htrimmed named bad =>
      rw [read_of_divided hdivided htrimmed, if_neg named, if_neg (Bool.eq_false_iff.mp bad)]

theorem read_eq_ok_iff :
    read text = .ok ⟨name, given⟩ ↔
      ∃ lead, Divided text lead given ∧ Text.Trimmed lead name ∧ Text.isName name = true := by
  constructor
  · intro h
    obtain ⟨lead, given', name', hdivided, htrimmed⟩ := exists_divided text
    rw [read_of_divided hdivided htrimmed] at h
    split_ifs at h with hnone hname
    obtain ⟨rfl, rfl⟩ := Definition.mk.inj (Except.ok.inj h)
    exact ⟨lead, hdivided, htrimmed, hname⟩
  · rintro ⟨lead, hdivided, htrimmed, hname⟩
    rw [read_of_divided hdivided htrimmed, if_neg (Text.isName_iff.mp hname).1, if_pos hname]

lemma gives_iff : Gives text name value ↔
    ∃ given, read text = .ok ⟨name, given⟩ ∧ value = given.getD Dictionary.flagText := by
  constructor
  · rintro ⟨lead, given, hdivided, htrimmed, hname, hvalue⟩
    exact ⟨given, read_eq_ok_iff.mpr ⟨lead, hdivided, htrimmed, hname⟩, hvalue⟩
  · rintro ⟨given, hread, hvalue⟩
    obtain ⟨lead, hdivided, htrimmed, hname⟩ := read_eq_ok_iff.mp hread
    exact ⟨lead, given, hdivided, htrimmed, hname, hvalue⟩

lemma Gives.unique {name' value' : Text} (h : Gives text name value)
    (h' : Gives text name' value') : name = name' ∧ value = value' := by
  obtain ⟨given, hread, rfl⟩ := gives_iff.mp h
  obtain ⟨given', hread', rfl⟩ := gives_iff.mp h'
  obtain ⟨rfl, rfl⟩ := Definition.mk.inj (Except.ok.inj (hread.symm.trans hread'))
  exact ⟨rfl, rfl⟩

/-- A definition is refused unless it gives some tag a value. -/
lemma forall_not_refused_iff :
    (∀ fault, ¬ Refused text fault) ↔ ∃ name value, Gives text name value := by
  simp only [← read_eq_error_iff, gives_iff]
  cases read text with
  | error fault => simp
  | ok definition => exact iff_of_true nofun ⟨_, _, _, rfl, rfl⟩

end Definition

namespace Dictionary

variable {d after : Dictionary} {texts : List Text} {fault : Fault}

lemma define_eq_error_iff {text : Text} :
    d.define text = .error fault ↔ Definition.Refused text fault := by
  rw [define, ← Definition.read_eq_error_iff]
  cases Definition.read text <;> simp

lemma get?_define {text : Text} (h : d.define text = .ok after) :
    ∃ name value, Definition.Gives text name value ∧
      ∀ other, after.get? other = if other = name then some value else d.get? other := by
  unfold define at h
  split at h
  · contradiction
  · rename_i definition hread
    obtain rfl := Except.ok.inj h
    exact ⟨definition.name, definition.value.getD flagText,
      Definition.gives_iff.mpr ⟨definition.value, hread, rfl⟩, get?_insert d _ _⟩

/-- The first definition that is refused makes all of them fail. -/
lemma defineAll_eq_error_iff :
    d.defineAll texts = .error fault ↔ FirstOf Definition.Refused texts fault := by
  induction texts generalizing d with
  | nil => simp [defineAll]
  | cons text rest ih =>
    simp only [firstOf_cons, ← define_eq_error_iff (d := d), defineAll]
    cases d.define text <;> simp [ih]

/-- The last definition of a tag gives its value, and if there is none, the value stays. -/
lemma get?_defineAll (h : d.defineAll texts = .ok after) (name : Text) :
    (∀ value, LastOf (fun text => Definition.Gives text name) texts value →
      after.get? name = some value) ∧
    ((∀ text ∈ texts, ∀ value, ¬ Definition.Gives text name value) →
      after.get? name = d.get? name) := by
  induction texts generalizing d with
  | nil =>
    obtain rfl := Except.ok.inj h
    exact ⟨fun value hlast => by simp [LastOf] at hlast, fun _ => rfl⟩
  | cons text rest ih =>
    unfold defineAll at h
    split at h
    · contradiction
    · rename_i next hdefine
      obtain ⟨hlast, hnone⟩ := ih h
      obtain ⟨name', value', hgives, hget⟩ := get?_define hdefine
      refine ⟨fun value hvalue => ?_, fun hnames => ?_⟩
      · rcases lastOf_cons.mp hvalue with hrest | ⟨hhere, hrest⟩
        · exact hlast value hrest
        · obtain ⟨rfl, rfl⟩ := hhere.unique hgives
          rw [hnone hrest, hget, if_pos rfl]
      · obtain ⟨hhere, hrest⟩ := List.forall_mem_cons.mp hnames
        have hother : name ≠ name' := by
          rintro rfl
          exact hhere value' hgives
        rw [hnone hrest, hget, if_neg hother]

-- Behind the first equals sign everything is part of the value.
example : (empty.defineAll ["A".toList, " A = x=y\n".toList]).map (·.get? ['A']) =
    .ok (some " x=y\n".toList) := by
  decide +kernel

end Dictionary

namespace CommandLine.Invocation

/-- The tags of an invocation are those of the tag files, with the definitions over them. A tag file
that fails is reported whatever the definitions are. Otherwise the first definition that is refused
is reported. If none is, then the last definition of a tag gives its value, and a tag that no
definition names is left as the tag files have it. A definition that is refused changes nothing. -/
theorem definitions_override_tag_files (i : Invocation) (tagFiles : List (Except Fault Text)) :
    (∀ fault, i.tags tagFiles = .error fault ↔
      Dictionary.ofTagFiles tagFiles = .error fault ∨
        (∃ base, Dictionary.ofTagFiles tagFiles = .ok base) ∧
          FirstOf Definition.Refused i.definitions fault) ∧
    (∀ base, Dictionary.ofTagFiles tagFiles = .ok base →
      ((∃ d, i.tags tagFiles = .ok d) ↔
        ∀ text ∈ i.definitions, ∃ name value, Definition.Gives text name value) ∧
      ∀ d, i.tags tagFiles = .ok d → ∀ name,
        (∀ value, LastOf (fun text => Definition.Gives text name) i.definitions value →
          d.get? name = some value) ∧
        ((∀ text ∈ i.definitions, ∀ value, ¬ Definition.Gives text name value) →
          d.get? name = base.get? name)) ∧
    ∀ text d fault after, (InPlace.define text).perform d = (.error fault, after) ↔
      after = d ∧ Definition.Refused text fault := by
  refine ⟨fun fault => ?_, fun base hbase => ⟨?_, fun d hd => ?_⟩, fun text d fault after => ?_⟩
  · rw [tags]
    cases Dictionary.ofTagFiles tagFiles with
    | error fault' => simp [Except.bind]
    | ok base => simp [Except.bind, Dictionary.defineAll_eq_error_iff]
  · simp only [tags, hbase, Except.bind, exists_ok_iff, Dictionary.defineAll_eq_error_iff,
      forall_not_firstOf_iff, Definition.forall_not_refused_iff]
  · rw [tags, hbase] at hd
    exact Dictionary.get?_defineAll hd
  · rw [InPlace.perform_define, ← Dictionary.define_eq_error_iff (d := d)]
    cases d.define text <;> simp [eq_comm, and_comm]

end CommandLine.Invocation

end LineTemplate
