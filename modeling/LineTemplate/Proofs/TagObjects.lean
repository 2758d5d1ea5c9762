import LineTemplate.Proofs.InPlace
import LineTemplate.Proofs.TagFiles
import Mathlib.Data.List.Nodup

/-!
# JSON values as dictionaries

An object is a dictionary if each key is a name and each value says something of the tag it is given
to. Then there is one entry for each key whose value gives a text, and no other one. Otherwise the
fault is that of the least key with one, of the name in the first place, and nothing is taken over.
-/
namespace LineTemplate

/-- The fault of a member: of its name, or else of its value, which is an object or an array with
something that is no string. -/
inductive Json.Offends : Text × Json → Fault → Prop
  | name {name : Text} {value : Json} (bad : Text.isName name = false) :
    Json.Offends (name, value) (.invalidName name)
  | object {name : Text} {members : List (Text × Json)} (good : Text.isName name = true) :
    Json.Offends (name, .object members) (.invalidValue name "object".toList)
  | item {name : Text} {ls : List Text} {item : Json} {rest : List Json}
    (good : Text.isName name = true) (bad : ∀ text, item ≠ .string text) :
    Json.Offends (name, .array (ls.map .string ++ item :: rest))
      (.invalidValue name ("array containing ".toList ++ item.kind))

/-- The fault of the least key that is at fault. -/
def Json.LeastOffends (members : List (Text × Json)) (fault : Fault) : Prop :=
  ∃ member ∈ members, Json.Offends member fault ∧
    ∀ other ∈ members, (∃ fault', Json.Offends other fault') → ¬ other.1.Precedes member.1

/-- The entries of a dictionary beside the members of an object: one for each member that gives a
text, under its key. -/
inductive Json.Entries : List (Text × Json) → List (Text × Text) → Prop
  | nil : Json.Entries [] []
  | text {name text : Text} {value : Json} {members : List (Text × Json)}
    {entries : List (Text × Text)} (gives : value.Gives (some text))
    (rest : Json.Entries members entries) :
    Json.Entries ((name, value) :: members) ((name, text) :: entries)
  | undefined {name : Text} {value : Json} {members : List (Text × Json)}
    {entries : List (Text × Text)} (gives : value.Gives none)
    (rest : Json.Entries members entries) :
    Json.Entries ((name, value) :: members) entries

namespace Dictionary

lemma arrayLines_strings_append (name : Text) (ls : List Text) (items : List Json) :
    arrayLines name (ls.map .string ++ items) = (arrayLines name items).map (ls ++ ·) := by
  induction ls with
  | nil => cases h : arrayLines name items <;> simp [h, Except.map]
  | cons line ls ih =>
    rw [List.map_cons, List.cons_append, arrayLines, ih]
    cases arrayLines name items <;> rfl

lemma arrayLines_cons_of_ne_string {item : Json} (h : ∀ text, item ≠ .string text) (name : Text)
    (items : List Json) :
    arrayLines name (item :: items) =
      .error (.invalidValue name ("array containing ".toList ++ item.kind)) := by
  cases item with
  | string text => exact absurd rfl (h text)
  | _ => rfl

/-- The first item that is no string makes the whole array fail. -/
lemma arrayLines_eq_error_iff {name : Text} {items : List Json} {fault : Fault} :
    arrayLines name items = .error fault ↔
      ∃ (ls : List Text) (item : Json) (rest : List Json), items = ls.map .string ++ item :: rest ∧
        (∀ text, item ≠ .string text) ∧
        fault = .invalidValue name ("array containing ".toList ++ item.kind) := by
  constructor
  · intro h
    induction items with
    | nil => contradiction
    | cons item items ih =>
      by_cases hstring : ∃ text, item = .string text
      · obtain ⟨text, rfl⟩ := hstring
        cases hrest : arrayLines name items with
        | ok ls => simp [arrayLines, hrest, Except.map] at h
        | error fault' =>
          rw [arrayLines, hrest] at h
          obtain rfl := Except.error.inj h
          obtain ⟨ls, item, rest, rfl, hitem, hfault⟩ := ih hrest
          exact ⟨text :: ls, item, rest, rfl, hitem, hfault⟩
      · have hitem := not_exists.mp hstring
        rw [arrayLines_cons_of_ne_string hitem] at h
        exact ⟨[], item, items, rfl, hitem, (Except.error.inj h).symm⟩
  · rintro ⟨ls, item, rest, rfl, hitem, rfl⟩
    rw [arrayLines_strings_append, arrayLines_cons_of_ne_string hitem]
    rfl

lemma memberValue_eq_error_iff {name : Text} {value : Json} {fault : Fault}
    (hname : Text.isName name = true) :
    memberValue name value = .error fault ↔ Json.Offends (name, value) fault := by
  constructor
  · intro h
    cases value with
    | array items =>
      cases hls : arrayLines name items with
      | ok ls => simp [memberValue, hls, Except.map] at h
      | error fault' =>
        rw [memberValue, hls] at h
        obtain rfl := Except.error.inj h
        obtain ⟨ls, item, rest, rfl, hitem, rfl⟩ := arrayLines_eq_error_iff.mp hls
        exact .item hname hitem
    | object members =>
      obtain rfl := Except.error.inj h
      exact .object hname
    | _ => contradiction
  · intro h
    cases h with
    | name bad =>
      rw [hname] at bad
      contradiction
    | object => rfl
    | item good bad =>
      rw [memberValue, arrayLines_eq_error_iff.mpr ⟨_, _, _, rfl, bad, rfl⟩]
      rfl

lemma readMember_eq_ok_iff {name : Text} {value : Json} {answer : Option Text} :
    readMember name value = .ok answer ↔ Text.isName name = true ∧ value.Gives answer := by
  rw [readMember, checkName]
  split_ifs with hname
  · simp [hname, memberValue_eq_ok_iff]
  · simp [hname]

lemma readMember_eq_error_iff {name : Text} {value : Json} {fault : Fault} :
    readMember name value = .error fault ↔ Json.Offends (name, value) fault := by
  rw [readMember, checkName]
  split_ifs with hname
  · exact memberValue_eq_error_iff hname
  · constructor
    · intro h
      obtain rfl := Except.error.inj h
      exact .name (Bool.eq_false_iff.mpr hname)
    · intro h
      cases h with
      | name => rfl
      | object good => exact absurd good hname
      | item good => exact absurd good hname

lemma not_offends_iff {name : Text} {value : Json} :
    (∀ fault, ¬ Json.Offends (name, value) fault) ↔
      Text.isName name = true ∧ ∃ answer, value.Gives answer := by
  simp only [← readMember_eq_error_iff, ← exists_and_left, ← readMember_eq_ok_iff]
  cases readMember name value <;> simp

/-- The first member that is at fault makes the whole object fail. -/
lemma addMembers_eq_error_iff {d : Dictionary} {members : List (Text × Json)} {fault : Fault} :
    d.addMembers members = .error fault ↔ FirstOf Json.Offends members fault := by
  induction members generalizing d with
  | nil => simp [addMembers]
  | cons member members ih =>
    obtain ⟨name, value⟩ := member
    simp only [firstOf_cons, ← readMember_eq_error_iff, addMembers]
    cases readMember name value with
    | error fault' => simp
    | ok answer => cases answer <;> simp [ih]

end Dictionary

lemma Json.leastOffends_iff {members : List (Text × Json)} (h : NamesAscend members)
    {fault : Fault} : Json.LeastOffends members fault ↔ FirstOf Json.Offends members fault := by
  constructor
  · intro hleast
    obtain ⟨member, hmember, hoffends, hleast⟩ := hleast
    obtain ⟨before, after, rfl⟩ := List.append_of_mem hmember
    refine ⟨before, member, after, rfl, fun earlier hearlier other hother => ?_, hoffends⟩
    have hprecedes := (List.pairwise_append.mp h).2.2 earlier hearlier member List.mem_cons_self
    exact hleast earlier (List.mem_append_left _ hearlier) ⟨other, hother⟩ hprecedes
  · intro hfirst
    obtain ⟨before, member, after, rfl, hearlier, hoffends⟩ := hfirst
    refine ⟨member, List.mem_append_right _ List.mem_cons_self, hoffends, ?_⟩
    intro other hother hfault
    obtain ⟨fault', hfault⟩ := hfault
    rcases List.mem_append.mp hother with hbefore | hother
    · exact absurd hfault (hearlier other hbefore fault')
    · rcases List.mem_cons.mp hother with rfl | hafter
      · exact Text.not_precedes_self _
      · have hbehind := (List.pairwise_cons.mp (List.pairwise_append.mp h).2.1).1 other hafter
        exact hbehind.not_precedes

lemma NamesAscend.of_sublist {α β : Type} {pairs : List (Text × α)} {pairs' : List (Text × β)}
    (h : NamesAscend pairs) (hsub : (pairs'.map Prod.fst).Sublist (pairs.map Prod.fst)) :
    NamesAscend pairs' :=
  List.pairwise_map.mp ((List.pairwise_map.mpr h).sublist hsub)

/-- Pairs in the order of their names are the same if they have the same members. -/
lemma NamesAscend.eq_of_mem_iff {α : Type} {a b : List (Text × α)} (ha : NamesAscend a)
    (hb : NamesAscend b) (h : ∀ pair, pair ∈ a ↔ pair ∈ b) : a = b := by
  have hnodup {l : List (Text × α)} (hl : NamesAscend l) : l.Nodup :=
    List.Nodup.of_map Prod.fst hl.nodup
  have hperm : a.Perm b := (List.perm_ext_iff_of_nodup (hnodup ha) (hnodup hb)).mpr h
  refine hperm.eq_of_pairwise (fun p q _ _ hpq hqp => ?_) ha hb
  exact absurd hqp hpq.not_precedes

namespace Json.Entries

variable {members : List (Text × Json)} {entries : List (Text × Text)}

lemma exists_of_gives (h : ∀ member ∈ members, ∃ answer, member.2.Gives answer) :
    ∃ entries, Entries members entries := by
  induction members with
  | nil => exact ⟨[], .nil⟩
  | cons member members ih =>
    obtain ⟨⟨answer, hgives⟩, hmembers⟩ := List.forall_mem_cons.mp h
    obtain ⟨entries, hentries⟩ := ih hmembers
    cases answer with
    | none => exact ⟨entries, .undefined hgives hentries⟩
    | some text => exact ⟨(member.1, text) :: entries, .text hgives hentries⟩

lemma sublist (h : Entries members entries) :
    (entries.map Prod.fst).Sublist (members.map Prod.fst) := by
  induction h with
  | nil => exact List.Sublist.slnil
  | text _ _ ih => exact ih.cons_cons _
  | undefined _ _ ih => exact ih.cons _

lemma mem_iff (h : Entries members entries) {name text : Text} :
    (name, text) ∈ entries ↔ ∃ value, (name, value) ∈ members ∧ value.Gives (some text) := by
  induction h with
  | nil => simp
  | @text name' text' value' members entries gives rest ih =>
    rw [List.mem_cons, ih]
    constructor
    · rintro (heq | ⟨value, hmem, hgives⟩)
      · obtain ⟨rfl, rfl⟩ := Prod.mk.inj heq
        exact ⟨value', List.mem_cons_self, gives⟩
      · exact ⟨value, List.mem_cons_of_mem _ hmem, hgives⟩
    · rintro ⟨value, hmem, hgives⟩
      rcases List.mem_cons.mp hmem with heq | hmem
      · obtain ⟨rfl, rfl⟩ := Prod.mk.inj heq
        obtain rfl := Option.some.inj (Dictionary.gives_unique hgives gives)
        exact .inl rfl
      · exact .inr ⟨value, hmem, hgives⟩
  | @undefined name' value' members entries gives rest ih =>
    rw [ih]
    constructor
    · rintro ⟨value, hmem, hgives⟩
      exact ⟨value, List.mem_cons_of_mem _ hmem, hgives⟩
    · rintro ⟨value, hmem, hgives⟩
      rcases List.mem_cons.mp hmem with heq | hmem
      · obtain ⟨rfl, rfl⟩ := Prod.mk.inj heq
        exact absurd (Dictionary.gives_unique hgives gives) nofun
      · exact ⟨value, hmem, hgives⟩

end Json.Entries

namespace Dictionary

lemma mem_entries_iff {d : Dictionary} {name text : Text} :
    (name, text) ∈ d.entries ↔ d.get? name = some text :=
  Std.TreeMap.mem_toList_iff_getElem?_eq_some

/-- With different names, the value of a tag is the text that the member of its name gives. -/
lemma get?_eq_some_iff_of_addMembers {d : Dictionary} {members : List (Text × Json)}
    (h : empty.addMembers members = .ok d) (hn : (members.map Prod.fst).Nodup) {name text : Text} :
    d.get? name = some text ↔ ∃ value, (name, value) ∈ members ∧ value.Gives (some text) := by
  have hget {value : Json} (hm : (name, value) ∈ members) : value.Gives (d.get? name) := by
    obtain ⟨answer, hgives, hget⟩ := get?_addMembers_of_mem h hn hm
    rwa [hget, get?_empty, Option.or_none]
  constructor
  · intro htext
    by_cases hname : name ∈ members.map Prod.fst
    · obtain ⟨⟨name, value⟩, hm, rfl⟩ := List.mem_map.mp hname
      exact ⟨value, hm, htext ▸ hget hm⟩
    · rw [get?_addMembers_of_notMem h hname, get?_empty] at htext
      contradiction
  · rintro ⟨value, hm, hgives⟩
    exact gives_unique (hget hm) hgives

/-- The entries of a dictionary that an object makes are those that its members give. -/
lemma entries_of_addMembers {d : Dictionary} {members : List (Text × Json)}
    (h : empty.addMembers members = .ok d) (hascend : NamesAscend members) :
    Json.Entries members d.entries := by
  have hgood : ∀ member ∈ members, ∃ answer, member.2.Gives answer := by
    intro member hm
    obtain ⟨answer, hgives, -⟩ := get?_addMembers_of_mem h hascend.nodup hm
    exact ⟨answer, hgives⟩
  obtain ⟨entries, hentries⟩ := Json.Entries.exists_of_gives hgood
  have heq : d.entries = entries := by
    refine (namesAscend_toList d.values).eq_of_mem_iff (hascend.of_sublist hentries.sublist) ?_
    rintro ⟨name, text⟩
    rw [hentries.mem_iff, ← get?_eq_some_iff_of_addMembers h hascend.nodup]
    exact mem_entries_iff
  exact heq ▸ hentries

lemma exists_addMembers_iff {d : Dictionary} {members : List (Text × Json)} :
    (∃ after, d.addMembers members = .ok after) ↔
      ∀ member ∈ members, Text.isName member.1 = true ∧ ∃ answer, member.2.Gives answer := by
  simp only [exists_ok_iff, addMembers_eq_error_iff, forall_not_firstOf_iff, ← not_offends_iff]

/-- The fault of a tag file. It cannot be read, or it is no JSON, or its value is no object, or some
member is at fault. -/
inductive FileFails : Except Fault Text → Fault → Prop
  | unread (fault : Fault) : FileFails (.error fault) fault
  | malformed {content : Text} (bad : Json.read? content = none) :
    FileFails (.ok content) (.malformedTagFile content)
  | noObject {content : Text} {value : Json} (read : Json.read? content = some value)
    (bad : ∀ members, value ≠ .object members) :
    FileFails (.ok content) (.invalidValue rootName value.kind)
  | member {content : Text} {members : List (Text × Json)} {fault : Fault}
    (read : Json.read? content = some (.object members))
    (least : Json.LeastOffends members fault) : FileFails (.ok content) fault

lemma ofJson_of_ne_object {value : Json} (h : ∀ members, value ≠ .object members) :
    ofJson value = .error (.invalidValue rootName value.kind) := by
  cases value with
  | object members => exact absurd rfl (h members)
  | _ => rfl

lemma ofTagFile_eq_error_iff {content : Text} {fault : Fault} :
    ofTagFile content = .error fault ↔ FileFails (.ok content) fault := by
  have hobject {members : List (Text × Json)}
      (hread : Json.read? content = some (.object members)) :
      ofJson (.object members) = .error fault ↔ Json.LeastOffends members fault := by
    rw [Json.leastOffends_iff (Json.keysAscend_of_read? hread), ofJson, addMembers_eq_error_iff]
  constructor
  · intro h
    unfold ofTagFile at h
    split at h
    · rename_i hread
      obtain rfl := Except.error.inj h
      exact .malformed hread
    · rename_i value hread
      by_cases hvalue : ∃ members, value = .object members
      · obtain ⟨members, rfl⟩ := hvalue
        exact .member hread ((hobject hread).mp h)
      · have hvalue := not_exists.mp hvalue
        rw [ofJson_of_ne_object hvalue] at h
        obtain rfl := Except.error.inj h
        exact .noObject hread hvalue
  · intro h
    unfold ofTagFile
    cases h with
    | malformed bad => rw [bad]
    | noObject read bad =>
      rw [read]
      exact ofJson_of_ne_object bad
    | member read least =>
      rw [read]
      exact (hobject read).mpr least

/-- The first tag file that fails decides, whatever follows it. -/
lemma addTagFiles_eq_error_iff {d : Dictionary} {contents : List (Except Fault Text)}
    {fault : Fault} : d.addTagFiles contents = .error fault ↔ FirstOf FileFails contents fault := by
  induction contents generalizing d with
  | nil => simp [addTagFiles]
  | cons content contents ih =>
    rw [firstOf_cons]
    cases content with
    | error unread =>
      have hfails {other : Fault} : FileFails (.error unread) other ↔ unread = other := by
        constructor
        · intro h
          cases h
          rfl
        · rintro rfl
          exact .unread unread
      simp [addTagFiles, hfails]
    | ok content =>
      simp only [addTagFiles, ← ofTagFile_eq_error_iff]
      cases ofTagFile content with
      | error fault' => simp
      | ok more => simp [ih]

/-- A value that is no object is refused as a whole. An object makes a dictionary unless some member
is at fault, and then the fault of the least key is reported. The dictionary has the entries that
the members give and no others. If a text fails that a dictionary is to be extended by, or one of
several files, then the dictionary stays as it was, and the first fault is reported. -/
theorem objects_are_read_exactly :
    (∀ value, (∀ members, value ≠ .object members) →
      ofJson value = .error (.invalidValue "<root>".toList value.kind)) ∧
    (∀ members, NamesAscend members →
      (∀ fault, ofJson (.object members) = .error fault ↔ Json.LeastOffends members fault) ∧
      ((∃ d, ofJson (.object members) = .ok d) ↔
        ∀ member ∈ members, Text.isName member.1 = true ∧ ∃ answer, member.2.Gives answer) ∧
      ∀ d, ofJson (.object members) = .ok d → Json.Entries members d.entries) ∧
    (∀ content members, Json.read? content = some (.object members) → NamesAscend members) ∧
    (∀ content d fault after,
      (InPlace.extend (ofTagFile content)).perform d = (.error fault, after) ↔
        after = d ∧ FileFails (.ok content) fault) ∧
    ∀ contents d fault after,
      (InPlace.extend (ofTagFiles contents)).perform d = (.error fault, after) ↔
        after = d ∧ FirstOf FileFails contents fault := by
  have hextend (loaded : Except Fault Dictionary) (d : Dictionary) (fault : Fault)
      (after : Dictionary) : (InPlace.extend loaded).perform d = (.error fault, after) ↔
        after = d ∧ loaded = .error fault := by
    rw [InPlace.perform_extend]
    cases loaded <;> simp [eq_comm, and_comm]
  refine ⟨fun value h => ofJson_of_ne_object h,
    fun members h => ⟨fun fault => ?_, ?_, fun d hd => ?_⟩,
    fun content members h => Json.keysAscend_of_read? h,
    fun content d fault after => ?_, fun contents d fault after => ?_⟩
  · rw [Json.leastOffends_iff h, ofJson, addMembers_eq_error_iff]
  · exact exists_addMembers_iff
  · exact entries_of_addMembers hd h
  · rw [hextend, ofTagFile_eq_error_iff]
  · rw [hextend, ofTagFiles, addTagFiles_eq_error_iff]

-- The keys ascend, whatever the order in which they are written.
example : (ofTagFile "\x7b\"b-\": 1, \"A\": [\"x\", null, 1]\x7d".toList).map entries =
    .error (.invalidValue ['A'] "array containing null".toList) := by
  decide +kernel

end Dictionary

end LineTemplate
