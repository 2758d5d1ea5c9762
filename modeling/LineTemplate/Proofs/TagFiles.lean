import LineTemplate.TagFile
import LineTemplate.Proofs.ObjectKeys

/-!
# What tag files say about a tag

A tag file mentions a tag if it has a member of that name, and offers it a text unless the value is
`false` or `null`. By itself a file decides about each tag that it mentions. Of several files the
last that offers a text counts: a later file replaces the text of an earlier one, but with `false`
or `null` it does not take the text back.
-/
namespace LineTemplate

/-- What a value says of the tag it is given to: its text, or that the tag is undefined. -/
inductive Json.Gives : Json → Option Text → Prop
  | string (value : Text) : Json.Gives (.string value) (some value)
  | number (n : Number) : Json.Gives (.number n) (some n.text)
  | lines (ls : List Text) : Json.Gives (.array (ls.map .string)) (some (['\n'].intercalate ls))
  | on : Json.Gives (.bool true) (some "true".toList)
  | off : Json.Gives (.bool false) none
  | null : Json.Gives .null none

namespace Dictionary

lemma arrayLines_eq_ok_iff {name : Text} {items : List Json} {ls : List Text} :
    arrayLines name items = .ok ls ↔ items = ls.map .string := by
  induction items generalizing ls with
  | nil => cases ls <;> simp [arrayLines]
  | cons item items ih =>
    cases item with
    | string line =>
      cases ls with
      | nil => cases h : arrayLines name items <;> simp [arrayLines, h, Except.map]
      | cons l ls =>
        rw [List.map_cons, List.cons.injEq, ← ih, arrayLines]
        cases h : arrayLines name items <;> simp [Except.map]
    | null => cases ls <;> simp [arrayLines]
    | bool value => cases ls <;> simp [arrayLines]
    | number value => cases ls <;> simp [arrayLines]
    | array values => cases ls <;> simp [arrayLines]
    | object members => cases ls <;> simp [arrayLines]

/-- The value of a member is the text that it gives, or none. -/
theorem memberValue_eq_ok_iff {name : Text} {value : Json} {answer : Option Text} :
    memberValue name value = .ok answer ↔ value.Gives answer := by
  constructor
  · intro h
    cases value with
    | null =>
      obtain rfl := Except.ok.inj h
      exact .null
    | bool flag =>
      obtain rfl := Except.ok.inj h
      cases flag with
      | false => exact .off
      | true => exact .on
    | number n =>
      obtain rfl := Except.ok.inj h
      exact .number n
    | string text =>
      obtain rfl := Except.ok.inj h
      exact .string text
    | array items =>
      cases hls : arrayLines name items with
      | error fault => simp [memberValue, hls, Except.map] at h
      | ok ls =>
        simp only [memberValue, hls, Except.map, Except.ok.injEq] at h
        rw [← h, arrayLines_eq_ok_iff.mp hls]
        exact .lines ls
    | object members => contradiction
  · intro h
    cases h with
    | lines ls =>
      rw [memberValue, arrayLines_eq_ok_iff.mpr rfl]
      rfl
    | _ => rfl

lemma gives_unique {value : Json} {answer answer' : Option Text} (h : value.Gives answer)
    (h' : value.Gives answer') : answer = answer' := by
  have hvalue : memberValue [] value = .ok answer := memberValue_eq_ok_iff.mpr h
  exact Except.ok.inj (hvalue.symm.trans (memberValue_eq_ok_iff.mpr h'))

lemma readMember_eq_ok {name : Text} {value : Json} {answer : Option Text}
    (h : readMember name value = .ok answer) : value.Gives answer := by
  unfold readMember at h
  split at h
  · contradiction
  · exact memberValue_eq_ok_iff.mp h

lemma addMembers_cons {d after : Dictionary} {name : Text} {value : Json}
    {members : List (Text × Json)} (h : d.addMembers ((name, value) :: members) = .ok after) :
    ∃ (answer : Option Text) (d' : Dictionary), value.Gives answer ∧
      d'.addMembers members = .ok after ∧
      ∀ other, d'.get? other = if other = name then answer.or (d.get? name) else d.get? other := by
  unfold addMembers at h
  split at h
  · contradiction
  · rename_i hr
    refine ⟨none, d, readMember_eq_ok hr, h, fun other => ?_⟩
    split_ifs with he
    · rw [he, Option.none_or]
    · rfl
  · rename_i text hr
    exact ⟨some text, d.insert name text, readMember_eq_ok hr, h, get?_insert d name text⟩

/-- Members that have not the name leave its value as it was. -/
lemma get?_addMembers_of_notMem {d after : Dictionary} {members : List (Text × Json)}
    (h : d.addMembers members = .ok after) {name : Text} (hn : name ∉ members.map Prod.fst) :
    after.get? name = d.get? name := by
  induction members generalizing d with
  | nil =>
    obtain rfl := Except.ok.inj h
    rfl
  | cons member members ih =>
    obtain ⟨answer, d', -, hrest, hget⟩ := addMembers_cons h
    rw [List.map_cons, List.mem_cons, not_or] at hn
    rw [ih hrest hn.2, hget, if_neg hn.1]

/-- The one member that has the name gives the value, unless it gives none. -/
lemma get?_addMembers_of_mem {d after : Dictionary} {members : List (Text × Json)}
    (h : d.addMembers members = .ok after) (hn : (members.map Prod.fst).Nodup) {name : Text}
    {value : Json} (hm : (name, value) ∈ members) :
    ∃ answer, value.Gives answer ∧ after.get? name = answer.or (d.get? name) := by
  induction members generalizing d with
  | nil => contradiction
  | cons member members ih =>
    obtain ⟨answer, d', hgives, hrest, hget⟩ := addMembers_cons h
    obtain ⟨hfresh, hn⟩ := List.nodup_cons.mp hn
    rcases List.mem_cons.mp hm with rfl | hm
    · refine ⟨answer, hgives, ?_⟩
      rw [get?_addMembers_of_notMem hrest hfresh, hget, if_pos rfl]
    · have hne : name ≠ member.1 := by
        rintro rfl
        exact hfresh (List.mem_map.mpr ⟨_, hm, rfl⟩)
      obtain ⟨answer', hgives', h'⟩ := ih hrest hn hm
      exact ⟨answer', hgives', by rw [h', hget, if_neg hne]⟩

def Mentions (file name : Text) (value : Json) : Prop :=
  ∃ members, Json.read? file = some (.object members) ∧ (name, value) ∈ members

/-- A tag file has a member that gives a tag a text. -/
def Offers (file name text : Text) : Prop :=
  ∃ value, Mentions file name value ∧ value.Gives (some text)

lemma ofTagFile_eq_ok {file : Text} {d : Dictionary} (h : ofTagFile file = .ok d) :
    ∃ members, Json.read? file = some (.object members) ∧ empty.addMembers members = .ok d := by
  unfold ofTagFile at h
  split at h
  · contradiction
  · rename_i value hr
    cases value with
    | object members => exact ⟨members, hr, h⟩
    | _ => contradiction

/-- What a single tag file says of a name is what its dictionary answers. -/
lemma gives_get?_of_mentions {file : Text} {d : Dictionary} (h : ofTagFile file = .ok d)
    {name : Text} {value : Json} (hm : Mentions file name value) : value.Gives (d.get? name) := by
  obtain ⟨members, hr, hadd⟩ := ofTagFile_eq_ok h
  obtain ⟨members', hr', hmem⟩ := hm
  obtain rfl := Json.object.inj (Option.some.inj (hr.symm.trans hr'))
  have hascend : NamesAscend members := Json.keysAscend_of_read? hr
  obtain ⟨answer, hgives, hget⟩ := get?_addMembers_of_mem hadd hascend.nodup hmem
  rw [hget, get?_empty, Option.or_none]
  exact hgives

lemma get?_of_not_mentions {file : Text} {d : Dictionary} (h : ofTagFile file = .ok d)
    {name : Text} (hm : ∀ value, ¬ Mentions file name value) : d.get? name = none := by
  obtain ⟨members, hr, hadd⟩ := ofTagFile_eq_ok h
  rw [get?_addMembers_of_notMem hadd, get?_empty]
  intro hmem
  obtain ⟨⟨name', value⟩, hmember, rfl⟩ := List.mem_map.mp hmem
  exact hm value ⟨members, hr, hmember⟩

theorem get?_ofTagFile_eq_some_iff {file : Text} {d : Dictionary} (h : ofTagFile file = .ok d)
    {name text : Text} : d.get? name = some text ↔ Offers file name text := by
  constructor
  · intro hget
    by_cases hm : ∃ value, Mentions file name value
    · obtain ⟨value, hm⟩ := hm
      exact ⟨value, hm, hget ▸ gives_get?_of_mentions h hm⟩
    · rw [get?_of_not_mentions h (not_exists.mp hm)] at hget
      contradiction
  · rintro ⟨value, hm, hgives⟩
    exact gives_unique (gives_get?_of_mentions h hm) hgives

end Dictionary

/-- What the last of some texts states, of those that state anything. -/
def LastOf {α : Type} (states : Text → α → Prop) (files : List Text) (answer : α) : Prop :=
  ∃ before file after, files = before ++ file :: after ∧ states file answer ∧
    ∀ later ∈ after, ∀ other, ¬ states later other

lemma lastOf_cons {α : Type} {states : Text → α → Prop} {file : Text} {files : List Text}
    {answer : α} :
    LastOf states (file :: files) answer ↔
      LastOf states files answer ∨
        states file answer ∧ ∀ later ∈ files, ∀ other, ¬ states later other := by
  constructor
  · rintro ⟨before, here, after, hfiles, hstates, hlater⟩
    rcases List.cons_eq_append_iff.mp hfiles with ⟨rfl, h⟩ | ⟨before', rfl, h⟩
    · obtain ⟨rfl, rfl⟩ := List.cons.inj h
      exact .inr ⟨hstates, hlater⟩
    · exact .inl ⟨before', here, after, h, hstates, hlater⟩
  · rintro (⟨before, here, after, rfl, hstates, hlater⟩ | ⟨hstates, hlater⟩)
    · exact ⟨file :: before, here, after, rfl, hstates, hlater⟩
    · exact ⟨[], file, files, rfl, hstates, hlater⟩

lemma exists_lastOf {α : Type} {states : Text → α → Prop} {files : List Text} {file : Text}
    (hfile : file ∈ files) {answer : α} (h : states file answer) :
    ∃ last, LastOf states files last := by
  induction files generalizing file answer with
  | nil => contradiction
  | cons first files ih =>
    by_cases hlater : ∃ later ∈ files, ∃ other, states later other
    · obtain ⟨later, hmem, other, hstates⟩ := hlater
      obtain ⟨last, hlast⟩ := ih hmem hstates
      exact ⟨last, lastOf_cons.mpr (.inl hlast)⟩
    · have hnone : ∀ later ∈ files, ∀ other, ¬ states later other := by
        intro later hmem other hstates
        exact hlater ⟨later, hmem, other, hstates⟩
      rcases List.mem_cons.mp hfile with rfl | hfile
      · exact ⟨answer, lastOf_cons.mpr (.inr ⟨h, hnone⟩)⟩
      · exact absurd h (hnone file hfile answer)

/-- An answer that is stated by the last file is missing exactly if no file states one. -/
lemma eq_none_iff_of_lastOf {α : Type} {states : Text → α → Prop} {files : List Text}
    {answer : Option α} (h : ∀ a, answer = some a ↔ LastOf states files a) :
    answer = none ↔ ∀ file ∈ files, ∀ a, ¬ states file a := by
  constructor
  · intro hnone file hfile a hstates
    obtain ⟨last, hlast⟩ := exists_lastOf hfile hstates
    rw [(h last).mpr hlast] at hnone
    contradiction
  · intro hstates
    rw [Option.eq_none_iff_forall_ne_some]
    intro a ha
    obtain ⟨before, file, after, rfl, hfile, -⟩ := (h a).mp ha
    exact hstates file (List.mem_append_right _ List.mem_cons_self) a hfile

namespace Dictionary

/-- Tag files that can be taken over one by one can be taken over together, and a tag then has the
text that the last of them gives it that gives it any. -/
lemma get?_addTagFiles {files : List Text} (h : ∀ file ∈ files, ∃ d, ofTagFile file = .ok d)
    (d : Dictionary) :
    ∃ after, d.addTagFiles (files.map .ok) = .ok after ∧ ∀ name text,
      after.get? name = some text ↔
        LastOf (fun file => Offers file name) files text ∨
          d.get? name = some text ∧ ∀ file ∈ files, ∀ other, ¬ Offers file name other := by
  induction files generalizing d with
  | nil => exact ⟨d, rfl, fun name text => by simp [LastOf]⟩
  | cons file files ih =>
    obtain ⟨more, hmore⟩ := h file List.mem_cons_self
    obtain ⟨after, hafter, hget⟩ := ih (fun later hm => h later (List.mem_cons_of_mem _ hm))
      (d.extend more)
    refine ⟨after, ?_, fun name text => ?_⟩
    · simp only [List.map_cons, addTagFiles, hmore]
      exact hafter
    · have hfile : (d.extend more).get? name = some text ↔ Offers file name text ∨
          d.get? name = some text ∧ ∀ other, ¬ Offers file name other := by
        simp only [get?_extend, ← get?_ofTagFile_eq_some_iff hmore, Option.or_eq_some_iff,
          ← Option.eq_none_iff_forall_ne_some, and_comm]
      rw [hget, lastOf_cons, hfile]
      simp only [List.forall_mem_cons]
      tauto

/-- The last file that mentions a tag is also the last that offers it a text, if it offers one. -/
lemma lastOf_offers {files : List Text} {name : Text} {value : Json}
    (h : LastOf (fun file => Mentions file name) files value) {text : Text}
    (hgives : value.Gives (some text)) : LastOf (fun file => Offers file name) files text := by
  obtain ⟨before, file, after, hfiles, hm, hlater⟩ := h
  refine ⟨before, file, after, hfiles, ⟨value, hm, hgives⟩, ?_⟩
  rintro later hmem other ⟨value', hm', -⟩
  exact hlater later hmem value' hm'

/-- Tag files that are each valid give together a dictionary. In it a tag has the text that the last
file offers it that offers it any. So the last file that mentions a tag decides about it exactly if
it offers a text or no other file does: `false` and `null` do not take back the text of an earlier
file. -/
theorem last_text_counts (files : List Text) (h : ∀ file ∈ files, ∃ d, ofTagFile file = .ok d) :
    ∃ d, ofTagFiles (files.map .ok) = .ok d ∧ ∀ name,
      (∀ text, d.get? name = some text ↔ LastOf (fun file => Offers file name) files text) ∧
      ((∀ file ∈ files, ∀ value, ¬ Mentions file name value) → d.get? name = none) ∧
      ∀ value, LastOf (fun file => Mentions file name) files value →
        ∃ answer, value.Gives answer ∧
          (d.get? name = answer ↔
            (answer = none → ∀ file ∈ files, ∀ text, ¬ Offers file name text)) := by
  obtain ⟨d, hd, hget⟩ := get?_addTagFiles h empty
  refine ⟨d, hd, fun name => ?_⟩
  have htext (text : Text) :
      d.get? name = some text ↔ LastOf (fun file => Offers file name) files text := by
    rw [hget, get?_empty]
    simp
  have hnone : d.get? name = none ↔ ∀ file ∈ files, ∀ text, ¬ Offers file name text :=
    eq_none_iff_of_lastOf htext
  refine ⟨htext, fun hm => ?_, fun value hlast => ?_⟩
  · refine hnone.mpr ?_
    rintro file hfile text ⟨value, hvalue, -⟩
    exact hm file hfile value hvalue
  · obtain ⟨answer, hgives⟩ : ∃ answer, value.Gives answer := by
      obtain ⟨before, file, after, rfl, hm, -⟩ := hlast
      obtain ⟨d', hd'⟩ := h file (List.mem_append_right _ List.mem_cons_self)
      exact ⟨d'.get? name, gives_get?_of_mentions hd' hm⟩
    refine ⟨answer, hgives, ?_⟩
    cases answer with
    | none => simp only [hnone, true_imp_iff]
    | some text => exact iff_of_true ((htext text).mpr (lastOf_offers hlast hgives)) nofun

/-- Two files that both have a text for one tag, and a third one that takes nothing back. -/
theorem replaced_text_counts :
    let files := ["\x7b\"A\": 1, \"B\": \"b\"\x7d".toList, "\x7b\"A\": [\"x\", \"y\"]\x7d".toList,
      "\x7b\"B\": null\x7d".toList]
    (∀ file ∈ files, ∃ d, ofTagFile file = .ok d) ∧
      ∃ d, ofTagFiles (files.map .ok) = .ok d ∧ ∀ name,
        (∀ text, d.get? name = some text ↔ LastOf (fun file => Offers file name) files text) ∧
        ((∀ file ∈ files, ∀ value, ¬ Mentions file name value) → d.get? name = none) ∧
        ∀ value, LastOf (fun file => Mentions file name) files value →
          ∃ answer, value.Gives answer ∧
            (d.get? name = answer ↔
              (answer = none → ∀ file ∈ files, ∀ text, ¬ Offers file name text)) := by
  intro files
  have hok : ∀ file ∈ files, (ofTagFile file).isOk = true := by decide +kernel
  have h : ∀ file ∈ files, ∃ d, ofTagFile file = .ok d := by
    intro file hm
    have hfile := hok file hm
    cases hd : ofTagFile file with
    | error fault =>
      rw [hd] at hfile
      contradiction
    | ok d => exact ⟨d, rfl⟩
  exact ⟨h, last_text_counts files h⟩

/-- The last file that mentions a tag switches it off, and still the tag keeps its text. -/
theorem off_takes_nothing_back :
    ¬ ∀ (files : List Text) (d : Dictionary) (name : Text) (value : Json) (answer : Option Text),
      ofTagFiles (files.map .ok) = .ok d →
        LastOf (fun file => Mentions file name) files value → value.Gives answer →
          d.get? name = answer := by
  intro h
  let on := "\x7b\"F\": true\x7d".toList
  let off := "\x7b\"F\": false\x7d".toList
  have hread : Json.read? off = some (.object [(['F'], .bool false)]) := by
    with_unfolding_all rfl
  have hkept : (ofTagFiles ([on, off].map .ok)).map (·.get? ['F']) = .ok (some flagText) := by
    decide +kernel
  cases hd : ofTagFiles ([on, off].map .ok) with
  | error fault =>
    rw [hd] at hkept
    contradiction
  | ok d =>
    have hlast : LastOf (fun file => Mentions file ['F']) [on, off] (.bool false) :=
      ⟨[on], off, [], rfl, ⟨_, hread, List.mem_cons_self⟩, List.forall_mem_nil _⟩
    have hnone := h [on, off] d ['F'] (.bool false) none hd hlast .off
    rw [hd, Except.map, hnone] at hkept
    contradiction

end Dictionary

end LineTemplate
