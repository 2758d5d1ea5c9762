import LineTemplate.CommandLine.Session
import LineTemplate.Proofs.Dependence
import LineTemplate.Proofs.FileTrees
import LineTemplate.Proofs.Production

/-!
# How a session ends

A session that cannot read its template ends with exit code 1, and one with a bad tag file or a bad
definition ends with 2. If all of them are good, an expansion either is delivered as a whole, to one
file or to standard output, or it leaves no trace but its reports.
-/
namespace LineTemplate

namespace Dictionary

lemma exists_addTagFiles_iff {d : Dictionary} {contents : List (Except Fault Text)} :
    (∃ after, d.addTagFiles contents = .ok after) ↔
      ∀ content ∈ contents, ∃ text more, content = .ok text ∧ ofTagFile text = .ok more := by
  induction contents generalizing d with
  | nil => simp [addTagFiles]
  | cons content rest ih =>
    rw [List.forall_mem_cons]
    cases content with
    | error fault => simp [addTagFiles]
    | ok text =>
      rw [addTagFiles]
      cases hread : ofTagFile text with
      | error fault => simp [hread]
      | ok more => simpa [hread] using ih

lemma exists_defineAll_iff {d : Dictionary} {texts : List Text} :
    (∃ after, d.defineAll texts = .ok after) ↔
      ∀ text ∈ texts, ∃ definition, Definition.read text = .ok definition := by
  induction texts generalizing d with
  | nil => simp [defineAll]
  | cons text rest ih =>
    rw [List.forall_mem_cons, defineAll, define]
    cases hread : Definition.read text with
    | error fault => simp
    | ok definition => simpa using ih

end Dictionary

/-- A file of the tree can be read as a tag file. -/
def FileTree.HoldsTags (tree : FileTree) (path : Text) : Prop :=
  ∃ text tags, tree.readText path = .ok text ∧ Dictionary.ofTagFile text = .ok tags

namespace CommandLine

variable {i : Invocation} {tree : FileTree} {input : Bytes}

namespace Invocation

/-- The bytes that the template of an invocation is read from. -/
def source? (i : Invocation) (tree : FileTree) (input : Bytes) : Option Bytes :=
  if i.readsInput then some input else tree.content? i.template

/-- The tags of an invocation are known if each tag file and each definition is good. -/
lemma exists_tags_iff :
    (∃ tags, i.tags (i.tagFiles.map tree.readText) = .ok tags) ↔
      (∀ path ∈ i.tagFiles, tree.HoldsTags path) ∧
        ∀ text ∈ i.definitions, ∃ definition, Definition.read text = .ok definition := by
  have hfiles :
      (∃ tags, Dictionary.empty.addTagFiles (i.tagFiles.map tree.readText) = .ok tags) ↔ _ :=
    Dictionary.exists_addTagFiles_iff
  rw [List.forall_mem_map] at hfiles
  rw [tags, Dictionary.ofTagFiles]
  simp only [FileTree.HoldsTags]
  rw [← hfiles]
  cases hadd : Dictionary.empty.addTagFiles (i.tagFiles.map tree.readText) with
  | error fault => simp [Except.bind]
  | ok tags => simpa [Except.bind] using Dictionary.exists_defineAll_iff

end Invocation

lemma run_of_readInvocation {arguments : List Text} {environment : Environment}
    (h : readInvocation arguments environment = .ok i) (w : Wording) (tree : FileTree)
    (input : Bytes) :
    run w arguments environment tree input =
      ((perform i tree input).1.report w i.verbosity, (perform i tree input).2) := by
  rw [run, h]

lemma readTemplate_eq_ok_iff {text : Text} :
    readTemplate i tree input = .ok text ↔ i.source? tree input = some (Utf8.encode text) := by
  rw [readTemplate, Invocation.source?]
  split_ifs
  · rw [Option.some.injEq, eq_comm (a := input), ← Utf8.decode?_eq_some_iff]
    cases Utf8.decode? input <;> simp
  · exact FileTree.readText_eq_ok_iff

lemma perform_of_unreadable (h : ∀ text, i.source? tree input ≠ some (Utf8.encode text)) :
    ∃ events, perform i tree input = (⟨events, [], 1⟩, tree) := by
  rw [perform]
  cases hread : readTemplate i tree input with
  | ok text => exact absurd (readTemplate_eq_ok_iff.mp hread) (h text)
  | error fault => exact ⟨_, rfl⟩

variable {text : Text}

lemma perform_of_bad_tags (h : i.source? tree input = some (Utf8.encode text))
    (htags : ∀ tags, i.tags (i.tagFiles.map tree.readText) ≠ .ok tags) :
    ∃ events, perform i tree input = (⟨events, [], 2⟩, tree) := by
  rw [perform, readTemplate_eq_ok_iff.mpr h, Invocation.plan]
  cases hread : i.tags (i.tagFiles.map tree.readText) with
  | ok tags => exact absurd hread (htags tags)
  | error fault => exact ⟨_, rfl⟩

variable {tags : Dictionary}

lemma perform_of_done (h : i.source? tree input = some (Utf8.encode text))
    (htags : i.tags (i.tagFiles.map tree.readText) = .ok tags) {outcome : Outcome}
    (hplan : planTask ⟨tags, i.ending⟩ (Utf8.stripMark text) i.task = .done outcome) :
    perform i tree input = ({ outcome with events := i.reading :: outcome.events }, tree) := by
  simp only [perform, readTemplate_eq_ok_iff.mpr h, Invocation.plan, htags, hplan]

lemma perform_of_write (h : i.source? tree input = some (Utf8.encode text))
    (htags : i.tags (i.tagFiles.map tree.readText) = .ok tags) {events : List Event}
    {path output : Text}
    (hplan : planTask ⟨tags, i.ending⟩ (Utf8.stripMark text) i.task = .write events path output) :
    (tree.Writable path ∧ ∃ events after, perform i tree input = (⟨events, [], 0⟩, after) ∧
        tree.WrittenAt path (Utf8.encode output) after) ∨
      (¬ tree.Writable path ∧ ∃ events, perform i tree input = (⟨events, [], 1⟩, tree)) := by
  simp only [perform, readTemplate_eq_ok_iff.mpr h, Invocation.plan, htags, hplan]
  by_cases hpath : tree.Writable path
  · obtain ⟨after, hwrite, hafter⟩ := hpath.exists_writtenAt (Utf8.encode output)
    simp only [hwrite]
    exact .inl ⟨hpath, _, after, rfl, hafter⟩
  · simp only [FileTree.write?_eq_none_iff.mpr hpath]
    exact .inr ⟨hpath, _, rfl⟩

variable {e : Expander}

/-- What is planned depends on the answers of the dictionary only. -/
lemma planTask_congr {e' : Expander} (hending : e.ending = e'.ending)
    (h : ∀ name, e.tags.get? name = e'.tags.get? name) (template : Text) (task : Task) :
    planTask e template task = planTask e' template task := by
  have hrun : e.run template = e'.run template :=
    Expander.runFrom_congr hending (fun r _ => h r.tag) .start
  cases task with
  | expand output strict => simp only [planTask, planExpansion, hrun, hending]
  | check => simp only [planTask, checkOutcome, hrun]
  | list format =>
    have hdescribe : describe e.tags = describe e'.tags := by
      funext r
      rw [describe, describe, definedText, definedText, h]
    have hjson : referenceJson e.tags = referenceJson e'.tags := by
      funext r
      rw [referenceJson, referenceJson, Dictionary.contains, Dictionary.contains, h]
    cases format <;> simp only [planTask, listing, hdescribe, hjson]

/-- An invocation sets up an expander for some bytes: they are read as its template, its line ending
is that of the expander, and its tag files and definitions give the same answers as the dictionary
of the expander. -/
structure Invocation.SetsUp (i : Invocation) (e : Expander) (bytes : Bytes) (tree : FileTree)
    (input : Bytes) : Prop where
  source : i.source? tree input = some bytes
  tags : ∃ tags, i.tags (i.tagFiles.map tree.readText) = .ok tags ∧
    ∀ name, tags.get? name = e.tags.get? name
  ending : i.ending = e.ending

lemma Invocation.SetsUp.perform_of_done (h : i.SetsUp e (Utf8.encode text) tree input)
    {outcome : Outcome} (hplan : planTask e (Utf8.stripMark text) i.task = .done outcome) :
    perform i tree input = ({ outcome with events := i.reading :: outcome.events }, tree) := by
  obtain ⟨tags, htags, hsame⟩ := h.tags
  refine CommandLine.perform_of_done h.source htags ?_
  rw [planTask_congr h.ending hsame]
  exact hplan

variable {template : Text} {output : Option Text} {strict : Bool}

lemma planExpansion_of_error {fault : Fault} (h : e.expand template = .error fault) :
    planExpansion e template output strict =
      .done (Plan.fail ((e.run template).warnings.map .undefinedTag) fault) := by
  rw [Expander.expand_eq_error_iff, Expander.check, Run.outcome] at h
  cases hfault : (e.run template).fault with
  | none => simp [hfault] at h
  | some found =>
    rw [hfault] at h
    obtain rfl := Except.error.inj h
    simp only [planExpansion, hfault]

lemma run_of_expand {expansion : Expansion} (h : e.expand template = .ok expansion) :
    (e.run template).fault = none ∧ (e.run template).warnings = expansion.warnings ∧
      (e.run template).written e.ending.text = expansion.output := by
  obtain ⟨hwritten, hcheck⟩ := e.expand_eq_ok_iff.mp h
  rw [Expander.check, Run.outcome] at hcheck
  cases hfault : (e.run template).fault with
  | some fault => simp [hfault] at hcheck
  | none =>
    rw [hfault] at hcheck
    exact ⟨rfl, Except.ok.inj hcheck, hwritten⟩

lemma planExpansion_of_refused {expansion : Expansion} (h : e.expand template = .ok expansion)
    (hstrict : strict = true ∧ expansion.warnings ≠ []) :
    planExpansion e template output strict =
      .done ⟨expansion.warnings.map .undefinedTag ++ expansion.warnings.map .undefinedError ++
        [.abortedUndefined expansion.warnings.length], [], 1⟩ := by
  obtain ⟨hfault, hwarnings, -⟩ := run_of_expand h
  simp only [planExpansion, hfault, hwarnings, if_pos hstrict]

lemma planExpansion_of_accepted {expansion : Expansion} (h : e.expand template = .ok expansion)
    (hstrict : ¬ (strict = true ∧ expansion.warnings ≠ [])) :
    planExpansion e template output strict =
      match output with
      | none => .done ⟨expansion.warnings.map .undefinedTag ++ [.completed], expansion.output, 0⟩
      | some path => .write (expansion.warnings.map .undefinedTag) path expansion.output := by
  obtain ⟨hfault, hwarnings, hwritten⟩ := run_of_expand h
  cases output <;> simp only [planExpansion, hfault, hwarnings, if_neg hstrict, hwritten]

/-- A check succeeds exactly if an expansion would, and without warnings. -/
lemma exitCode_checkOutcome_eq_zero_iff :
    (checkOutcome e template).exitCode = 0 ↔ e.check template = .ok [] := by
  rw [checkOutcome, Expander.check, Run.outcome]
  cases (e.run template).fault with
  | some fault => simp [Plan.fail]
  | none => simp

/-- An expansion is let through, and its output can be put where it is asked for. -/
structure Delivers (e : Expander) (template : Text) (output : Option Text) (strict : Bool)
    (tree : FileTree) (expansion : Expansion) : Prop where
  expanded : e.expand template = .ok expansion
  allowed : expansion.warnings = [] ∨ strict = false
  writable : ∀ path, output = some path → tree.Writable path

/-- What a delivered expansion leaves behind: its output is printed, or it stands in one file and
nothing is printed, and nothing else is changed. -/
def Leaves (output : Option Text) (expanded printed : Text) (tree after : FileTree) : Prop :=
  match output with
  | none => printed = expanded ∧ after = tree
  | some path => printed = [] ∧ tree.WrittenAt path (Utf8.encode expanded) after

/-- An expansion is delivered as a whole, or it ends with exit code 1 and leaves nothing behind. -/
lemma perform_expansion (h : i.source? tree input = some (Utf8.encode text))
    (htags : i.tags (i.tagFiles.map tree.readText) = .ok tags)
    (htask : i.task = .expand output strict) :
    (∃ expansion,
      Delivers ⟨tags, i.ending⟩ (Utf8.stripMark text) output strict tree expansion ∧
        ∃ events printed after, perform i tree input = (⟨events, printed, 0⟩, after) ∧
          Leaves output expansion.output printed tree after) ∨
      (∀ expansion,
        ¬ Delivers ⟨tags, i.ending⟩ (Utf8.stripMark text) output strict tree expansion) ∧
        ∃ events, perform i tree input = (⟨events, [], 1⟩, tree) := by
  have hplan : planTask ⟨tags, i.ending⟩ (Utf8.stripMark text) i.task =
      planExpansion ⟨tags, i.ending⟩ (Utf8.stripMark text) output strict := by
    rw [htask, planTask]
  cases hexpand : Expander.expand ⟨tags, i.ending⟩ (Utf8.stripMark text) with
  | error fault =>
    rw [planExpansion_of_error hexpand] at hplan
    refine .inr ⟨fun expansion hd => ?_, _, perform_of_done h htags hplan⟩
    rw [hd.expanded] at hexpand
    contradiction
  | ok expansion =>
    have hunique {other : Expansion}
        (hd : Delivers ⟨tags, i.ending⟩ (Utf8.stripMark text) output strict tree other) :
        other = expansion := by
      rw [hd.expanded] at hexpand
      exact Except.ok.inj hexpand
    by_cases hstrict : strict = true ∧ expansion.warnings ≠ []
    · rw [planExpansion_of_refused hexpand hstrict] at hplan
      refine .inr ⟨fun other hd => ?_, _, perform_of_done h htags hplan⟩
      obtain rfl := hunique hd
      rcases hd.allowed with hnone | hlax
      · exact hstrict.2 hnone
      · simp [hlax] at hstrict
    · rw [planExpansion_of_accepted hexpand hstrict] at hplan
      have hallowed : expansion.warnings = [] ∨ strict = false := by
        cases strict <;> simp_all
      cases output with
      | none =>
        refine .inl ⟨expansion, ⟨hexpand, hallowed, ?_⟩, _, _, _, perform_of_done h htags hplan,
          rfl, rfl⟩
        rintro path ⟨⟩
      | some path =>
        rcases perform_of_write h htags hplan with ⟨hpath, events, after, hperform, hafter⟩ |
          ⟨hpath, events, hperform⟩
        · refine .inl ⟨expansion, ⟨hexpand, hallowed, ?_⟩, events, [], after, hperform, rfl, hafter⟩
          rintro _ ⟨⟩
          exact hpath
        · exact .inr ⟨fun other hd => hpath (hd.writable path rfl), events, hperform⟩

/-- A session that does not get to its task leaves nothing behind. -/
lemma perform_cases (i : Invocation) (tree : FileTree) (input : Bytes) :
    (∃ events code, perform i tree input = (⟨events, [], code⟩, tree)) ∨
      ∃ text tags, i.source? tree input = some (Utf8.encode text) ∧
        i.tags (i.tagFiles.map tree.readText) = .ok tags := by
  by_cases h : ∃ text, i.source? tree input = some (Utf8.encode text)
  · obtain ⟨text, h⟩ := h
    by_cases htags : ∃ tags, i.tags (i.tagFiles.map tree.readText) = .ok tags
    · obtain ⟨tags, htags⟩ := htags
      exact .inr ⟨text, tags, h, htags⟩
    · obtain ⟨events, hperform⟩ := perform_of_bad_tags h (not_exists.mp htags)
      exact .inl ⟨events, 2, hperform⟩
  · obtain ⟨events, hperform⟩ := perform_of_unreadable (not_exists.mp h)
    exact .inl ⟨events, 1, hperform⟩

/-- Checking and listing write no file. -/
lemma tree_of_perform (h : ∀ output strict, i.task ≠ .expand output strict) :
    (perform i tree input).2 = tree := by
  rcases perform_cases i tree input with ⟨events, code, hperform⟩ | ⟨text, tags, hsource, htags⟩
  · rw [hperform]
  · obtain ⟨outcome, hplan⟩ : ∃ outcome,
        planTask ⟨tags, i.ending⟩ (Utf8.stripMark text) i.task = .done outcome := by
      cases htask : i.task with
      | expand output strict => exact absurd htask (h output strict)
      | check => exact ⟨_, rfl⟩
      | list format => exact ⟨_, rfl⟩
    rw [perform_of_done hsource htags hplan]

/-- The exit code of each command line that makes sense tells how far its session came: 1 if its
template cannot be read, else 2 if a tag file or a definition is bad, and else 0 for an expansion
exactly if it is delivered. What is delivered is just the expansion. An expansion that ends with
another exit code leaves nothing behind, and checking and listing write no file. -/
theorem exit_code_tells_what_is_left (w : Wording) {arguments : List Text}
    {environment : Environment} {i : Invocation}
    (h : readInvocation arguments environment = .ok i) (tree : FileTree) (input : Bytes) :
    let report := (run w arguments environment tree input).1
    let after := (run w arguments environment tree input).2
    ((∀ text, i.source? tree input ≠ some (Utf8.encode text)) → report.exitCode = 1) ∧
      (∀ text, i.source? tree input = some (Utf8.encode text) →
        ((∃ path ∈ i.tagFiles, ¬ tree.HoldsTags path) ∨
            (∃ text ∈ i.definitions, ∀ definition, Definition.read text ≠ .ok definition) →
          report.exitCode = 2) ∧
        ((∀ path ∈ i.tagFiles, tree.HoldsTags path) →
          (∀ text ∈ i.definitions, ∃ definition, Definition.read text = .ok definition) →
          ∃ tags, i.tags (i.tagFiles.map tree.readText) = .ok tags ∧
            ∀ output strict, i.task = .expand output strict →
              (report.exitCode = 0 ↔ ∃ expansion,
                Delivers ⟨tags, i.ending⟩ (Utf8.stripMark text) output strict tree expansion) ∧
              ∀ expansion,
                Delivers ⟨tags, i.ending⟩ (Utf8.stripMark text) output strict tree expansion →
                  Leaves output expansion.output report.output tree after)) ∧
      (∀ output strict, i.task = .expand output strict → report.exitCode ≠ 0 →
        report.output = [] ∧ after = tree) ∧
      ((∀ output strict, i.task ≠ .expand output strict) → after = tree) := by
  rw [run_of_readInvocation h]
  dsimp only [Outcome.report]
  refine ⟨fun hsource => ?_, fun text hsource => ⟨fun hbad => ?_, fun hfiles hdefinitions => ?_⟩,
    fun output strict htask hcode => ?_, tree_of_perform⟩
  · obtain ⟨events, hperform⟩ := perform_of_unreadable hsource
    rw [hperform]
  · have htags : ¬ ∃ tags, i.tags (i.tagFiles.map tree.readText) = .ok tags := by
      rw [Invocation.exists_tags_iff]
      rintro ⟨hfiles, hdefinitions⟩
      rcases hbad with ⟨path, hpath, hnot⟩ | ⟨text, htext, hnot⟩
      · exact hnot (hfiles path hpath)
      · obtain ⟨definition, hread⟩ := hdefinitions text htext
        exact hnot definition hread
    obtain ⟨events, hperform⟩ := perform_of_bad_tags hsource (not_exists.mp htags)
    rw [hperform]
  · obtain ⟨tags, htags⟩ := Invocation.exists_tags_iff.mpr ⟨hfiles, hdefinitions⟩
    refine ⟨tags, htags, fun output strict htask => ?_⟩
    rcases perform_expansion hsource htags htask with
      ⟨expansion, hd, events, printed, after, hperform, hleaves⟩ | ⟨hnone, events, hperform⟩
    · rw [hperform]
      refine ⟨⟨fun _ => ⟨expansion, hd⟩, fun _ => rfl⟩, fun other hother => ?_⟩
      obtain rfl := Except.ok.inj (hother.expanded.symm.trans hd.expanded)
      exact hleaves
    · rw [hperform]
      refine ⟨⟨fun hzero => ?_, fun ⟨expansion, hd⟩ => absurd hd (hnone expansion)⟩,
        fun expansion hd => absurd hd (hnone expansion)⟩
      contradiction
  · rcases perform_cases i tree input with ⟨events, code, hperform⟩ | ⟨text, tags, hsource, htags⟩
    · rw [hperform]
      exact ⟨rfl, rfl⟩
    · rcases perform_expansion hsource htags htask with
        ⟨expansion, hd, events, printed, after, hperform, -⟩ | ⟨-, events, hperform⟩
      · rw [hperform] at hcode
        contradiction
      · rw [hperform]
        exact ⟨rfl, rfl⟩

/-- A template with a byte order mark, given by its path from the root and expanded into a new file
beside the directory where the session starts, with a definition and a line ending from the
environment. -/
theorem strict_expansion_writes_one_file :
    let arguments := ["-qo../o".toList, "--strict".toList, "-DA = x".toList, "/tmp/t".toList]
    let environment : Environment := ⟨none, some "crlf".toList⟩
    let tree := FileTree.ofFiles ["work".toList, "tmp".toList]
      [("/tmp/t".toList, Utf8.encode "\ufeff[%%A%%]".toList)]
    let i : Invocation :=
      ⟨"/tmp/t".toList, [], ["A = x".toList], .crlf, .expand (some "../o".toList) true, .quiet⟩
    let ended := run default arguments environment tree []
    readInvocation arguments environment = .ok i ∧ ended.1.exitCode = 0 ∧ ended.1.output = [] ∧
      tree.WrittenAt "../o".toList (Utf8.encode "[ x]\r\n".toList) ended.2 := by
  intro arguments environment tree i ended
  have h : readInvocation arguments environment = .ok i := by decide +kernel
  have hsource : i.source? tree [] = some (Utf8.encode "\ufeff[%%A%%]".toList) := by decide +kernel
  obtain ⟨-, hread, -⟩ := exit_code_tells_what_is_left default h tree []
  obtain ⟨tags, htags, hexpansion⟩ := (hread _ hsource).2 (List.forall_mem_nil _) (by
    rintro text ⟨⟩
    · exact ⟨⟨"A".toList, some " x".toList⟩, by decide +kernel⟩
    · contradiction)
  obtain ⟨hzero, hleaves⟩ := hexpansion _ _ rfl
  obtain rfl : Dictionary.empty.insert "A".toList " x".toList = tags := Except.ok.inj htags
  have hdelivers : Delivers ⟨Dictionary.empty.insert "A".toList " x".toList, .crlf⟩
      "[%%A%%]".toList (some "../o".toList) true tree ⟨"[ x]\r\n".toList, []⟩ := by
    refine ⟨by decide +kernel, .inl rfl, ?_⟩
    rintro path ⟨⟩
    decide +kernel
  exact ⟨h, hzero.mpr ⟨_, hdelivers⟩, hleaves _ hdelivers⟩

end CommandLine

end LineTemplate
