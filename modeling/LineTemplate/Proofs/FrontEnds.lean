import LineTemplate.Proofs.Sessions

/-!
# The ways to a template

A template reaches an expander as bytes that are streamed, as a file that is expanded into another
one, or through the program. Each way decodes it and drops a byte order mark on its own; all three
come to the same text and to what is expanded from it. They differ in what is kept of a run that
fails: a stream holds what was written so far, a file and the program nothing.
-/
namespace LineTemplate

open CommandLine

namespace Expander

variable {e : Expander}

lemma runBytes_encode (e : Expander) (text : Text) :
    e.runBytes (Utf8.encode text) = e.run (Utf8.stripMark text) := by
  rw [runBytes, Utf8.decode?_eq_some_iff.mpr rfl]

lemma runBytes_of_ill_formed {bytes : Bytes} (h : ∀ text, Utf8.encode text ≠ bytes) :
    e.runBytes bytes = .stop (some (.inaccessible .notText)) := by
  rw [runBytes, Utf8.decode?_eq_none_iff.mpr h]

variable {tree created after : FileTree} {template target text : Text} {expansion : Expansion}

lemma expandFile_of_missing (h : tree.content? template = none) :
    e.expandFile tree template target = (.error (.fileNotFound template), tree) := by
  rw [expandFile, FileTree.readText, h]

lemma expandFile_of_ill_formed {bytes : Bytes} (hfile : tree.content? template = some bytes)
    (h : ∀ text, Utf8.encode text ≠ bytes) :
    e.expandFile tree template target = (.error (.inaccessible .notText), tree) := by
  rw [expandFile, FileTree.readText_of_ill_formed hfile h]

lemma expandFile_of_error (hfile : tree.content? template = some (Utf8.encode text))
    {fault : Fault} (h : e.expand (Utf8.stripMark text) = .error fault) :
    e.expandFile tree template target = (.error fault, tree) := by
  simp only [expandFile, FileTree.readText_eq_ok_iff.mpr hfile, h]

lemma expandFile_of_write? (hfile : tree.content? template = some (Utf8.encode text))
    (h : e.expand (Utf8.stripMark text) = .ok expansion)
    (hparent : tree.createParent target = (created, true))
    (hwrite : created.write? target (Utf8.encode expansion.output) = some after) :
    e.expandFile tree template target = (.ok expansion.warnings, after) := by
  simp only [expandFile, FileTree.readText_eq_ok_iff.mpr hfile, h, writeOutput, hparent, hwrite]

/-- A file that is expanded into another one, the directories around which may have to be created:
the other one holds the output, and whatever else was there stays. -/
lemma expandFile_of_creatable (hfile : tree.content? template = some (Utf8.encode text))
    (h : e.expand (Utf8.stripMark text) = .ok expansion) (htarget : tree.Creatable target) :
    ∃ after, e.expandFile tree template target = (.ok expansion.warnings, after) ∧
      after.content? target = some (Utf8.encode expansion.output) ∧
      ∀ location view, tree.seen? location = some view → after.locate? target ≠ some location →
        after.seen? location = some view := by
  obtain ⟨hparent, hwritable⟩ := htarget
  obtain ⟨after, hwrite, hafter⟩ := hwritable.exists_writtenAt (Utf8.encode expansion.output)
  have hcreated : tree.createParent target = ((tree.createParent target).1, true) := by
    rw [← hparent]
  refine ⟨after, expandFile_of_write? hfile h hcreated hwrite, hafter.content,
    fun location view hview hne => ?_⟩
  rw [hafter.paths] at hne
  rw [hafter.elsewhere location hne]
  exact FileTree.seen?_createParent hview

/-- If the directory of the other file is there, then that file is all that changes. -/
lemma expandFile_of_writable (hfile : tree.content? template = some (Utf8.encode text))
    (h : e.expand (Utf8.stripMark text) = .ok expansion) (htarget : tree.Writable target) :
    ∃ after, e.expandFile tree template target = (.ok expansion.warnings, after) ∧
      tree.WrittenAt target (Utf8.encode expansion.output) after := by
  obtain ⟨after, hwrite, hafter⟩ := htarget.exists_writtenAt (Utf8.encode expansion.output)
  have hparent := FileTree.createParent_of_writable htarget
  exact ⟨after, expandFile_of_write? hfile h hparent hwrite, hafter⟩

end Expander

namespace CommandLine

variable {e : Expander} {bytes : Bytes} {i : Invocation} {tree : FileTree} {input : Bytes}

lemma perform_of_ill_formed (hsource : i.source? tree input = some bytes)
    (h : ∀ text, Utf8.encode text ≠ bytes) :
    perform i tree input =
      (⟨[i.reading, .aborted (.inaccessible .notText)], [], 1⟩, tree) := by
  have hread : readTemplate i tree input = .error (.inaccessible .notText) := by
    rw [Invocation.source?] at hsource
    rw [readTemplate]
    split_ifs at hsource ⊢
    · obtain rfl := Option.some.inj hsource
      rw [Utf8.decode?_eq_none_iff.mpr h]
    · exact FileTree.readText_of_ill_formed hsource h
  rw [perform, hread]
  rfl

/-- The three ways from bytes to an expansion agree. Bytes that spell no text are refused by all of
them, and nothing is written. Bytes that spell a text are expanded as this text without the byte
order mark that it may start with: the stream holds what is written of it, complete or not; the file
holds its output if the expansion succeeds, the directories around it being created if need be, and
else nothing is changed; the program prints its output, or nothing. -/
theorem front_ends_agree (e : Expander) (bytes : Bytes) :
    ((∀ text, Utf8.encode text ≠ bytes) →
      (e.runBytes bytes).outcome = .error (.inaccessible .notText) ∧
      (e.runBytes bytes).written e.ending.text = [] ∧
      (∀ tree template target, tree.content? template = some bytes →
        e.expandFile tree template target = (.error (.inaccessible .notText), tree)) ∧
      ∀ w arguments environment tree input i,
        readInvocation arguments environment = .ok i → i.source? tree input = some bytes →
          let ended := run w arguments environment tree input
          ended.1.exitCode = 1 ∧ ended.1.output = [] ∧ ended.2 = tree ∧
            "Error: IO error: stream did not contain valid UTF-8".toList ∈ ended.1.messages) ∧
    (∀ text, Utf8.encode text = bytes →
      let template := Utf8.stripMark text
      (e.runBytes bytes).outcome = e.check template ∧
      (e.runBytes bytes).written e.ending.text = e.written template ∧
      (∀ tree path target, tree.content? path = some bytes →
        (∀ fault, e.expand template = .error fault →
          e.expandFile tree path target = (.error fault, tree)) ∧
        ∀ expansion, e.expand template = .ok expansion →
          (tree.Creatable target →
            ∃ after, e.expandFile tree path target = (.ok expansion.warnings, after) ∧
              after.content? target = some (Utf8.encode expansion.output) ∧
              ∀ location view, tree.seen? location = some view →
                after.locate? target ≠ some location → after.seen? location = some view) ∧
          (tree.Writable target →
            ∃ after, e.expandFile tree path target = (.ok expansion.warnings, after) ∧
              tree.WrittenAt target (Utf8.encode expansion.output) after)) ∧
      ∀ w arguments environment tree input i,
        readInvocation arguments environment = .ok i → i.SetsUp e bytes tree input →
          i.task = .expand none false →
          let ended := run w arguments environment tree input
          ended.2 = tree ∧
            (∀ fault, e.expand template = .error fault →
              ended.1.exitCode = 1 ∧ ended.1.output = []) ∧
            ∀ expansion, e.expand template = .ok expansion →
              ended.1.exitCode = 0 ∧ ended.1.output = expansion.output) ∧
    ∀ tree path target, tree.content? path = none →
      e.expandFile tree path target = (.error (.fileNotFound path), tree) := by
  refine ⟨fun h => ⟨?_, ?_, ?_, ?_⟩, ?_, fun _ _ _ => Expander.expandFile_of_missing⟩
  · rw [Expander.runBytes_of_ill_formed h]
    rfl
  · rw [Expander.runBytes_of_ill_formed h]
    rfl
  · exact fun _ _ _ hfile => Expander.expandFile_of_ill_formed hfile h
  · intro w arguments environment tree input i hi hsource
    rw [run_of_readInvocation hi, perform_of_ill_formed hsource h]
    have hshown : .aborted (.inaccessible .notText) ∈
        [i.reading, .aborted (.inaccessible .notText)].filter (·.isShown i.verbosity) :=
      List.mem_filter.mpr ⟨List.mem_cons_of_mem _ List.mem_cons_self, rfl⟩
    exact ⟨rfl, rfl, rfl, List.mem_map.mpr ⟨_, hshown, rfl⟩⟩
  · rintro text rfl
    refine ⟨?_, ?_, ?_, ?_⟩
    · rw [Expander.runBytes_encode]
      rfl
    · rw [Expander.runBytes_encode]
      rfl
    · intro tree path target hfile
      exact ⟨fun fault => Expander.expandFile_of_error hfile,
        fun expansion hexpand => ⟨Expander.expandFile_of_creatable hfile hexpand,
          Expander.expandFile_of_writable hfile hexpand⟩⟩
    · intro w arguments environment tree input i hi h htask
      rw [run_of_readInvocation hi]
      have hplan : planTask e (Utf8.stripMark text) i.task =
          planExpansion e (Utf8.stripMark text) none false := by
        rw [htask, planTask]
      cases hexpand : e.expand (Utf8.stripMark text) with
      | error fault =>
        rw [planExpansion_of_error hexpand] at hplan
        rw [h.perform_of_done hplan]
        exact ⟨rfl, fun _ _ => ⟨rfl, rfl⟩, fun _ hok => by contradiction⟩
      | ok expansion =>
        rw [planExpansion_of_accepted hexpand (by simp)] at hplan
        rw [h.perform_of_done hplan]
        refine ⟨rfl, fun _ herror => by contradiction, fun other hother => ?_⟩
        obtain rfl := Except.ok.inj hother
        exact ⟨rfl, rfl⟩

/-- Of two byte order marks the second one is part of the text. -/
theorem second_mark_is_text :
    let e : Expander := ⟨.insert .empty "A".toList "x".toList, .cr⟩
    let bytes := Utf8.encode "\ufeff\ufeff%%A%%".toList
    let tree := FileTree.ofFiles ["work".toList, "tmp".toList] [("../t".toList, bytes)]
    let arguments := ["-".toList, "-DA=x".toList, "-ncr".toList]
    let output := "\ufeffx\r".toList
    (e.runBytes bytes).outcome = .ok [] ∧ (e.runBytes bytes).written e.ending.text = output ∧
      (∃ after, e.expandFile tree "/tmp/t".toList "/out/../d/o".toList = (.ok [], after) ∧
        after.content? "/out/../d/o".toList = some (Utf8.encode output)) ∧
      (run default arguments ⟨none, none⟩ tree bytes).1.exitCode = 0 ∧
      (run default arguments ⟨none, none⟩ tree bytes).1.output = output := by
  intro e bytes tree arguments output
  have hexpand : e.expand "\ufeff%%A%%".toList = .ok ⟨output, []⟩ := by decide +kernel
  obtain ⟨hwritten, hcheck⟩ := e.expand_eq_ok_iff.mp hexpand
  let i : Invocation :=
    ⟨"-".toList, [], ["A=x".toList], .cr, .expand none false, .normal⟩
  have hi : readInvocation arguments ⟨none, none⟩ = .ok i := by decide +kernel
  have hsetsUp : i.SetsUp e bytes tree bytes :=
    ⟨by decide +kernel, ⟨e.tags, rfl, fun _ => rfl⟩, rfl⟩
  obtain ⟨-, hread, -⟩ := front_ends_agree e bytes
  obtain ⟨hstream, hstream', hfile, hprogram⟩ := hread "\ufeff\ufeff%%A%%".toList rfl
  obtain ⟨after, hafter, hcontent, -⟩ :=
    ((hfile tree "/tmp/t".toList "/out/../d/o".toList (by decide +kernel)).2 _ hexpand).1
      (by decide +kernel)
  obtain ⟨hcode, hprinted⟩ := (hprogram default arguments _ tree bytes i hi hsetsUp rfl).2.2 _ hexpand
  exact ⟨hstream.trans hcheck, hstream'.trans hwritten, ⟨after, hafter, hcontent⟩, hcode, hprinted⟩

end CommandLine

end LineTemplate
