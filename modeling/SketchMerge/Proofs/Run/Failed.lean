import SketchMerge.Proofs.Run.Delivered
import SketchMerge.Proofs.Run.Writable

/-! # What a failed run leaves behind

    A run that fails before it clears the output folder changes nothing.  One that
    fails later has changed entries of the output folder only, and NO MERGED SKETCH
    IS THERE: the old one is cleared, and the new one is written last and in one
    piece, since what is composed can be written.  Only an old one may be left, where
    it could not be cleared, and the log goes on in every case. -/

namespace SketchMerge

namespace Fault

/-- The fault comes from reading the configuration or from finding the project. -/
def isEarly : Fault → Bool
  | .project _ | .settings _ => true
  | _ => false

/-- Only early faults refuse the input. -/
theorem isEarly_of_isRefusal {fault : Fault} (h : fault.isRefusal = true) :
    fault.isEarly = true := by
  cases fault with
  | project cause => rfl
  | settings cause => rfl
  | tool cause => exact h
  | composing cause => exact h
  | file cause => exact h
  | foreign message => exact h

end Fault

namespace World

/-- The files are as they were, the log apart. -/
def Unchanged (w w' : World) : Prop :=
  ∀ l, w.Quiet l → w'.disk.tree.get? l = w.disk.tree.get? l

theorem Agrees.unchanged {w w' : World} (h : Agrees w w') : Unchanged w w' :=
  fun l hl => h.same l trivial hl

end World

namespace Pipeline

open World Project

variable {p : Pipeline} {project output : Option Text} {w w' : World} {r t : Location}
  {s : Settings} {m : Merged}

/-- The system can handle the path of every entry of the folder. -/
def Reachable (w : World) (t : Location) : Prop :=
  ∀ name, (w.disk.tree.get? (t ++ [name])).isSome → Disk.tooLong (t ++ [name]) = false

/-- Where the merged sketch of a project is written to. -/
def sketchIn (r t : Location) : Location :=
  t ++ [(Path.absolute r).name ++ ".ino"]

/-- Nothing has changed but entries of the output folder, and no merged sketch is there.  Two
    kinds of folders may not be rid of an old one: one that has entries with paths too long to
    look at, and that of the project at the root, whose merged sketch has a name without an
    ending.  Even then there is NO NEW ONE, nor a part of it. -/
structure LeftUndone (w : World) (r t : Location) (w' : World) : Prop where
  outside : ∀ l, (∀ name, l ≠ t ++ [name]) → w.Quiet l →
    w'.disk.tree.get? l = w.disk.tree.get? l
  noSketch : r ≠ [] → Reachable w t → w'.disk.tree.hasFile (sketchIn r t) = false
  noNew : ∀ content, w.Quiet (sketchIn r t) →
    w'.disk.tree.get? (sketchIn r t) = some (.file content) →
    w.disk.tree.get? (sketchIn r t) = some (.file content)

theorem Apart.outside (h : Apart w r t s w') {l : Location} (hl : ∀ name, l ≠ t ++ [name])
    (hq : w.Quiet l) : w'.disk.tree.get? l = w.disk.tree.get? l := by
  refine h.same l ?_ hq
  rintro ⟨name, heq, -⟩
  exact hl name heq

/-- Once the output folder is cleared, there is no merged sketch in it. -/
theorem Prepared.noSketch (h : Prepared w r t s w') (hgrounds : Grounds w project output r t s)
    (hne : r ≠ []) (hfirst : s.sketchEndings.head? = some ".ino") :
    w'.disk.tree.hasFile (sketchIn r t) = false := by
  rw [sketchIn]
  have hname : (Path.absolute r).name ≠ [] := by
    show r.getLast?.getD [] ≠ []
    rw [List.getLast?_eq_some_getLast hne]
    exact (hgrounds.standing.1.valid _ (List.getLast_mem hne)).notEmpty
  obtain ⟨rest, hendings⟩ := List.head?_eq_some_iff.mp hfirst
  have hmem : (".ino" : Text) ∈ s.sketchEndings := hendings ▸ List.mem_cons_self ..
  have hending : FileName.ending ((Path.absolute r).name ++ ".ino") = ".ino" :=
    (hgrounds.proper _ (List.mem_append_left _ hmem)).ending_append hname
  have hcompanion : listed w.disk.tree r s.companionEndings ((Path.absolute r).name ++ ".ino")
      = false := by
    refine Bool.eq_false_iff.mpr fun hlisted => ?_
    exact hgrounds.disjoint _ hmem (hending ▸ (listed_iff.mp hlisted).2)
  cases hfile : w.disk.tree.hasFile (t ++ [(Path.absolute r).name ++ ".ino"]) with
  | true =>
      have hgone := h.gone _ (listed_iff.mpr
        ⟨hfile, List.mem_append_left _ (hending.symm ▸ hmem)⟩) hcompanion
      rw [Tree.hasFile, hgone]
  | false =>
      rw [← hfile]
      refine Tree.hasFile_like (h.apart.like _ ?_)
      rintro ⟨name, heq, hlisted⟩
      obtain rfl := (List.cons.inj (List.append_cancel_left heq)).1
      rcases hlisted with hlisted | hlisted
      · cases (listed_iff.mp hlisted).1.symm.trans hfile
      · cases hlisted.symm.trans hcompanion

/-- The merged sketch of the project at the root is never cleared or copied. -/
theorem Prepared.sketch_root (h : Prepared w [] t s w')
    (hgrounds : Grounds w project output [] t s) (hfirst : s.sketchEndings.head? = some ".ino")
    (hquiet : w.Quiet (sketchIn [] t)) :
    w'.disk.tree.get? (sketchIn [] t) = w.disk.tree.get? (sketchIn [] t) := by
  refine h.apart.same _ ?_ hquiet
  rintro ⟨name, heq, hlisted⟩
  obtain rfl := (List.cons.inj (List.append_cancel_left heq)).1
  have hmem : FileName.ending ".ino" ∈ s.sketchEndings ++ s.companionEndings := by
    rcases hlisted with hlisted | hlisted
    · exact (listed_iff.mp hlisted).2
    · exact List.mem_append_right _ (listed_iff.mp hlisted).2
  obtain ⟨rest, hendings⟩ := List.head?_eq_some_iff.mp hfirst
  have hproper : FileName.Proper ".ino" :=
    hgrounds.proper _ (List.mem_append_left _ (hendings ▸ List.mem_cons_self ..))
  rw [hproper.ending_self] at hmem
  exact (hgrounds.proper _ hmem).ne_nil rfl

/-- Once the output folder is cleared, there is no new merged sketch in it. -/
theorem Prepared.noNew (h : Prepared w r t s w') (hgrounds : Grounds w project output r t s)
    (hfirst : s.sketchEndings.head? = some ".ino") {content : List UInt8}
    (hquiet : w.Quiet (sketchIn r t))
    (hget : w'.disk.tree.get? (sketchIn r t) = some (.file content)) :
    w.disk.tree.get? (sketchIn r t) = some (.file content) := by
  by_cases hne : r = []
  · subst hne
    rw [← h.sketch_root hgrounds hfirst hquiet]
    exact hget
  · have hnone := h.noSketch hgrounds hne hfirst
    rw [Tree.hasFile, hget] at hnone
    cases hnone

-- ── The lines and the text of a run ─────────────────────────────────────────

/-- What a tool prints is decoded, so its tag lines can be written. -/
theorem writable_printed {executable : Text} {tool : Tool} {lines : List Text}
    (h : Tag.tagLines executable (some (Extraction.printed tool)) = .ok lines) :
    ∀ line ∈ lines, Utf8.Writable line := by
  rw [Tag.tagLines] at h
  split at h
  · exact nomatch h
  · split at h
    · exact nomatch h
    · rw [← Except.ok.inj h]
      intro line hline
      have hprinted : Utf8.Writable (Extraction.printedText tool.stdout) :=
        (Utf8.writable_decode _).unifyNewlines
      exact hprinted.subset (Text.splitLines_subset _ line hline)

/-- The tag lines of a run can be written if those of its extractor can. -/
theorem Reports.writable {bytes : List UInt8} {lines : List Text} (h : Reports p w s bytes lines)
    (hanswers : ∀ answer content lines, p.extractor = some answer → answer content = .ok lines →
      ∀ line ∈ lines, Utf8.Writable line) : ∀ line ∈ lines, Utf8.Writable line := by
  cases h with
  | extractor hextractor hlines => exact hanswers _ _ _ hextractor hlines
  | tool _ _ hlines => exact writable_printed hlines

/-- The merged text of a run can be written. -/
theorem Decided.writable_buffer {prepared : World}
    (h : Decided p project output w m (.absolute r) prepared) (hw : w.Sound)
    (hr : w.disk.tree.Standing r) : Utf8.Writable m.buffer.text := by
  have hagree : Agrees w (w.note (startNote (.absolute r) m.variant)) := agree_note w _
  have hnoted := hw.note (startNote (.absolute r) m.variant)
  obtain ⟨files, hfiles, hsketches⟩ := scan_sketches hnoted.tree hnoted.distinct hnoted.here
    (hagree.alike.tree.standing hr) h.scan
  rw [Merged.buffer, hfiles]
  refine Buffer.writable_unify _ fun f hf g hg => ?_
  have hname := ((hsketches.mem f.1).mp (List.mem_map_of_mem hf)).1
  exact (Files.barredText?_eq_none.mp (valid_of_mem_names hnoted.tree f.1 hname).written g hg).1

-- ── Failed runs ─────────────────────────────────────────────────────────────

/-- A run with the usual endings, in a world without links in its folders, whose extractor
    answers with what decoded bytes can give. -/
structure Usual (p : Pipeline) (project output : Option Text) (w : World) : Prop where
  sound : w.Sound
  room : w.Room
  folders : ∀ r t, Project.folders w.disk project output = .ok (.absolute r, .absolute t) →
    w.disk.tree.NoLinks r ∧ w.disk.tree.NoLinks t
  settings : ∀ r t s, Project.folders w.disk project output = .ok (.absolute r, .absolute t) →
    Settings.load w.disk (.absolute r) = .ok s →
    s.sketchEndings = Settings.sketchEndings { root := .absolute r } ∧
      s.companionEndings = Settings.companionEndings { root := .absolute r }
  answers : ∀ answer content lines, p.extractor = some answer → answer content = .ok lines →
    ∀ line ∈ lines, Utf8.Writable line

/-- The usual endings are grounds for a run. -/
theorem Usual.grounds (h : Usual p project output w)
    (hfolders : Project.folders w.disk project output = .ok (.absolute r, .absolute t))
    (hload : Settings.load w.disk (.absolute r) = .ok s) :
    Grounds w project output r t s ∧ s.sketchEndings.head? = some ".ino" := by
  obtain ⟨hrlinks, htlinks⟩ := h.folders r t hfolders
  obtain ⟨hsketches, hcompanions⟩ := h.settings r t s hfolders hload
  have hproper : ∀ e ∈ s.sketchEndings ++ s.companionEndings, FileName.Proper e := by
    rw [hsketches, hcompanions]
    show ∀ e ∈ [".ino", ".pde"].map Text.ofString ++ [".cpp", ".c", ".h", ".S"].map Text.ofString,
      FileName.Proper e
    decide
  have hdisjoint : ∀ e ∈ s.sketchEndings, e ∉ s.companionEndings := by
    rw [hsketches, hcompanions]
    show ∀ e ∈ [".ino", ".pde"].map Text.ofString, e ∉ [".cpp", ".c", ".h", ".S"].map Text.ofString
    decide
  exact ⟨⟨h.sound, h.room, hfolders, hload, hrlinks, htlinks, hproper, hdisjoint⟩,
    by rw [hsketches]; rfl⟩

/-- How a run that fails leaves the files: as they were, or with the output folder cleared, or
    with clearing given up on the way. -/
inductive Ending (project output : Option Text) (w : World) (fault : Fault) (w' : World) : Prop
  | untouched (h : Agrees w w') : Ending project output w fault w'
  | givenUp {r t : Location} {s : Settings} (hlate : fault.isEarly = false)
      (hfolders : Project.folders w.disk project output = .ok (.absolute r, .absolute t))
      (hlong : ¬ Reachable w t) (h : Apart w r t s w') (hless : NothingNew w w') :
      Ending project output w fault w'
  | touched {r t : Location} {s : Settings} (hlate : fault.isEarly = false)
      (hgrounds : Grounds w project output r t s) (h : Prepared w r t s w') :
      Ending project output w fault w'

theorem Ending.trans_agrees {fault : Fault} {w₁ : World} (h : Ending project output w fault w₁)
    (hagree : Agrees w₁ w') : Ending project output w fault w' := by
  cases h with
  | untouched h => exact .untouched (h.trans hagree)
  | givenUp hlate hfolders hlong h hless =>
      exact .givenUp hlate hfolders hlong (h.trans_agrees hagree) (hless.trans_agrees h hagree)
  | touched hlate hgrounds h => exact .touched hlate hgrounds (h.trans_agrees hagree)

theorem ending_of_merge (h : Usual p project output w) {fault : Fault}
    (hmerge : p.merge project output w = (.error fault, w')) :
    Ending project output w fault w' := by
  have hcases := merge_merges p project output w
  rw [hmerge] at hcases
  cases hcases with
  | noFolders => exact .untouched (.refl w)
  | noSettings => exact .untouched (.refl w)
  | noVariant => exact .untouched (.refl w)
  | notPrepared hfolders hload hvariant hprepare =>
      rename_i root target s v
      obtain ⟨r, t, rfl, rfl, hr, ht, hne⟩ := folders_eq_ok h.sound.tree h.sound.here hfolders
      obtain ⟨hrlinks, htlinks⟩ := h.folders r t hfolders
      have hagree : Agrees w (w.note (startNote (.absolute r) v)) := agree_note w _
      have hpreparation := prepare_preparation (s := s) (h.sound.note _)
        (hagree.alike.tree.standing hr) (hagree.alike.tree.standing ht) hne
        (hagree.alike.tree.noLinks hrlinks) (hagree.alike.tree.noLinks htlinks)
      rw [hprepare] at hpreparation
      cases hpreparation with
      | notFound => exact .untouched hagree
      | notStarted hstart => exact .untouched (hagree.trans hstart)
      | tooLong hapart hless hname hlong =>
          refine .givenUp rfl hfolders (fun hreach => ?_) (hapart.of_agrees hagree)
            (hless.of_agrees hagree)
          rw [(hagree.alike.tree _).isSome] at hname
          exact nomatch (hreach _ hname).symm.trans hlong
      | notCopied hprepared =>
          exact .touched rfl (h.grounds hfolders hload).1 (hprepared.of_agrees hagree)

theorem isEarly_of_call {executable : Text} {arguments : List Text} {source : Path}
    {content : List UInt8} {fault : Fault}
    (h : Extraction.call executable arguments source content w = (.error fault, w')) :
    fault.isEarly = false := by
  have hcases := Extraction.call_calls executable arguments source content w
  rw [h] at hcases
  cases hcases with
  | barred => rfl
  | uncallable => rfl

/-- Extracting has faults of its own. -/
theorem isEarly_of_extract {from_ : TagSource} {name text : Text} {fault : Fault}
    (h : Extraction.extract from_ name text w = (.error fault, w')) : fault.isEarly = false := by
  have hcases := Extraction.extract_extracts from_ name text w
  rw [h] at hcases
  cases hcases with
  | notWritten => rfl
  | asked hwrite hask =>
      rename_i d w₁
      have hanswers := Extraction.tagLines_answers from_ (Extraction.copyPath w.temporary name)
        (w.withFolder.withDisk d)
      generalize hout : Extraction.tagLines from_ _ _ = out at hask hanswers
      cases hanswers with
      | extractor answer =>
          have hfault := (Prod.mk.inj hask).1
          generalize answer _ = result at hfault
          cases result with
          | ok lines => exact nomatch hfault
          | error cause =>
              rw [← Except.error.inj hfault]
              cases cause with
              | tool cause => rfl
              | other message => rfl
      | notCalled hcall =>
          obtain rfl := Except.error.inj (Prod.mk.inj hask).1
          exact isEarly_of_call hcall
      | noLines =>
          obtain rfl := Except.error.inj (Prod.mk.inj hask).1
          rfl
      | printed => exact nomatch (Prod.mk.inj hask).1

/-- A text that can be written is written in one piece or not at all. -/
theorem agree_of_write {name text : Text} {fault : Files.Fault} {d : Disk}
    (ht : w.disk.tree.Standing t) (hname : Tree.Named name)
    (hlink : ∀ target, w.disk.tree.get? (t ++ [name]) ≠ some (.link target))
    (hwritable : Utf8.Writable text)
    (h : w.disk.writeText (.absolute (t ++ [name])) text = (.error fault, d)) :
    Agrees w (w.withDisk d) := by
  rcases Disk.writeText_child ht hname hlink text
    with ⟨fault', hout⟩ | ⟨-, ⟨place, hplace, -⟩ | hout⟩
  · rw [← (Prod.mk.inj (hout.symm.trans h)).2]
    exact agree_withDisk fun _ _ => rfl
  · rw [Utf8.unwritable?_eq_none.mpr hwritable] at hplace
    exact nomatch hplace
  · exact nomatch (Prod.mk.inj (hout.symm.trans h)).1

/-- The last part of a run fails only where nothing can be written. -/
theorem agree_of_finish {lines : List Text} {fault : Fault} {name : Text}
    (hpath : m.path = .absolute (t ++ [name])) (hfinish : finish m lines w = (.error fault, w'))
    (ht : (composing m lines w).disk.tree.Standing t) (hname : Tree.Named name)
    (hlink : ∀ target, (composing m lines w).disk.tree.get? (t ++ [name]) ≠ some (.link target))
    (hwritable : Utf8.Writable (m.text lines)) : Agrees w w' ∧ fault.isEarly = false := by
  have hcases := finish_finishes m lines w
  rw [hfinish] at hcases
  cases hcases with
  | notWritten hwrite =>
      rw [hpath] at hwrite
      exact ⟨(agree_composing m lines w).trans
        (agree_of_write ht hname hlink hwritable hwrite), rfl⟩

theorem run_ending {fault : Fault} (h : Usual p project output w)
    (hrun : p.run project output w = (.error fault, w')) :
    Ending project output w.started fault w' := by
  have hstarted : Usual p project output w.started :=
    ⟨h.sound.started, ⟨h.room.place, h.room.fresh⟩, h.folders, h.settings, h.answers⟩
  have hcourse := run_course p project output w
  rw [hrun] at hcourse
  -- after merging, the grounds of the run are known and the output folder is cleared
  have hmerged {m : Merged} {w₁ : World} (hmerge : p.merge project output w.started = (.ok m, w₁)) :
      ∃ r t, Grounds w.started project output r t m.settings ∧ m.target = .absolute t ∧
        Prepared w.started r t m.settings w₁ ∧
        ∃ prepared, Decided p project output w.started m (.absolute r) prepared := by
    obtain ⟨root, prepared, hdecided, -⟩ := merge_eq_ok hmerge
    obtain ⟨r, t, rfl, htarget, -⟩ :=
      folders_eq_ok hstarted.sound.tree hstarted.sound.here hdecided.folders
    have hgrounds := (hstarted.grounds (htarget ▸ hdecided.folders) hdecided.settings).1
    obtain ⟨-, -, hprepared, -, hrest⟩ := prepared_of_merge hgrounds hmerge
    exact ⟨r, t, hgrounds, htarget, hprepared, hrest⟩
  cases hcourse with
  | notMerged hmerge => exact (ending_of_merge hstarted hmerge).trans_agrees (agree_stopped _ _)
  | notExtracted hmerge hextract =>
      obtain ⟨r, t, hgrounds, htarget, hprepared, _, hdecided⟩ := hmerged hmerge
      obtain ⟨hr, -⟩ := hgrounds.standing
      obtain ⟨hname, -⟩ := hdecided.name hgrounds.sound hr
      have hagree := hprepared.agree_extract hgrounds (hname ▸ hr.slash_notMem) hextract
      exact .touched (isEarly_of_extract hextract) hgrounds
        (hprepared.trans_agrees (hagree.trans (agree_stopped _ _)))
  | notFinished hmerge hextract hfinish =>
      rename_i m lines w₁ w₂ w₃
      obtain ⟨r, t, hgrounds, htarget, hprepared, _, hdecided⟩ := hmerged hmerge
      obtain ⟨hr, ht, -⟩ := hgrounds.standing
      obtain ⟨hname, hsome⟩ := hdecided.name hgrounds.sound hr
      have hextracted : Agrees w₁ (w₂.advanced .extracted) :=
        (hprepared.agree_extract hgrounds (hname ▸ hr.slash_notMem) hextract).trans
          (agree_advanced w₂ _)
      have hcomposing := hprepared.trans_agrees (hextracted.trans (agree_composing m lines _))
      have hwritable := Merged.writable_text (hdecided.writable_buffer hgrounds.sound hr)
        ((reports_of_extract hextract).writable h.answers)
      obtain ⟨hagree, hlate⟩ := agree_of_finish (hgrounds.path_eq rfl htarget hname hsome) hfinish
        (hcomposing.standing ht) (hgrounds.plain_productName hsome).toNamed
        (hcomposing.noLinks hgrounds.outputLinks _) hwritable
      exact .touched hlate hgrounds
        (hprepared.trans_agrees ((hextracted.trans hagree).trans (agree_stopped _ _)))

/-- A pipeline whose extractor breaks. -/
def brokenPipeline : Pipeline :=
  { extractor := some fun _ => .error (.other "no tags") }

/-- A run of it is usual if its folders hold no links and the settings are not changed. -/
theorem usual_broken (hsound : w.Sound) (hroom : w.Room)
    (hfolders : Project.folders w.disk project output = .ok (.absolute r, .absolute t))
    (hload : Settings.load w.disk (.absolute r) = .ok { root := .absolute r })
    (hrlinks : w.disk.tree.NoLinks r) (htlinks : w.disk.tree.NoLinks t) :
    Usual brokenPipeline project output w := by
  refine ⟨hsound, hroom, ?_, ?_, ?_⟩
  · intro r' t' h
    obtain ⟨hr, ht⟩ := Prod.mk.inj (Except.ok.inj (hfolders.symm.trans h))
    obtain rfl := (Path.mk.inj hr).2
    obtain rfl := (Path.mk.inj ht).2
    exact ⟨hrlinks, htlinks⟩
  · intro r' t' s h h'
    obtain ⟨hr, -⟩ := Prod.mk.inj (Except.ok.inj (hfolders.symm.trans h))
    obtain rfl := (Path.mk.inj hr).2
    rw [← Except.ok.inj (hload.symm.trans h')]
    exact ⟨rfl, rfl⟩
  · intro answer content lines hanswer h
    obtain rfl := Option.some.inj hanswer
    exact nomatch h

theorem usual_nested : Usual brokenPipeline (some "/p") (some "/p/out") nestedWorld :=
  usual_broken (r := ["p"]) (t := ["p", "out"])
    (sound_holding (by decide +kernel) (by decide +kernel)) (room_holding (by decide +kernel))
    (by decide +kernel) (by decide +kernel) (Tree.noLinks_of_entries (by decide +kernel))
    (Tree.noLinks_of_entries (by decide +kernel))

/-- A project at the root: its sketch has a name without an ending. -/
def rootWorld : World :=
  .holding [([".ino"], .file []), (["out"], .folder), (["out", ".ino"], .file [0x78]),
    (["out", "k.h"], .file [])]

/-- A folder whose path is almost too long. -/
def deepFolder : Location :=
  .replicate 16 (.replicate 63 (.char '𝄞'))

/-- A location in it. -/
def inDeep (name : Text) : Location :=
  deepFolder ++ [name]

/-- An output folder where, between a stale companion and the merged sketch of an earlier run,
    an entry is listed whose path is too long. -/
def deepWorld : World :=
  .holding ((List.range 16).map (fun n => (deepFolder.take (n + 1), .folder)) ++
    ([(["p"], .folder), (["p", "p.ino"], .file []), (inDeep "k.h", .file []),
      (inDeep (.replicate 63 (.char '𝄞')), .folder), (inDeep "p.ino", .file [0x78])] :
      List (Location × Entry)))

/-- The run fails, and of a stale companion and the merged sketch of an earlier run only the
    companion is gone. -/
def KeepsSketch (project output : Text) (w : World) (stale sketch : Location) : Prop :=
  (brokenPipeline.run (some project) (some output) w).1.isOk = false
    ∧ w.disk.tree.hasFile stale = true
    ∧ (brokenPipeline.run (some project) (some output) w).2.disk.tree.hasFile stale = false
    ∧ (brokenPipeline.run (some project) (some output) w).2.disk.tree.hasFile sketch = true

instance (project output : Text) (w : World) (stale sketch : Location) :
    Decidable (KeepsSketch project output w stale sketch) :=
  inferInstanceAs (Decidable (_ ∧ _ ∧ _ ∧ _))

/-- The world with a log file open. -/
def loggedWorld : World :=
  (Action.setUpJournal true (some (Path.ofText "/run.log")) nestedWorld).2

theorem usual_logged : Usual brokenPipeline (some "/q") (some "/p/out") loggedWorld := by
  have hfolders : Project.folders loggedWorld.disk (some "/q") (some "/p/out")
      = .error (.notFolder .project "/q") := by decide +kernel
  refine ⟨⟨Tree.sound_of_entries (by decide +kernel), by decide +kernel, rfl⟩, ?_, ?_, ?_, ?_⟩
  · have hroom : (World.holding loggedWorld.disk.tree.entries).Room :=
      room_holding (by decide +kernel)
    exact ⟨hroom.place, hroom.fresh⟩
  · intro r t h
    exact nomatch hfolders.symm.trans h
  · intro r t s h
    exact nomatch hfolders.symm.trans h
  · intro answer content lines hanswer h
    obtain rfl := Option.some.inj hanswer
    exact nomatch h

end Pipeline

end SketchMerge
