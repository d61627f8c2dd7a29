import SketchMerge.Proofs.Files.Checking
import SketchMerge.Proofs.Files.Likeness
import SketchMerge.Proofs.Files.Writing
import SketchMerge.Proofs.Run.Course

/-! # Worlds that differ only in the log

    Notes are entered all through a run, and where a log file is open each of them
    may change that file.  Two worlds AGREE when their trees show the same except for
    the content of the log file.  All that a run does between its changes of the disk
    keeps worlds in agreement. -/

namespace SketchMerge.World

/-- No log file is open at the location. -/
def Quiet (w : World) (l : Location) : Prop :=
  ∀ f, w.journal.logFile = some f → f.location ≠ some l

/-- The worlds differ at most in the log, as far as some locations go. -/
structure Agree (scope : Location → Prop) (w w' : World) : Prop where
  same : ∀ l, scope l → w.Quiet l → w'.disk.tree.get? l = w.disk.tree.get? l
  like : ∀ l, scope l → Entry.Like (w'.disk.tree.get? l) (w.disk.tree.get? l)
  quiet : ∀ l, w.Quiet l → w'.Quiet l
  here : w'.disk.here = w.disk.here
  home : w'.disk.home = w.disk.home
  temporary : w'.temporary = w.temporary
  tools : w'.tools = w.tools
  toolVariable : w'.toolVariable = w.toolVariable

/-- The worlds differ at most in the log. -/
def Agrees (w w' : World) : Prop :=
  Agree (fun _ => True) w w'

variable {scope : Location → Prop} {w w' : World}

theorem Agree.refl (w : World) : Agree scope w w :=
  ⟨fun _ _ _ => rfl, fun _ _ => .refl _, fun _ h => h, rfl, rfl, rfl, rfl, rfl⟩

theorem Agree.trans {a b c : World} (hab : Agree scope a b) (hbc : Agree scope b c) :
    Agree scope a c where
  same := fun l hl hq => (hbc.same l hl (hab.quiet l hq)).trans (hab.same l hl hq)
  like := fun l hl => (hbc.like l hl).trans (hab.like l hl)
  quiet := fun l hq => hbc.quiet l (hab.quiet l hq)
  here := hbc.here.trans hab.here
  home := hbc.home.trans hab.home
  temporary := hbc.temporary.trans hab.temporary
  tools := hbc.tools.trans hab.tools
  toolVariable := hbc.toolVariable.trans hab.toolVariable

theorem Agree.mono {scope' : Location → Prop} (h : Agree scope w w')
    (hscope : ∀ l, scope' l → scope l) : Agree scope' w w' :=
  ⟨fun l hl => h.same l (hscope l hl), fun l hl => h.like l (hscope l hl), h.quiet, h.here, h.home,
    h.temporary, h.tools, h.toolVariable⟩

/-- Worlds that agree have disks that are alike. -/
theorem Agrees.alike (h : Agrees w w') : w'.disk.Alike w.disk :=
  ⟨fun l => h.like l trivial, h.here, h.home⟩

-- ── Notes and stages ────────────────────────────────────────────────────────

/-- What is written to a log file changes the file, if there is one. -/
theorem appendLog_like (tree : Tree) (file : Option Journal.LogFile) (t : Text) (l : Location) :
    Entry.Like ((appendLog tree file t).get? l) (tree.get? l) ∧
      ((∀ f, file = some f → f.location ≠ some l) →
        (appendLog tree file t).get? l = tree.get? l) := by
  unfold appendLog
  split
  next m =>
      split
      next content s hcontent hs =>
          have hm : m ≠ [] := by
            rintro rfl
            exact nomatch hcontent
          rw [Tree.get?_put tree hm]
          by_cases h : l = m
          · rw [if_pos h, h, hcontent]
            exact ⟨.inr ⟨_, _, rfl, rfl⟩, fun hq => absurd rfl (hq _ rfl)⟩
          · rw [if_neg h]
            exact ⟨.refl _, fun _ => rfl⟩
      next => exact ⟨.refl _, fun _ => rfl⟩
  next => exact ⟨.refl _, fun _ => rfl⟩

/-- Calling up a voice changes the voices only. -/
theorem callUp_eq (j : Journal) (voice : Text) :
    j.callUp voice = { j with voices := (j.callUp voice).voices } := by
  rw [Journal.callUp]
  split
  · rfl
  · rfl

theorem logFile_callUp (j : Journal) (voice : Text) : (j.callUp voice).logFile = j.logFile := by
  rw [callUp_eq]

theorem logFile_noteBy (governs : Voice.Rule) (w : World) (n : Note) :
    (w.noteBy governs n).journal.logFile = w.journal.logFile := by
  show ((w.journal.callUp _).callUp _).logFile = _
  rw [logFile_callUp, logFile_callUp]

theorem logFile_note (w : World) (n : Note) : (w.note n).journal.logFile = w.journal.logFile :=
  logFile_noteBy Voice.isGoverned w n

/-- **A NOTE CHANGES ONLY THE LOG**, whatever voices are governed. -/
theorem agree_noteBy (governs : Voice.Rule) (w : World) (n : Note) :
    Agree scope w (w.noteBy governs n) := by
  have hlog := appendLog_like w.disk.tree (w.journal.callUp (Voice.ofPart n.part)).logFile
    ((w.journal.callUp (Voice.ofPart n.part)).logLine governs w.time n)
  refine ⟨fun l _ hq => (hlog l).2 ?_, fun l _ => (hlog l).1, fun l hq => ?_, rfl, rfl, rfl, rfl,
    rfl⟩
  · rw [logFile_callUp]
    exact hq
  · rw [Quiet, logFile_noteBy]
    exact hq

theorem agree_note (w : World) (n : Note) : Agree scope w (w.note n) :=
  agree_noteBy Voice.isGoverned w n

theorem agree_notes (w : World) (ns : List Note) : Agree scope w (w.notes ns) := by
  induction ns generalizing w with
  | nil => exact .refl w
  | cons n ns ih => exact (agree_note w n).trans (ih (w.note n))

theorem agree_advanced (w : World) (next : Stage) : Agree scope w (w.advanced next) :=
  (agree_note w (Pipeline.stageNote w.stage next)).trans
    ⟨fun _ _ _ => rfl, fun _ _ => .refl _, fun _ h => h, rfl, rfl, rfl, rfl, rfl⟩

theorem agree_stopped (w : World) (fault : Fault) : Agree scope w (w.stopped fault) :=
  (agree_advanced w .failed).trans (agree_note _ _)

theorem agree_composing (m : Pipeline.Merged) (lines : List Text) (w : World) :
    Agree scope w (Pipeline.composing m lines w) := by
  rw [Pipeline.composing, Pipeline.locating]
  exact (((((((agree_notes w _).trans (agree_advanced _ _)).trans (agree_notes _ _)).trans
    (agree_advanced _ _)).trans (agree_note _ _)).trans (agree_advanced _ _)).trans
    (agree_note _ _)).trans (agree_advanced _ _)

-- ── Sound worlds ────────────────────────────────────────────────────────────

/-- The files of the world are as a system holds them: the tree is sound, no location comes
    twice, and the current folder is a folder. -/
structure Sound (w : World) : Prop where
  tree : w.disk.tree.Sound
  distinct : w.disk.tree.Distinct
  here : w.disk.tree.get? w.disk.here = some .folder

theorem distinct_appendLog {tree : Tree} (h : tree.Distinct) (file : Option Journal.LogFile)
    (t : Text) : (appendLog tree file t).Distinct := by
  unfold appendLog
  split
  next m =>
      split
      next => exact h.put _ _
      next => exact h
  next => exact h

theorem Sound.note (h : w.Sound) (n : Note) : (w.note n).Sound where
  tree := (Agrees.alike (agree_note w n)).tree.sound h.tree
  distinct := distinct_appendLog h.distinct _ _
  here := ((Agrees.alike (agree_note w n)).tree _).folder.mpr h.here

theorem Sound.started (h : w.Sound) : w.started.Sound :=
  ⟨h.tree, h.distinct, h.here⟩

-- ── Changes of the disk ─────────────────────────────────────────────────────

/-- With another disk, a log file is at most forgotten. -/
theorem quiet_withDisk {l : Location} (h : w.Quiet l) (d : Disk) : (w.withDisk d).Quiet l := by
  rw [withDisk]
  intro f hf
  dsimp only at hf
  split at hf
  next m hlog =>
      split at hf
      · exact h f hf
      · rw [Journal.forget] at hf
        obtain ⟨f', hf', hforget⟩ := Option.map_eq_some_iff.mp hf
        split at hforget
        · rw [← hforget]
          exact fun heq => nomatch heq
        · rw [← hforget]
          exact h f' hf'
  next => exact h f hf

/-- The worlds agree as far as the disks show the same. -/
theorem agree_withDisk {tree : Tree} (h : ∀ l, scope l → tree.get? l = w.disk.tree.get? l) :
    Agree scope w (w.withDisk { w.disk with tree }) where
  same := fun l hl _ => h l hl
  like := fun l hl => .inl (h l hl)
  quiet := fun _ hq => quiet_withDisk hq _
  here := rfl
  home := rfl
  temporary := rfl
  tools := rfl
  toolVariable := rfl

-- ── Asking for tag lines ────────────────────────────────────────────────────

theorem agree_handing (w : World) (content : List UInt8) : Agree scope w (w.handing content) :=
  ⟨fun _ _ _ => rfl, fun _ _ => .refl _, fun _ h => h, rfl, rfl, rfl, rfl, rfl⟩

theorem agree_call {executable : Text} {arguments : List Text} {source : Path}
    {content : List UInt8} {out : Except Fault (Option Tag.ToolOutput)}
    (h : Extraction.call executable arguments source content w = (out, w')) : Agree scope w w' := by
  have hcases := Extraction.call_calls executable arguments source content w
  rw [h] at hcases
  cases hcases with
  | barred => exact .refl w
  | uncallable => exact .refl w
  | missing => exact .refl w
  | called => exact ⟨fun _ _ _ => rfl, fun _ _ => .refl _, fun _ h => h, rfl, rfl, rfl, rfl, rfl⟩

/-- Whoever is asked, the files are left alone. -/
theorem agree_tagLines {from_ : TagSource} {source : Path} {out : Except Fault (List Text)}
    (h : Extraction.tagLines from_ source w = (out, w')) : Agree scope w w' := by
  have hcases := Extraction.tagLines_answers from_ source w
  rw [h] at hcases
  cases hcases with
  | extractor => exact agree_handing w _
  | notCalled hcall => exact ((agree_handing w _).trans (agree_note _ _)).trans (agree_call hcall)
  | noLines hcall => exact ((agree_handing w _).trans (agree_note _ _)).trans (agree_call hcall)
  | printed hcall =>
      exact (((agree_handing w _).trans (agree_note _ _)).trans (agree_call hcall)).trans
        (agree_notes _ _)

-- ── The temporary folder ────────────────────────────────────────────────────

theorem isAbsolute_copyPath (folder : Location) (project : Text) :
    (Extraction.copyPath folder project).isAbsolute = true := by
  rw [Extraction.copyPath, Path.child, Path.join]
  split
  next h => exact h
  next => rfl

/-- The content that is handed over is that of the text that is copied. -/
theorem contentOf_copy {project text : Text} {d : Disk}
    (hwrite : w.withFolder.disk.writeText (Extraction.copyPath w.temporary project) text
      = (.ok (), d)) :
    (w.withFolder.withDisk d).contentOf (Extraction.copyPath w.temporary project)
      = Utf8.encode text := by
  obtain ⟨l, hl, hd⟩ := Disk.writeText_eq_ok hwrite
  rw [contentOf]
  show ((d.read _).toOption).getD [] = _
  rw [hd, Disk.read_put (isAbsolute_copyPath _ _) hl]
  rfl

/-- There is room for a temporary folder: it can be made where nothing is, and its name has
    no ending. -/
structure Room (w : World) : Prop where
  place : ∃ folder name, w.temporary = folder ++ [name] ∧ w.disk.tree.Standing folder ∧
    Tree.Valid name ∧ FileName.ending name = []
  fresh : ∀ l, w.temporary <+: l → w.disk.tree.get? l = none

theorem Room.ne_nil (h : w.Room) : w.temporary ≠ [] := by
  obtain ⟨folder, name, hplace, -⟩ := h.place
  rw [hplace]
  exact List.append_ne_nil_of_right_ne_nil _ (List.cons_ne_nil _ _)

theorem Room.withFolder_eq (h : w.Room) :
    w.withFolder = w.withDisk { w.disk with tree := w.disk.tree.put w.temporary .folder } := by
  obtain ⟨folder, name, hplace, hstanding, -⟩ := h.place
  rw [withFolder, Tree.putFolder_eq_put (h.fresh w.temporary (List.prefix_refl _)) fun n hn => ?_]
  rw [hplace, List.length_append, List.length_singleton] at hn
  rw [hplace, List.take_append_of_le_length (by omega),
    hstanding.folders _ (List.take_prefix n folder)]
  rfl

/-- The temporary folder stands where it is made. -/
theorem Room.standing (h : w.Room) : w.withFolder.disk.tree.Standing w.temporary := by
  obtain ⟨folder, name, hplace, hstanding, hname, -⟩ := h.place
  rw [h.withFolder_eq]
  constructor
  · intro k hk
    show (w.disk.tree.put w.temporary .folder).get? k = _
    rw [Tree.get?_put _ h.ne_nil]
    split
    · rfl
    next hne =>
        rw [hplace] at hk hne
        rcases List.prefix_concat_iff.mp hk with heq | hk
        · exact absurd heq hne
        · exact hstanding.folders k hk
  · intro x hx
    rw [hplace] at hx
    rcases List.mem_append.mp hx with hx | hx
    · exact hstanding.valid x hx
    · rw [List.mem_singleton.mp hx]
      exact hname

/-- What is written into the temporary folder is nowhere else. -/
theorem Room.agree_copying (h : w.Room) {project text : Text} (hproject : Path.slash ∉ project)
    {out : Except Files.Fault Unit} {d : Disk}
    (hwrite : w.withFolder.disk.writeText (Extraction.copyPath w.temporary project) text
      = (out, d)) :
    Agree (fun l => ¬ w.temporary <+: l) w (w.withFolder.withDisk d) := by
  have hproper : FileName.Proper ".ino" := by decide
  have hname := hproper.plain hproject
  have hfolder : Agree (fun l => ¬ w.temporary <+: l) w w.withFolder := by
    rw [h.withFolder_eq]
    refine agree_withDisk fun l hl => ?_
    rw [Tree.get?_put _ h.ne_nil, if_neg]
    rintro rfl
    exact hl (List.prefix_refl _)
  have hempty : w.withFolder.disk.tree.get? (w.temporary ++ [project ++ ".ino"]) = none := by
    rw [h.withFolder_eq]
    show (w.disk.tree.put w.temporary .folder).get? _ = none
    rw [Tree.get?_put _ h.ne_nil, if_neg (fun heq => List.cons_ne_nil _ _
      (List.append_right_eq_self.mp heq)), h.fresh _ (List.prefix_append _ _)]
  have hput (content : List UInt8) : Agree (fun l => ¬ w.temporary <+: l) w
      (w.withFolder.withDisk
        (w.withFolder.disk.put (w.temporary ++ [project ++ ".ino"]) (.file content))) := by
    refine hfolder.trans (agree_withDisk fun l hl => ?_)
    rw [Tree.get?_put _ (List.append_ne_nil_of_right_ne_nil _ (List.cons_ne_nil _ _)), if_neg]
    rintro rfl
    exact hl (List.prefix_append _ _)
  rw [Extraction.copyPath, Path.child_absolute _ hname] at hwrite
  rcases Disk.writeText_child h.standing hname.toNamed
      (by rw [hempty]; exact fun _ => (nomatch ·)) text
    with ⟨fault, hout⟩ | ⟨-, ⟨place, -, hout⟩ | hout⟩
  · rw [← (Prod.mk.inj (hout.symm.trans hwrite)).2]
    exact hfolder.trans (agree_withDisk fun _ _ => rfl)
  · rw [← (Prod.mk.inj (hout.symm.trans hwrite)).2]
    exact hput []
  · rw [← (Prod.mk.inj (hout.symm.trans hwrite)).2]
    exact hput _

/-- Without the temporary folder the worlds agree everywhere. -/
theorem Room.agree_without (h : w.Room) (hagree : Agree (fun l => ¬ w.temporary <+: l) w w') :
    Agrees w (w'.without w.temporary) := by
  have hview (l : Location) : (w'.without w.temporary).disk.tree.get? l
      = if w.temporary <+: l then none else w'.disk.tree.get? l := Tree.get?_prune _ h.ne_nil l
  refine ⟨fun l _ hq => ?_, fun l _ => ?_, fun l hq => quiet_withDisk (hagree.quiet l hq) _,
    hagree.here, hagree.home, hagree.temporary, hagree.tools, hagree.toolVariable⟩
  · rw [hview]
    split
    next hbelow => exact (h.fresh l hbelow).symm
    next hbeside => exact hagree.same l hbeside hq
  · rw [hview]
    split
    next hbelow =>
        rw [h.fresh l hbelow]
        exact .refl _
    next hbeside => exact hagree.like l hbeside

/-- **EXTRACTING LEAVES NO TRACE** on the disk. -/
theorem agree_extract (h : w.Room) {from_ : TagSource} {project text : Text}
    (hproject : Path.slash ∉ project) {out : Except Fault (List Text)}
    (hout : Extraction.extract from_ project text w = (out, w')) : Agrees w w' := by
  have hcases := Extraction.extract_extracts from_ project text w
  rw [hout] at hcases
  cases hcases with
  | notWritten hwrite => exact h.agree_without (h.agree_copying hproject hwrite)
  | asked hwrite hask =>
      exact h.agree_without ((h.agree_copying hproject hwrite).trans (agree_tagLines hask))

-- ── Where tag lines come from ───────────────────────────────────────────────

theorem lookup_of_findTool {executable : Text} {tool : Tool}
    (h : Extraction.findTool w executable = .ok (some tool)) :
    w.tools.lookup executable = some tool := by
  rw [Extraction.findTool] at h
  split at h
  next =>
      split at h
      next => cases h
      next => cases h
  next =>
      split at h
      next hlookup =>
          cases h
          exact hlookup
      next => cases h
      next => cases h

/-- The lines that a tool is called for are those that it prints. -/
theorem printed_of_call {executable : Text} {arguments : List Text} {source : Path}
    {content : List UInt8} {output : Option Tag.ToolOutput} {lines : List Text}
    (hcall : Extraction.call executable arguments source content w = (.ok output, w'))
    (hlines : Tag.tagLines executable output = .ok lines) :
    ∃ tool, w.tools.lookup executable = some tool ∧
      Tag.tagLines executable (some (Extraction.printed tool)) = .ok lines := by
  have hcases := Extraction.call_calls executable arguments source content w
  rw [hcall] at hcases
  cases hcases with
  | missing => cases hlines
  | called hfind => exact ⟨_, lookup_of_findTool hfind, hlines⟩

/-- **WHERE TAG LINES COME FROM**: from the extractor, which answers to the bytes of the text,
    or from what the tool prints. -/
theorem extract_eq_ok {from_ : TagSource} {project text : Text} {lines : List Text}
    (h : Extraction.extract from_ project text w = (.ok lines, w')) :
    (∃ answer, from_ = .extractor answer ∧ answer (Utf8.encode text) = .ok lines) ∨
      ∃ executable arguments tool, from_ = .tool executable arguments ∧
        w.tools.lookup executable = some tool ∧
        Tag.tagLines executable (some (Extraction.printed tool)) = .ok lines := by
  have hcases := Extraction.extract_extracts from_ project text w
  rw [h] at hcases
  cases hcases with
  | @asked d _ _ hwrite hask =>
      have hanswers := Extraction.tagLines_answers from_
        (Extraction.copyPath w.temporary project) (w.withFolder.withDisk d)
      rw [hask] at hanswers
      generalize hresult : (Except.ok lines : Except Fault (List Text)) = result at hanswers
      cases hanswers with
      | extractor answer =>
          rw [contentOf_copy hwrite] at hresult
          refine .inl ⟨answer, rfl, ?_⟩
          cases hanswer : answer (Utf8.encode text) with
          | error fault =>
              rw [hanswer] at hresult
              cases hresult
          | ok given =>
              rw [hanswer] at hresult
              cases hresult
              rfl
      | notCalled => cases hresult
      | noLines => cases hresult
      | printed hcall hlines =>
          cases hresult
          obtain ⟨tool, htool, hprinted⟩ := printed_of_call hcall hlines
          exact .inr ⟨_, _, tool, rfl, htool, hprinted⟩

-- ── Worlds of given files ───────────────────────────────────────────────────

/-- The world with the given files and nothing else: no tools, and no log. -/
def holding (entries : List (Location × Entry)) : World where
  disk := { tree := ⟨entries⟩, here := [], home := .absolute [] }
  temporary := ["tmp"]
  time := []

variable {entries : List (Location × Entry)}

theorem sound_holding (hdistinct : Tree.Distinct ⟨entries⟩)
    (h : ∀ x ∈ entries, ∀ name ∈ x.1.getLast?.toList,
      Tree.Valid name ∧ Tree.get? ⟨entries⟩ x.1.dropLast = some .folder) :
    (holding entries).Sound :=
  ⟨Tree.sound_of_entries h, hdistinct, rfl⟩

theorem room_holding (h : ∀ x ∈ entries, ¬ (["tmp"] : Location) <+: x.1) :
    (holding entries).Room where
  place := ⟨[], "tmp", rfl, ⟨fun k hk => by rw [List.prefix_nil.mp hk]; rfl, nofun⟩,
    by decide, by decide⟩
  fresh := fun _ hl => Tree.get?_eq_none_of_entries (List.cons_ne_nil _ _) h hl

end SketchMerge.World
