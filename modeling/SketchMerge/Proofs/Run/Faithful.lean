import SketchMerge.Proofs.Project.Sketches
import SketchMerge.Proofs.Run.Agreement
import SketchMerge.Proofs.Text.Bytes

/-! # The bytes of the written sketch

    What a run writes is put together from the BYTES OF THE SKETCH FILES, whatever
    they are: their line ends become newlines, the last line of each is closed, a
    marker may stand in front of each, and the block of declarations goes in at one
    place.  Nothing else is added, lost or changed. -/

namespace SketchMerge

open Project (SketchFile sourceOf Sketches)

-- ── Bytes of merged files ───────────────────────────────────────────────────

/-- The bytes of files that are merged, with or without a marker in front of each. -/
def mergedBytes (markers : Bool) (files : List SketchFile) : List UInt8 :=
  files.flatMap fun f =>
    (if markers then Utf8.encode (Buffer.markerFor f.1) else []) ++ Bytes.normal f.2

/-- **MERGED TEXTS ARE MERGED BYTES.** -/
theorem encode_unify (markers : Bool) (files : List SketchFile) :
    Utf8.encode (Buffer.unify markers (files.map sourceOf)).text = mergedBytes markers files := by
  show Utf8.encode ((files.map sourceOf).flatMap (Buffer.pieceOf markers)) = _
  induction files with
  | nil => rfl
  | cons f files ih =>
      have hpiece : Utf8.encode (Buffer.pieceOf markers (sourceOf f))
          = (if markers then Utf8.encode (Buffer.markerFor f.1) else []) ++ Bytes.normal f.2 := by
        rw [Buffer.pieceOf, Utf8.encode_append, sourceOf, Utf8.encode_normal]
        cases markers with
        | true => rfl
        | false => rfl
      rw [List.map_cons, List.flatMap_cons, Utf8.encode_append, hpiece, ih, mergedBytes,
        mergedBytes, List.flatMap_cons]

/-- What is put into a text is put into its bytes. -/
theorem encode_insert (t block : Text) (o : Nat) :
    ∃ k, Utf8.encode (t.take o ++ block ++ t.drop o)
      = (Utf8.encode t).take k ++ Utf8.encode block ++ (Utf8.encode t).drop k := by
  have hparts : Utf8.encode t = Utf8.encode (t.take o) ++ Utf8.encode (t.drop o) := by
    rw [← Utf8.encode_append, List.take_append_drop]
  refine ⟨(Utf8.encode (t.take o)).length, ?_⟩
  rw [Utf8.encode_append, Utf8.encode_append, hparts, List.take_left, List.drop_left]

-- ── What a run reads and writes ─────────────────────────────────────────────

/-- The path does not lead to the log file. -/
def World.Spares (w : World) (p : Path) : Prop :=
  ∀ l, w.disk.locate .find p = .ok l → w.Quiet l

theorem World.logFile_advanced (w : World) (next : Stage) :
    (w.advanced next).journal.logFile = w.journal.logFile :=
  logFile_note w _

namespace Pipeline

open World

variable {p : Pipeline} {project output : Option Text} {w w' : World} {m : Merged} {r : Location}

theorem Decided.scan {prepared : World}
    (h : Decided p project output w m (.absolute r) prepared) :
    Project.scan (w.note (startNote (.absolute r) m.variant)).disk m.settings.sketchEndings
      m.settings.companionEndings (Path.absolute r).text = .ok m.project := by
  have hcases := prepare_prepares m.settings (.absolute r) m.target
    (w.note (startNote (.absolute r) m.variant))
  rw [h.prepare] at hcases
  cases hcases with
  | prepared hscan => exact hscan

/-- A project that is merged is called after its folder, and has an ending for sketches. -/
theorem Decided.name {prepared : World}
    (h : Decided p project output w m (.absolute r) prepared) (hw : w.Sound)
    (hr : w.disk.tree.Standing r) :
    m.project.name = (Path.absolute r).name ∧ m.settings.sketchEndings ≠ [] := by
  have hagree : Agrees w (w.note (startNote (.absolute r) m.variant)) := agree_note w _
  have hnoted := hw.note (startNote (.absolute r) m.variant)
  obtain ⟨_, _, _, hsome, -, -, -, hproject⟩ :=
    Project.scan_found hnoted.tree hnoted.here (hagree.alike.tree.standing hr) h.scan
  exact ⟨by rw [hproject], hsome⟩

/-- The sketches of a project that is merged are the sketch files of its folder, as it is when
    the start has been noted. -/
theorem Decided.sketches_noted {prepared : World}
    (h : Decided p project output w m (.absolute r) prepared) (hw : w.Sound)
    (hr : w.disk.tree.Standing r) :
    ∃ files, m.project.sketches = files.map sourceOf ∧
      Sketches (w.note (startNote (.absolute r) m.variant)).disk r m.settings.sketchEndings
        files := by
  have hagree : Agrees w (w.note (startNote (.absolute r) m.variant)) := agree_note w _
  have hnoted := hw.note (startNote (.absolute r) m.variant)
  exact Project.scan_sketches hnoted.tree hnoted.distinct hnoted.here
    (hagree.alike.tree.standing hr) h.scan

/-- They are those of the folder as it was, unless the log file is one of them. -/
theorem Decided.sketches {prepared : World}
    (h : Decided p project output w m (.absolute r) prepared) (hw : w.Sound)
    (hr : w.disk.tree.Standing r)
    (hspares : ∀ name, FileName.ending name ∈ m.settings.sketchEndings →
      w.Spares (.absolute (r ++ [name]))) :
    ∃ files, m.project.sketches = files.map sourceOf ∧
      Sketches w.disk r m.settings.sketchEndings files := by
  have hagree : Agrees w (w.note (startNote (.absolute r) m.variant)) := agree_note w _
  obtain ⟨files, hfiles, hsketches⟩ := h.sketches_noted hw hr
  refine ⟨files, hfiles, hsketches.of_alike hagree.alike fun name hending l hl => ?_⟩
  exact hagree.same l trivial (hspares name hending l hl)

/-- What the last part of a run has written can be read at its end. -/
theorem read_product {lines : List Text} {product : Product}
    (hfinish : finish m lines w = (.ok product, w')) (hpath : m.path.isAbsolute = true)
    (hspares : w'.Spares product.path) :
    product = m.product lines ∧
      w'.disk.read product.path = .ok (Utf8.encode (m.text lines)) := by
  have hcases := finish_finishes m lines w
  rw [hfinish] at hcases
  cases hcases with
  | written hwrite =>
      rename_i d
      obtain ⟨l, hl, hd⟩ := Disk.writeText_eq_ok hwrite
      have hread : d.read m.path = .ok (Utf8.encode (m.text lines)) := by
        rw [hd]
        exact Disk.read_put hpath hl _
      -- only notes come after the file is written
      have hagree : Agrees ((composing m lines w).withDisk d)
          ((((composing m lines w).withDisk d).advanced .done).note (doneNote (m.product lines))) :=
        (agree_advanced _ _).trans (agree_note _ _)
      refine ⟨rfl, Disk.read_alike hagree.alike.symm (fun l hl => ?_) hread⟩
      have hquiet := hspares l hl
      rw [Quiet, logFile_note, logFile_advanced] at hquiet
      exact (hagree.same l trivial hquiet).symm

/-- A path that is given and resolved starts at the root, and so does one in it. -/
theorem isAbsolute_path (hw : w.Sound) {root : Path}
    (h : Project.folders w.disk project output = .ok (root, m.target)) :
    m.path.isAbsolute = true := by
  obtain ⟨-, t, -, ht, -⟩ := Project.folders_eq_ok hw.tree hw.here h
  rw [Merged.path, ht, Path.child, Path.join]
  split
  next habsolute => exact habsolute
  next => rfl

/-- The product holds the merged bytes of the sketch files, with the block of declarations put
    in at one place. -/
def HoldsSources (p : Pipeline) (project output : Option Text) (w : World) (product : Product)
    (w' : World) : Prop :=
  ∃ r target s v files k,
    Project.folders w.disk project output = .ok (.absolute r, target) ∧
    Settings.load w.disk (.absolute r) = .ok s ∧ s.variantFor p.variant = .ok v ∧
    Sketches w.disk r s.sketchEndings files ∧
    product.path = target.child ((Path.absolute r).name ++ s.sketchEndings.headD []) ∧
    w'.disk.read product.path = .ok ((mergedBytes v.lineMarkers files).take k
      ++ Utf8.encode ((Buffer.unify v.lineMarkers (files.map sourceOf)).block v.lineCorrection
        (Trivia.locate (Buffer.unify v.lineMarkers (files.map sourceOf)).text) product.prototypes)
      ++ (mergedBytes v.lineMarkers files).drop k)

/-- **THE WRITTEN SKETCH IS FAITHFUL TO THE BYTES** of the sketch files, whatever these are
    and whatever tags were extracted.  The log file, if one is open, must not be among the
    files that are read, nor the one that is written. -/
theorem run_faithful {product : Product} (hw : w.Sound)
    (hsketches : ∀ r target s, Project.folders w.disk project output = .ok (.absolute r, target) →
      Settings.load w.disk (.absolute r) = .ok s → ∀ name, FileName.ending name ∈ s.sketchEndings →
      w.Spares (.absolute (r ++ [name])))
    (hrun : p.run project output w = (.ok product, w')) (hproduct : w'.Spares product.path) :
    HoldsSources p project output w product w' := by
  have hcourse := run_course p project output w
  rw [hrun] at hcourse
  cases hcourse with
  | finished hmerge hextract hfinish =>
      rename_i m lines w₁ w₂
      obtain ⟨root, prepared, hdecided, -⟩ := merge_eq_ok hmerge
      obtain ⟨r, t, rfl, ht, hr, -⟩ :=
        Project.folders_eq_ok hw.started.tree hw.started.here hdecided.folders
      obtain ⟨hname, -⟩ := hdecided.name hw.started hr
      obtain ⟨files, hfiles, hfound⟩ := hdecided.sketches hw.started hr
        (hsketches r m.target m.settings hdecided.folders hdecided.settings)
      obtain ⟨rfl, hread⟩ :=
        read_product hfinish (isAbsolute_path hw.started hdecided.folders) hproduct
      have hbuffer : m.buffer = Buffer.unify m.variant.lineMarkers (files.map sourceOf) := by
        rw [Merged.buffer, hfiles]
      obtain ⟨k, hk⟩ := encode_insert m.buffer.text
        (m.buffer.block m.variant.lineCorrection (Trivia.locate m.buffer.text)
          (Merged.prototypes lines)) (Trivia.locate m.buffer.text)
      refine ⟨r, m.target, m.settings, m.variant, files, k, hdecided.folders, hdecided.settings,
        hdecided.variant, hfound, ?_, ?_⟩
      · show m.path = _
        rw [Merged.path, hname]
      · rw [hread]
        show Except.ok (Utf8.encode (_ ++ _ ++ _)) = _
        rw [hk, hbuffer, encode_unify]
        rfl

/-- A project whose files have stray bytes, bare carriage returns and open last lines. -/
def strayWorld : World :=
  .holding [(["p"], .folder), (["p", "out"], .folder),
    (["p", "p.ino"], .file (Utf8.encode "int n = f(1);\r\nint f(int a) \x7b return a; \x7d")),
    (["p", "a.ino"], .file [0x2F, 0x2F, 0xFF, 0x0D, 0x2F, 0x2F, 0xC3]),
    (["p", "b.pde"], .file [])]

/-- An extractor that reports one function, whatever it is given. -/
def oneFunction : Extractor := fun _ =>
  .ok ["f\tp.ino\t/^int f(int a)/;\"\tkind:function\tline:3\tsignature:(int a)\treturntype:int"]

theorem run_faithful_stray_bytes : ∃ product w',
    run { extractor := some oneFunction } (some "/p") (some "/p/out") strayWorld
      = (.ok product, w') ∧
    HoldsSources { extractor := some oneFunction } (some "/p") (some "/p/out") strayWorld
      product w' := by
  have hlog (w : World) (hnone : w.journal.logFile = none) (path : Path) : w.Spares path :=
    fun _ _ f hf => nomatch hnone.symm.trans hf
  have hrun : (run { extractor := some oneFunction } (some "/p") (some "/p/out")
      strayWorld).1.isOk = true ∧
      (run { extractor := some oneFunction } (some "/p") (some "/p/out")
        strayWorld).2.journal.logFile = none := by decide +kernel
  generalize hout : run { extractor := some oneFunction } (some "/p") (some "/p/out")
    strayWorld = out at hrun
  obtain ⟨result, w'⟩ := out
  cases result with
  | error fault => exact nomatch hrun.1
  | ok product =>
      exact ⟨product, w', rfl, run_faithful (sound_holding (by decide +kernel) (by decide +kernel))
        (fun _ _ _ _ _ _ _ => hlog strayWorld rfl _) hout (hlog w' hrun.2 _)⟩

end Pipeline

end SketchMerge
