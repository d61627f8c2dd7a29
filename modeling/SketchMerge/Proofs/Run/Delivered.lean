import SketchMerge.Proofs.Run.Faithful
import SketchMerge.Proofs.Run.Prepared

/-! # What a run makes of the files

    A run that succeeds changes ENTRIES OF THE OUTPUT FOLDER ONLY.  Files there with a
    listed ending are gone unless they are written anew, each companion file of the
    project has its copy, the merged sketch holds the text composed from the sketches and
    the TAG LINES THAT ARE REPORTED, and every other entry is as it was.  The project folder may lie in the output folder or around
    it; its files are never changed. -/

namespace SketchMerge

namespace Pipeline

open World Project

variable {p : Pipeline} {project output : Option Text} {w w' : World} {r t : Location}
  {s : Settings} {m : Merged}

/-- The name of the merged sketch of a project folder. -/
def productName (r : Location) (s : Settings) : Text :=
  (Path.absolute r).name ++ s.sketchEndings.headD []

/-- The folders and settings of a run, in a world without links in these folders; the endings
    of sketches and companions are proper and no two are the same. -/
structure Grounds (w : World) (project output : Option Text) (r t : Location) (s : Settings) :
    Prop where
  sound : w.Sound
  room : w.Room
  folders : Project.folders w.disk project output = .ok (.absolute r, .absolute t)
  settings : Settings.load w.disk (.absolute r) = .ok s
  projectLinks : w.disk.tree.NoLinks r
  outputLinks : w.disk.tree.NoLinks t
  proper : ∀ e ∈ s.sketchEndings ++ s.companionEndings, FileName.Proper e
  disjoint : ∀ e ∈ s.sketchEndings, e ∉ s.companionEndings

namespace Grounds

theorem standing (h : Grounds w project output r t s) :
    w.disk.tree.Standing r ∧ w.disk.tree.Standing t ∧ r ≠ t := by
  obtain ⟨r', t', hr', ht', hr, ht, hne⟩ := folders_eq_ok h.sound.tree h.sound.here h.folders
  obtain rfl := (Path.mk.inj hr').2
  obtain rfl := (Path.mk.inj ht').2
  exact ⟨hr, ht, hne⟩

/-- Grounds are those of the world at the start of a run. -/
theorem started (h : Grounds w project output r t s) :
    Grounds w.started project output r t s :=
  ⟨h.sound.started, ⟨h.room.place, h.room.fresh⟩, h.folders, h.settings, h.projectLinks,
    h.outputLinks, h.proper, h.disjoint⟩

theorem head_mem (hsome : s.sketchEndings ≠ []) : s.sketchEndings.headD [] ∈ s.sketchEndings := by
  obtain ⟨first, rest, heq⟩ := List.exists_cons_of_ne_nil hsome
  rw [heq]
  exact List.mem_cons_self ..

theorem plain_productName (h : Grounds w project output r t s) (hsome : s.sketchEndings ≠ []) :
    Tree.Plain (productName r s) :=
  (h.proper _ (List.mem_append_left _ (head_mem hsome))).plain h.standing.1.slash_notMem

/-- The ending of the merged sketch is that of no companion. -/
theorem ending_productName (h : Grounds w project output r t s) (hsome : s.sketchEndings ≠ []) :
    FileName.ending (productName r s) ∉ s.companionEndings := by
  have hproper := h.proper _ (List.mem_append_left _ (head_mem hsome))
  by_cases hname : (Path.absolute r).name = []
  · -- the merged sketch of the root has an ending for its name
    intro hmem
    have hnone : FileName.ending (productName r s) = [] := by
      rw [productName, hname, List.nil_append, hproper.ending_self]
    exact (h.proper _ (List.mem_append_right _ hmem)).ne_nil hnone
  · rw [productName, hproper.ending_append hname]
    exact h.disjoint _ (head_mem hsome)

end Grounds

-- ── From preparing to writing ───────────────────────────────────────────────

/-- There is still room for the temporary folder, since no copy has its name. -/
theorem Prepared.room (h : Prepared w r t s w') (hgrounds : Grounds w project output r t s) :
    w'.Room := by
  obtain ⟨-, ht, -⟩ := hgrounds.standing
  obtain ⟨folder, name, hplace, hfolder, hvalid, hending⟩ := hgrounds.room.place
  refine ⟨⟨folder, name, h.apart.temporary.trans hplace, h.standing hfolder, hvalid, hending⟩, ?_⟩
  intro l hl
  rw [h.apart.temporary] at hl
  have hnone := hgrounds.room.fresh l hl
  refine (h.apart.like l ?_).eq_none.mpr hnone
  rintro ⟨other, rfl, hlisted⟩
  have hother : FileName.ending other ∈ s.sketchEndings ++ s.companionEndings := by
    rcases hlisted with hlisted | hlisted
    · exact (listed_iff.mp hlisted).2
    · exact List.mem_append_right _ (listed_iff.mp hlisted).2
  rcases List.prefix_concat_iff.mp hl with heq | hl
  · -- the names of copies have an ending
    rw [hplace] at heq
    obtain rfl := (List.cons.inj (List.append_inj' heq rfl).2).1
    exact (hgrounds.proper _ hother).ne_nil hending
  · exact nomatch (hgrounds.room.fresh t hl).symm.trans (ht.folders t (List.prefix_refl t))

/-- What has been decided and done when the sketches are merged. -/
theorem prepared_of_merge (hgrounds : Grounds w project output r t s)
    (hmerge : p.merge project output w = (.ok m, w')) :
    m.settings = s ∧ m.target = .absolute t ∧ Prepared w r t s w' ∧ Copied w r t s w' ∧
      ∃ prepared, Decided p project output w m (.absolute r) prepared := by
  obtain ⟨root, prepared, hdecided, rfl⟩ := merge_eq_ok hmerge
  obtain ⟨rfl, htarget⟩ :=
    Prod.mk.inj (Except.ok.inj (hdecided.folders.symm.trans hgrounds.folders))
  have hsettings := Except.ok.inj (hdecided.settings.symm.trans hgrounds.settings)
  obtain ⟨hr, ht, hne⟩ := hgrounds.standing
  have hagree : Agrees w (w.note (startNote (.absolute r) m.variant)) := agree_note w _
  have hpreparation := prepare_preparation (s := s) (hgrounds.sound.note _)
    (hagree.alike.tree.standing hr) (hagree.alike.tree.standing ht) hne
    (hagree.alike.tree.noLinks hgrounds.projectLinks)
    (hagree.alike.tree.noLinks hgrounds.outputLinks)
  have hprepare := hdecided.prepare
  rw [hsettings, htarget] at hprepare
  rw [hprepare] at hpreparation
  cases hpreparation with
  | prepared h hcopied =>
      have hnotes : Agrees prepared (prepared.notes (Buffer.unifyNotes m.project.sketches)) :=
        agree_notes _ _
      exact ⟨hsettings, htarget, (h.of_agrees hagree).trans_agrees hnotes,
        (hcopied.of_agrees hagree).trans_agrees (h.of_agrees hagree) hnotes, prepared, hdecided⟩

/-- Nothing that happens to the files while tags are extracted is left. -/
theorem Prepared.agree_extract {w₁ : World} (h : Prepared w r t s w₁)
    (hgrounds : Grounds w project output r t s) {from_ : TagSource} {name text : Text}
    (hname : Path.slash ∉ name) {out : Except Fault (List Text)}
    (hextract : Extraction.extract from_ name text (w₁.advanced .unified) = (out, w')) :
    Agrees w₁ w' :=
  have hroom := (h.trans_agrees (agree_advanced w₁ .unified)).room hgrounds
  (agree_advanced w₁ .unified).trans (World.agree_extract hroom hname hextract)

/-- Where the merged sketch is written to. -/
theorem Grounds.path_eq (h : Grounds w project output r t s) (hsettings : m.settings = s)
    (htarget : m.target = .absolute t) (hname : m.project.name = (Path.absolute r).name)
    (hsome : s.sketchEndings ≠ []) : m.path = .absolute (t ++ [productName r s]) := by
  rw [Merged.path, hsettings, htarget, hname]
  exact Path.child_absolute t (h.plain_productName hsome)

-- ── The tag lines of a run ──────────────────────────────────────────────────

/-- The tag lines that are reported in a run for the bytes of a text: the answer of the
    extractor at hand, or else what the tool prints that is to be used. -/
inductive Reports (p : Pipeline) (w : World) (s : Settings) (bytes : List UInt8) :
    List Text → Prop
  | extractor {answer : Extractor} {lines : List Text} (hextractor : p.extractor = some answer)
      (hlines : answer bytes = .ok lines) : Reports p w s bytes lines
  | tool {tool : Tool} {lines : List Text} (hextractor : p.extractor = none)
      (htool : w.tools.lookup (s.toolFor p.executable w.toolVariable) = some tool)
      (hlines : Tag.tagLines (s.toolFor p.executable w.toolVariable)
        (some (Extraction.printed tool)) = .ok lines) : Reports p w s bytes lines

theorem reports_of_extract {v : Variant} {name text : Text} {lines : List Text}
    (hextract : Extraction.extract (p.tagSource s v w.toolVariable) name text w = (.ok lines, w')) :
    Reports p w s (Utf8.encode text) lines := by
  have hsource := World.extract_eq_ok hextract
  rw [tagSource] at hsource
  cases hextractor : p.extractor with
  | some answer =>
      rw [hextractor] at hsource
      rcases hsource with ⟨_, heq, hlines⟩ | ⟨_, _, _, heq, -⟩
      · cases heq
        exact .extractor hextractor hlines
      · cases heq
  | none =>
      rw [hextractor] at hsource
      rcases hsource with ⟨_, heq, -⟩ | ⟨_, _, tool, heq, htool, hlines⟩
      · cases heq
      · cases heq
        exact .tool hextractor htool hlines

/-- What is reported depends on the tools of the world only. -/
theorem Reports.of_tools {bytes : List UInt8} {lines : List Text} (h : Reports p w' s bytes lines)
    (htools : w'.tools = w.tools) (hvariable : w'.toolVariable = w.toolVariable) :
    Reports p w s bytes lines := by
  cases h with
  | extractor hextractor hlines => exact .extractor hextractor hlines
  | tool hextractor htool hlines =>
      rw [hvariable] at htool hlines
      rw [htools] at htool
      exact .tool hextractor htool hlines

-- ── The files after a run ───────────────────────────────────────────────────

/-- The file of that name in the output folder is written by a run. -/
def Rewritten (w : World) (r : Location) (s : Settings) (name : Text) : Prop :=
  name = productName r s ∨ listed w.disk.tree r s.companionEndings name = true

/-- What a run that succeeds makes of the files. -/
structure Delivered (p : Pipeline) (w : World) (r t : Location) (s : Settings) (product : Product)
    (w' : World) : Prop where
  /-- The listed files of the output folder are gone unless they are written anew. -/
  gone : ∀ name, listed w.disk.tree t (s.sketchEndings ++ s.companionEndings) name = true →
    ¬ Rewritten w r s name → w'.disk.tree.get? (t ++ [name]) = none
  /-- Each companion file has its copy. -/
  copied : ∀ name content, w.disk.tree.get? (r ++ [name]) = some (.file content) →
    FileName.ending name ∈ s.companionEndings →
    w'.disk.tree.get? (t ++ [name]) = some (.file content)
  /-- The merged sketch holds the text that is composed from the sketches and the
      declarations for the tag lines that are reported, and no others. -/
  sketch : ∃ v files lines b, s.variantFor p.variant = .ok v ∧
    Sketches w.disk r s.sketchEndings files ∧
    Reports p w s (Utf8.encode (Buffer.unify v.lineMarkers (files.map sourceOf)).text) lines ∧
    product.prototypes = Prototype.texts (Prototype.synthesize (Tag.readLines lines)) ∧
    (Buffer.unify v.lineMarkers (files.map sourceOf)).compose v.lineCorrection
      (Trivia.locate (Buffer.unify v.lineMarkers (files.map sourceOf)).text)
      product.prototypes = .ok b ∧
    w'.disk.tree.get? (t ++ [productName r s]) = some (.file (Utf8.encode b.text))
  /-- All else is as it was, the log apart. -/
  kept : ∀ l, w.Quiet l → (∀ name, l = t ++ [name] →
    listed w.disk.tree t (s.sketchEndings ++ s.companionEndings) name = false ∧
      ¬ Rewritten w r s name) →
    w'.disk.tree.get? l = w.disk.tree.get? l
  /-- So is all that is in the project folder. -/
  sources : ∀ name, w.Quiet (r ++ [name]) →
    w'.disk.tree.get? (r ++ [name]) = w.disk.tree.get? (r ++ [name])

/-- The log is none of the files that are read, cleared or written. -/
def LogApart (w : World) (r t : Location) (s : Settings) : Prop :=
  ∀ name, FileName.ending name ∈ s.sketchEndings ++ s.companionEndings ∨ name = productName r s →
    w.Quiet (r ++ [name]) ∧ w.Quiet (t ++ [name])

/-- No path to a sketch leads to the log. -/
theorem Grounds.spares (h : Grounds w project output r t s) (hlog : LogApart w r t s)
    {name : Text} (hending : FileName.ending name ∈ s.sketchEndings) :
    w.Spares (.absolute (r ++ [name])) := by
  intro l hl
  have hproper := h.proper _ (List.mem_append_left _ hending)
  rw [Disk.locate_child_eq h.standing.1 (FileName.named_of_ending hproper.ne_nil)
    (h.projectLinks name) hl]
  exact (hlog name (.inl (List.mem_append_left _ hending))).1

/-- The world shows what it showed, with the merged sketch in the output folder and the log
    apart. -/
structure Shows (w : World) (l : Location) (content : List UInt8) (w' : World) : Prop where
  file : w.Quiet l → w'.disk.tree.get? l = some (.file content)
  same : ∀ k, k ≠ l → w.Quiet k → w'.disk.tree.get? k = w.disk.tree.get? k
  none : ∀ k, k ≠ l → w.disk.tree.get? k = none → w'.disk.tree.get? k = none

theorem shows_put {l : Location} {content : List UInt8} (hl : l ≠ [])
    (hafter : Agrees (w.withDisk (w.disk.put l (.file content))) w') : Shows w l content w' := by
  have hview (k : Location) : (w.withDisk (w.disk.put l (.file content))).disk.tree.get? k
      = if k = l then some (.file content) else w.disk.tree.get? k := Tree.get?_put _ hl _ k
  refine ⟨fun hquiet => ?_, fun k hk hquiet => ?_, fun k hk hnone => ?_⟩
  · rw [hafter.same l trivial (quiet_withDisk hquiet _), hview, if_pos rfl]
  · rw [hafter.same k trivial (quiet_withDisk hquiet _), hview, if_neg hk]
  · refine (hafter.like k trivial).eq_none.mpr ?_
    rw [hview, if_neg hk, hnone]

/-- The last part of a run puts the merged sketch into the output folder. -/
theorem shows_of_finish {lines : List Text} {product : Product} {name : Text}
    (hpath : m.path = .absolute (t ++ [name])) (hfinish : finish m lines w = (.ok product, w'))
    (ht : (composing m lines w).disk.tree.Standing t) (hname : Tree.Named name)
    (hlink : ∀ target, (composing m lines w).disk.tree.get? (t ++ [name]) ≠ some (.link target)) :
    product = m.product lines ∧
      Shows (composing m lines w) (t ++ [name]) (Utf8.encode (m.text lines)) w' := by
  have hcases := finish_finishes m lines w
  rw [hfinish] at hcases
  cases hcases with
  | written hwrite =>
      rw [hpath] at hwrite
      obtain ⟨l, hl, rfl⟩ := Disk.writeText_eq_ok hwrite
      obtain ⟨rfl, -⟩ := Disk.target_child_eq ht hname hlink hl
      exact ⟨rfl, shows_put (Output.concat_ne_nil t name)
        ((agree_advanced _ _).trans (agree_note _ _))⟩

/-- A project with its output folder inside, where there are files of an earlier run, a folder
    with the ending of a companion, and a file of another kind. -/
def nestedWorld : World :=
  .holding [(["p"], .folder), (["p", "out"], .folder), (["p", "out", "deep.h"], .folder),
    (["p", "p.ino"], .file (Utf8.encode "int n = f(1);\nint f(int a) \x7b return a; \x7d\n")),
    (["p", "k.h"], .file (Utf8.encode "#define K 1")),
    (["p", "out", "k.h"], .file (Utf8.encode "#define K 0")),
    (["p", "out", "p.ino"], .file (Utf8.encode "int n = f(2);")),
    (["p", "out", "p.pde"], .file []),
    (["p", "out", "note.txt"], .file (Utf8.encode "keep"))]

end Pipeline

end SketchMerge
