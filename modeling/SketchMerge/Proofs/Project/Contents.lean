import SketchMerge.Project.Project
import SketchMerge.Proofs.Files.Operations
import SketchMerge.Proofs.Text.Sorting

/-! # What is found in a project folder

    The folders of a run are given as paths of any kind and come out as paths from
    the root, so that DIFFERENT PATHS ARE DIFFERENT FOLDERS (`folders_eq_ok`).  The
    files of a folder are those that its tree shows under a listed ending. -/

namespace SketchMerge

-- ── Filtering by a test that may fail ───────────────────────────────────────

theorem filterAuxM_eq_ok {ε α : Type} {p : α → Except ε Bool} {q : α → Bool} {xs : List α}
    (h : ∀ x ∈ xs, p x = .ok (q x)) (kept : List α) :
    List.filterAuxM p xs kept = .ok ((xs.filter q).reverse ++ kept) := by
  induction xs generalizing kept with
  | nil => rfl
  | cons x xs ih =>
      have hrest := ih (fun y hy => h y (List.mem_cons_of_mem _ hy))
      rw [List.filterAuxM, h x (List.mem_cons_self ..)]
      show List.filterAuxM p xs (cond (q x) (x :: kept) kept) = _
      rw [hrest, List.filter_cons]
      cases q x with
      | true => simp
      | false => simp

/-- A test that never fails filters. -/
theorem filterM_eq_ok {ε α : Type} {p : α → Except ε Bool} {q : α → Bool} {xs : List α}
    (h : ∀ x ∈ xs, p x = .ok (q x)) : xs.filterM p = .ok (xs.filter q) := by
  rw [List.filterM, filterAuxM_eq_ok h]
  show Except.ok _ = _
  rw [List.append_nil, List.reverse_reverse]

/-- What was filtered was tested. -/
theorem tested_of_filterM {ε α : Type} {p : α → Except ε Bool} {xs ys : List α}
    (h : xs.filterM p = .ok ys) : ∀ x ∈ xs, ∃ b, p x = .ok b := by
  have haux : ∀ (xs kept ys : List α), List.filterAuxM p xs kept = .ok ys →
      ∀ x ∈ xs, ∃ b, p x = .ok b := by
    intro xs
    induction xs with
    | nil => exact fun _ _ _ _ hx => nomatch hx
    | cons x xs ih =>
        intro kept ys h y hy
        obtain ⟨b, hb, hrest⟩ := bind_eq_ok h
        rcases List.mem_cons.mp hy with rfl | hy
        · exact ⟨b, hb⟩
        · exact ih _ _ hrest y hy
  obtain ⟨zs, hzs, -⟩ := bind_eq_ok h
  exact haux xs [] zs hzs

namespace Project

variable {d : Disk} {l : Location}

-- ── The folders of a run ────────────────────────────────────────────────────

theorem look_of_isFolder {p : Path} (h : d.isFolder p = .ok true) :
    ∃ l, d.look p = .ok (l, .folder) := by
  rw [Disk.isFolder, Disk.check] at h
  split at h
  next l e hlook => exact ⟨l, by rw [hlook, beq_iff_eq.mp (Except.ok.inj h)]⟩
  next => cases h
  next => cases Except.ok.inj h

/-- A folder that is required is one of the tree. -/
theorem requireFolder_eq_ok (ht : d.tree.Sound) (hhere : d.tree.get? d.here = some .folder)
    {role : Role} {given : Option Text} {root : Path} (h : requireFolder d role given = .ok root) :
    ∃ l, root = .absolute l ∧ d.tree.get? l = some .folder := by
  cases given with
  | none => exact nomatch h
  | some given =>
      obtain ⟨p, -, h⟩ := bind_eq_ok h
      obtain ⟨isFolder, hfolder, h⟩ := bind_eq_ok h
      cases isFolder with
      | false => exact nomatch h
      | true =>
          obtain ⟨l, hlook⟩ := look_of_isFolder (mapError_eq_ok hfolder)
          have hroot := mapError_eq_ok h
          rw [Disk.resolve_of_look ht hhere hlook] at hroot
          exact ⟨l, (Except.ok.inj hroot).symm, (Disk.look_eq_ok hlook).2⟩

/-- A standing folder that is required again is itself. -/
theorem requireFolder_absolute (ht : d.tree.Sound) (hhere : d.tree.get? d.here = some .folder)
    (hl : d.tree.Standing l) {role : Role} {root : Path}
    (h : requireFolder d role (some (Path.absolute l).text) = .ok root) : root = .absolute l := by
  obtain ⟨p, hp, h⟩ := bind_eq_ok h
  rw [Path.ofText_absolute (fun name hname => (hl.valid name hname).toPlain)] at hp
  obtain rfl := Except.ok.inj (mapError_eq_ok hp)
  obtain ⟨isFolder, hfolder, h⟩ := bind_eq_ok h
  cases isFolder with
  | false => exact nomatch h
  | true =>
      obtain ⟨m, hlook⟩ := look_of_isFolder (mapError_eq_ok hfolder)
      have hroot := mapError_eq_ok h
      rw [Disk.resolve_of_look ht hhere hlook] at hroot
      rw [Disk.look_standing hl] at hlook
      split at hlook
      · exact nomatch hlook
      · rw [← Except.ok.inj hroot, (Prod.mk.inj (Except.ok.inj hlook)).1]

/-- **DIFFERENT PATHS, DIFFERENT FOLDERS.** -/
theorem folders_eq_ok (ht : d.tree.Sound) (hhere : d.tree.get? d.here = some .folder)
    {project output : Option Text} {root target : Path}
    (h : folders d project output = .ok (root, target)) :
    ∃ r t, root = .absolute r ∧ target = .absolute t ∧ d.tree.Standing r ∧ d.tree.Standing t ∧
      r ≠ t := by
  obtain ⟨root', hroot, h⟩ := bind_eq_ok h
  obtain ⟨target', htarget, h⟩ := bind_eq_ok h
  have hne : root' ≠ target' := by
    rintro rfl
    rw [if_pos rfl] at h
    exact nomatch h
  rw [if_neg hne] at h
  obtain ⟨rfl, rfl⟩ := Prod.mk.inj (Except.ok.inj h)
  obtain ⟨r, rfl, hr⟩ := requireFolder_eq_ok ht hhere hroot
  obtain ⟨t, rfl, ht'⟩ := requireFolder_eq_ok ht hhere htarget
  exact ⟨r, t, rfl, rfl, ht.standing hr, ht.standing ht', fun heq => hne (congrArg _ heq)⟩

-- ── The files of a folder ───────────────────────────────────────────────────

/-- The name is that of a file in the folder with one of the endings. -/
def listed (t : Tree) (l : Location) (endings : List Text) (name : Text) : Bool :=
  t.hasFile (l ++ [name]) && endings.contains (FileName.ending name)

theorem listed_iff {t : Tree} {endings : List Text} {name : Text} :
    listed t l endings name = true ↔
      t.hasFile (l ++ [name]) = true ∧ FileName.ending name ∈ endings := by
  rw [listed, Bool.and_eq_true, List.contains_iff_mem]

variable {endings names : List Text}

/-- The test that picks the files of a folder, on a child. -/
theorem fileTest_child (hl : d.tree.Standing l) (hlinks : d.tree.NoLinks l) {name : Text}
    (hname : Tree.Valid name) :
    (do .ok ((← d.isFile ((Path.absolute l).child name)) &&
        endings.contains (FileName.ending ((Path.absolute l).child name).name))
        : Except Files.Fault Bool)
      = if Disk.tooLong (l ++ [name])
        then .error (.at .tooLong (Path.absolute (l ++ [name])).text)
        else .ok (listed d.tree l endings name) := by
  rw [Path.child_absolute l hname.toPlain, Disk.isFile_child hl hname (hlinks name),
    Path.name_absolute]
  cases Disk.tooLong (l ++ [name]) with
  | true => rfl
  | false => rfl

/-- The files among children whose paths are short enough. -/
theorem filesAmong_eq (hl : d.tree.Standing l) (hlinks : d.tree.NoLinks l)
    (hnames : ∀ name ∈ names, Tree.Valid name)
    (hshort : ∀ name ∈ names, Disk.tooLong (l ++ [name]) = false) :
    filesAmong d (.absolute l) endings names
      = .ok ((names.filter (listed d.tree l endings)).map (Path.absolute l).child) := by
  rw [filesAmong, filterM_eq_ok (q := fun p => listed d.tree l endings p.name)]
  · rw [List.filter_map]
    congr 2
    refine List.filter_congr fun name hname => ?_
    rw [Function.comp_apply, Path.child_absolute l (hnames name hname).toPlain, Path.name_absolute]
  · intro p hp
    obtain ⟨name, hname, rfl⟩ := List.mem_map.mp hp
    rw [fileTest_child hl hlinks (hnames name hname), hshort name hname,
      Path.child_absolute l (hnames name hname).toPlain, Path.name_absolute]
    rfl

/-- Children among which files were told had paths that are short enough. -/
theorem short_of_filesAmong (hl : d.tree.Standing l) (hlinks : d.tree.NoLinks l)
    (hnames : ∀ name ∈ names, Tree.Valid name) {ps : List Path}
    (h : filesAmong d (.absolute l) endings names = .ok ps) :
    ∀ name ∈ names, Disk.tooLong (l ++ [name]) = false := by
  intro name hname
  obtain ⟨b, hb⟩ := tested_of_filterM h _ (List.mem_map_of_mem hname)
  rw [fileTest_child hl hlinks (hnames name hname)] at hb
  split at hb
  · exact nomatch hb
  next hlong => exact Bool.eq_false_iff.mpr hlong

theorem names_eq_ok (hl : d.tree.Standing l) {names : List Text}
    (h : d.names (.absolute l) = .ok names) : names = d.tree.names l := by
  rw [Disk.names, Disk.look_standing hl] at h
  split at h
  next m hlook =>
      split at hlook
      · exact nomatch hlook
      · rw [← Except.ok.inj h, (Prod.mk.inj (Except.ok.inj hlook)).1]
  next => exact nomatch h
  next => exact nomatch h

/-- The names in a folder of a sound tree can be held. -/
theorem valid_of_mem_names (ht : d.tree.Sound) : ∀ name ∈ d.tree.names l, Tree.Valid name :=
  fun name hname => ht.valid l name ((Tree.mem_names d.tree l name).mp hname)

/-- The files that are found in a folder are those that the tree shows there. -/
theorem mem_filesIn (ht : d.tree.Sound) (hl : d.tree.Standing l) (hlinks : d.tree.NoLinks l)
    {ps : List Path} (h : filesIn d (.absolute l) endings = .ok ps) (p : Path) :
    p ∈ ps ↔ ∃ name, p = .absolute (l ++ [name]) ∧ Tree.Valid name ∧
      listed d.tree l endings name = true := by
  obtain ⟨names, hnames, h⟩ := bind_eq_ok h
  obtain rfl := names_eq_ok hl hnames
  have hvalid := valid_of_mem_names ht (l := l)
  rw [filesAmong_eq hl hlinks hvalid (short_of_filesAmong hl hlinks hvalid h)] at h
  rw [← Except.ok.inj h, List.mem_map]
  constructor
  · rintro ⟨name, hname, rfl⟩
    rw [List.mem_filter] at hname
    have hv := hvalid name hname.1
    exact ⟨name, Path.child_absolute l hv.toPlain, hv, hname.2⟩
  · rintro ⟨name, rfl, hv, hlisted⟩
    refine ⟨name, List.mem_filter.mpr ⟨?_, hlisted⟩, Path.child_absolute l hv.toPlain⟩
    obtain ⟨content, hget⟩ := Tree.hasFile_iff.mp (listed_iff.mp hlisted).1
    rw [Tree.mem_names, hget]
    rfl

-- ── The project ─────────────────────────────────────────────────────────────

/-- What has been found when there is a project. -/
theorem scan_eq_ok {sketchEndings companionEndings : List Text} {given : Text} {p : Project}
    (h : scan d sketchEndings companionEndings given = .ok p) :
    ∃ root files sources companions, requireFolder d .project (some given) = .ok root ∧
      anyFile d root (mainNames root.name sketchEndings) = .ok true ∧
      filesIn d root sketchEndings = .ok files ∧
      files.mapM (readSketch d) = .ok sources ∧
      filesIn d root companionEndings = .ok companions ∧
      p = { name := root.name
            root
            sketches := Source.inOrder root.name sources
            companions := byName companions } := by
  obtain ⟨root, hroot, h⟩ := bind_eq_ok h
  obtain ⟨found, hfound, h⟩ := bind_eq_ok h
  cases found with
  | false => exact nomatch h
  | true =>
      obtain ⟨files, hfiles, h⟩ := bind_eq_ok h
      obtain ⟨sources, hsources, h⟩ := bind_eq_ok h
      obtain ⟨companions, hcompanions, h⟩ := bind_eq_ok h
      exact ⟨root, files, sources, companions, hroot, mapError_eq_ok hfound, mapError_eq_ok hfiles,
        mapError_eq_ok hsources, mapError_eq_ok hcompanions, (Except.ok.inj h).symm⟩

/-- What has been found when there is a project in a standing folder. -/
theorem scan_found (ht : d.tree.Sound) (hhere : d.tree.get? d.here = some .folder)
    (hl : d.tree.Standing l) {sketchEndings companionEndings : List Text} {p : Project}
    (h : scan d sketchEndings companionEndings (Path.absolute l).text = .ok p) :
    ∃ files sources companions, sketchEndings ≠ [] ∧
      filesIn d (.absolute l) sketchEndings = .ok files ∧
      files.mapM (readSketch d) = .ok sources ∧
      filesIn d (.absolute l) companionEndings = .ok companions ∧
      p = { name := (Path.absolute l).name
            root := .absolute l
            sketches := Source.inOrder (Path.absolute l).name sources
            companions := byName companions } := by
  obtain ⟨root, files, sources, companions, hroot, hfound, hfiles, hsources, hcompanions, hp⟩ :=
    scan_eq_ok h
  obtain rfl := requireFolder_absolute ht hhere hl hroot
  refine ⟨files, sources, companions, ?_, hfiles, hsources, hcompanions, hp⟩
  -- without an ending there is no main sketch
  rintro rfl
  exact nomatch (Except.ok.inj hfound)

end Project

end SketchMerge
