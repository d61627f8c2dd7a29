import SketchMerge.Proofs.Config.Usable
import SketchMerge.Proofs.Files.Checking
import SketchMerge.Proofs.Project.Sketches

/-! # The main sketch of a project

    A folder is a project if its name, with one of the sketch endings put behind it, is
    that of a file.  Which files are merged is told the other way round, by the ending
    that is TAKEN OFF a name: what follows its last dot.  The two ways agree on proper
    endings and on no others.  So with proper endings a project starts with its main
    sketch, whatever dots the name of its folder has; and every other ending that a file
    name can have lets in projects without one (`scan_main_first`). -/

namespace SketchMerge

-- ── Names and their endings ─────────────────────────────────────────────────

namespace FileName

variable {name e : Text}

theorem stem_append_ending (name : Text) : stem name ++ ending name = name := by
  rw [stem, ending]
  cases endingStart? name with
  | none => exact List.append_nil name
  | some i => exact List.take_append_drop i name

/-- What is left of a name with a proper ending is the name without it. -/
theorem Proper.stem_append (he : Proper e) (hname : name ≠ []) : stem (name ++ e) = name := by
  rw [stem, he.endingStart?_append, if_neg hname]
  exact List.take_left

/-- The ending of a name, if there is any, is proper. -/
theorem proper_ending (hslash : Path.slash ∉ name) (h : ending name ≠ []) :
    Proper (ending name) := by
  have hshown : ending name ⊆ name := fun g hg => by
    rw [← stem_append_ending name]
    exact List.mem_append_right _ hg
  refine ⟨?_, fun hmem => hslash (hshown hmem)⟩
  rw [ending] at h ⊢
  cases hstart : endingStart? name with
  | none =>
      rw [hstart] at h
      exact absurd rfl h
  | some i =>
      rw [endingStart?] at hstart
      split at hstart
      next k hk =>
          split at hstart
          next hbounds =>
              rw [Bool.and_eq_true, decide_eq_true_iff, decide_eq_true_iff] at hbounds
              obtain ⟨hlt, hdot, hbefore⟩ := List.findIdx?_eq_some_iff_getElem.mp hk
              rw [List.length_reverse] at hlt
              obtain rfl := Option.some.inj hstart
              have hi : name.length - 1 - k < name.length := by omega
              rw [List.getElem_reverse] at hdot
              refine ⟨name.drop (name.length - 1 - k + 1), ?_, ?_, ?_⟩
              · rw [← beq_iff_eq.mp hdot]
                exact List.drop_eq_getElem_cons hi
              · exact List.drop_eq_nil_iff.not.mpr (by omega)
              · intro hmem
                obtain ⟨j, hj, hat⟩ := List.mem_iff_getElem.mp hmem
                rw [List.length_drop] at hj
                rw [List.getElem_drop] at hat
                refine hbefore (k - 1 - j) (by omega) ?_
                rw [List.getElem_reverse]
                refine beq_iff_eq.mpr (Eq.trans ?_ hat)
                congr 1
                omega
          next => cases hstart
      next => cases hstart

/-- A name can end so, and still have something in front. -/
structure Fits (e : Text) : Prop where
  noSlash : Path.slash ∉ e
  written : Files.barredText? e = none
  short : (Utf8.encode e).length < Tree.longestName

end FileName

namespace Project

-- ── What a project starts with ──────────────────────────────────────────────

/-- The name is that of a file in the folder, links followed. -/
def IsFileOf (d : Disk) (folder : Path) (name : Text) : Prop :=
  (∃ names, d.names folder = .ok names ∧ name ∈ names) ∧ d.isFile (folder.child name) = .ok true

/-- The first of the sketch files is named after the project. -/
def OpensWithMain (p : Project) : Prop :=
  ∃ main rest, p.sketches = main :: rest ∧ main.stem = p.name

/-- A file of that name is merged. -/
def Merges (p : Project) (name : Text) : Prop :=
  ∃ source ∈ p.sketches, source.name = name

/-- Whatever project is found with the endings: its main sketch comes first, and each file of
    the folder is merged whose name is that of the project and an ending. -/
def MainFirst (sketchEndings companionEndings : List Text) : Prop :=
  ∀ (d : Disk) (given : Text) (p : Project), d.Sound →
    scan d sketchEndings companionEndings given = .ok p → p.name ≠ [] →
      p.OpensWithMain ∧
        ∀ e ∈ sketchEndings, IsFileOf d p.root (p.name ++ e) → p.Merges (p.name ++ e)

variable {d : Disk} {r : Location} {endings companionEndings : List Text}

theorem Sketches.plain (ht : d.tree.Sound) {files : List SketchFile}
    (h : Sketches d r endings files) : ∀ f ∈ files, Tree.Plain f.1 :=
  fun f hf => (valid_of_mem_names ht f.1 ((h.mem f.1).mp (List.mem_map_of_mem hf)).1).toPlain

/-- Sketch files start with one named after the project just when there is one. -/
theorem Sketches.first_iff (ht : d.tree.Sound) {files : List SketchFile}
    (h : Sketches d r endings files) (hendings : ∀ e ∈ endings, e ≠ [])
    (hname : (Path.absolute r).name ≠ []) :
    (∃ f rest, files = f :: rest ∧ FileName.stem f.1 = (Path.absolute r).name) ↔
      ∃ e ∈ endings, FileName.Proper e ∧ (Path.absolute r).name ++ e ∈ files.map Prod.fst := by
  constructor
  · rintro ⟨f, rest, rfl, hstem⟩
    have hf : f ∈ f :: rest := List.mem_cons_self ..
    have hmem := ((h.mem f.1).mp (List.mem_map_of_mem hf)).2.2
    refine ⟨FileName.ending f.1, hmem,
      FileName.proper_ending (h.plain ht f hf).noSlash (hendings _ hmem), ?_⟩
    rw [← hstem, FileName.stem_append_ending]
    exact List.mem_map_of_mem hf
  · rintro ⟨e, -, hproper, hmem⟩
    obtain ⟨main, hmain, heq⟩ := List.mem_map.mp hmem
    have hstem : FileName.stem main.1 = (Path.absolute r).name := by
      rw [heq, hproper.stem_append hname]
    cases files with
    | nil => exact nomatch hmain
    | cons f rest =>
        refine ⟨f, rest, rfl, ?_⟩
        rcases List.mem_cons.mp hmain with rfl | hrest
        · exact hstem
        · have horder := h.order
          rw [List.map_cons, List.pairwise_cons] at horder
          rcases horder.1 main.1 (List.mem_map_of_mem hrest) with ⟨hf, -⟩ | ⟨hsame, -⟩
          · exact hf
          · exact hsame.mpr hstem

theorem opensWithMain_iff {p : Project} {files : List SketchFile}
    (hfiles : p.sketches = files.map sourceOf) (hplain : ∀ f ∈ files, Tree.Plain f.1) :
    p.OpensWithMain ↔ ∃ f rest, files = f :: rest ∧ FileName.stem f.1 = p.name := by
  rw [OpensWithMain, hfiles]
  constructor
  · rintro ⟨main, others, heq, hmain⟩
    obtain ⟨f, rest, rfl, rfl, -⟩ := List.map_eq_cons_iff.mp heq
    rw [Source.stem_of_plain (hplain f (List.mem_cons_self ..))] at hmain
    exact ⟨f, rest, rfl, hmain⟩
  · rintro ⟨f, rest, rfl, hstem⟩
    refine ⟨sourceOf f, rest.map sourceOf, rfl, ?_⟩
    rw [Source.stem_of_plain (hplain f (List.mem_cons_self ..))]
    exact hstem

/-- The files of a folder whose names were listed. -/
theorem isFileOf_absolute (ht : d.tree.Sound) {names : List Text}
    (hr : d.tree.Standing r) (hnames : d.names (.absolute r) = .ok names) (name : Text) :
    IsFileOf d (.absolute r) name ↔
      name ∈ d.tree.names r ∧ d.isFile (.absolute (r ++ [name])) = .ok true := by
  obtain rfl := names_eq_ok hr hnames
  have hchild (hname : name ∈ d.tree.names r) :
      (Path.absolute r).child name = .absolute (r ++ [name]) :=
    Path.child_absolute r (valid_of_mem_names ht name hname).toPlain
  constructor
  · rintro ⟨⟨names, hlisted, hname⟩, hfile⟩
    obtain rfl := names_eq_ok hr hlisted
    rw [hchild hname] at hfile
    exact ⟨hname, hfile⟩
  · rintro ⟨hname, hfile⟩
    rw [← hchild hname] at hfile
    exact ⟨⟨_, hnames, hname⟩, hfile⟩

/-- What a project starts with, and what is merged. -/
theorem scan_told (hd : d.Sound) (hendings : ∀ e ∈ endings, e ≠ []) {given : Text} {p : Project}
    (h : scan d endings companionEndings given = .ok p) (hname : p.name ≠ []) :
    (p.OpensWithMain ↔
      ∃ e ∈ endings, FileName.Proper e ∧ IsFileOf d p.root (p.name ++ e)) ∧
    ∀ name, p.Merges name ↔ IsFileOf d p.root name ∧ FileName.ending name ∈ endings := by
  obtain ⟨root, ps, sources, companions, hroot, -, hps, hsources, -, rfl⟩ := scan_eq_ok h
  obtain ⟨r, rfl, hfolder⟩ := requireFolder_eq_ok hd.tree hd.here hroot
  have hr := hd.tree.standing hfolder
  obtain ⟨names, hnames, -⟩ := bind_eq_ok hps
  obtain ⟨files, hfiles, hsketches⟩ := sketches_read hd.tree hd.distinct hr hps hsources
  have hmem (name : Text) : name ∈ files.map Prod.fst ↔
      IsFileOf d (.absolute r) name ∧ FileName.ending name ∈ endings := by
    rw [hsketches.mem, isFileOf_absolute hd.tree hr hnames, and_assoc]
  refine ⟨?_, fun name => ?_⟩
  · rw [opensWithMain_iff hfiles (hsketches.plain hd.tree),
      hsketches.first_iff hd.tree hendings hname]
    constructor
    · rintro ⟨e, he, hproper, hfile⟩
      exact ⟨e, he, hproper, ((hmem _).mp hfile).1⟩
    · rintro ⟨e, he, hproper, hfile⟩
      refine ⟨e, he, hproper, (hmem _).mpr ⟨hfile, ?_⟩⟩
      rw [hproper.ending_append hname]
      exact he
  · rw [← hmem name, Merges, hfiles]
    simp [sourceOf]

-- ── Where a project is found ────────────────────────────────────────────────

theorem exists_of_anyFile {folder : Path} {names : List Text}
    (h : anyFile d folder names = .ok true) :
    ∃ name ∈ names, d.isFile (folder.child name) = .ok true := by
  induction names with
  | nil => exact nomatch h
  | cons name names ih =>
      obtain ⟨b, hb, h⟩ := bind_eq_ok h
      cases b with
      | true => exact ⟨name, List.mem_cons_self .., hb⟩
      | false =>
          obtain ⟨other, hother, hfile⟩ := ih h
          exact ⟨other, List.mem_cons_of_mem _ hother, hfile⟩

/-- A path to a file names an entry of its folder. -/
theorem mem_names_of_isFile (hr : d.tree.Standing r) {name : Text} (hname : Tree.Named name)
    (h : d.isFile (.absolute (r ++ [name])) = .ok true) : name ∈ d.tree.names r := by
  rw [Tree.mem_names]
  refine Option.ne_none_iff_isSome.mp fun hnone => ?_
  obtain ⟨m, content, hlook⟩ := Disk.isFile_eq_true.mp h
  obtain ⟨hlocate, hget⟩ := Disk.look_eq_ok hlook
  have hlink : ∀ target, d.tree.get? (r ++ [name]) ≠ some (.link target) :=
    fun target hlink => nomatch hnone.symm.trans hlink
  rw [Disk.locate_child_eq hr hname hlink hlocate, hnone] at hget
  exact nomatch hget

/-- **MAIN SKETCHES WITH PROPER ENDINGS COME FIRST.** -/
theorem mainFirst_of_proper (hproper : ∀ e ∈ endings, FileName.Proper e) :
    MainFirst endings companionEndings := by
  intro d given p hd h hname
  obtain ⟨hopens, hmerges⟩ := scan_told hd (fun e he => (hproper e he).ne_nil) h hname
  refine ⟨hopens.mpr ?_, fun e he hfile => (hmerges _).mpr ⟨hfile, ?_⟩⟩
  · obtain ⟨root, ps, sources, companions, hroot, hfound, hps, -, -, rfl⟩ := scan_eq_ok h
    obtain ⟨r, rfl, hfolder⟩ := requireFolder_eq_ok hd.tree hd.here hroot
    have hr := hd.tree.standing hfolder
    obtain ⟨names, hnames, -⟩ := bind_eq_ok hps
    obtain ⟨main, hmain, hfile⟩ := exists_of_anyFile hfound
    obtain ⟨e, he, rfl⟩ := List.mem_map.mp hmain
    have hplain := (hproper e he).plain hr.slash_notMem
    rw [Path.child_absolute r hplain] at hfile
    exact ⟨e, he, hproper e he, (isFileOf_absolute hd.tree hr hnames _).mpr
      ⟨mem_names_of_isFile hr hplain.toNamed hfile, hfile⟩⟩
  · rw [(hproper e he).ending_append hname]
    exact he

/-- All children of the folder, and all names a main sketch may have, are names that can be
    held, with paths that are short enough. -/
def AllShort (d : Disk) (r : Location) (endings : List Text) : Prop :=
  ∀ name ∈ d.tree.names r ++ mainNames (Path.absolute r).name endings,
    Tree.Valid name ∧ Disk.tooLong (r ++ [name]) = false

theorem requireFolder_standing (hd : d.Sound) (hr : d.tree.Standing r)
    (hshort : Disk.tooLong r = false) (role : Role) :
    requireFolder d role (some (Path.absolute r).text) = .ok (.absolute r) := by
  have hlook : d.look (.absolute r) = .ok (r, .folder) := by
    rw [Disk.look_standing hr, hshort, if_neg Bool.false_ne_true]
  have hfolder : d.isFolder (.absolute r) = .ok true := by
    rw [Disk.isFolder, Disk.check, hlook]
    rfl
  rw [requireFolder, Path.ofText_absolute fun name hname => (hr.valid name hname).toPlain]
  show (ofFiles (d.isFolder (.absolute r)) >>= _) = _
  rw [hfolder]
  show ofFiles (d.resolve (.absolute r)) = _
  rw [Disk.resolve_of_look hd.tree hd.here hlook]
  rfl

theorem anyFile_eq (hr : d.tree.Standing r) (hlinks : d.tree.NoLinks r) {names : List Text}
    (hnames : ∀ name ∈ names, Tree.Valid name ∧ Disk.tooLong (r ++ [name]) = false) :
    anyFile d (.absolute r) names = .ok (names.any fun name => d.tree.hasFile (r ++ [name])) := by
  induction names with
  | nil => rfl
  | cons name names ih =>
      obtain ⟨hvalid, hshort⟩ := hnames name (List.mem_cons_self ..)
      rw [anyFile, Path.child_absolute r hvalid.toPlain,
        Disk.isFile_child hr hvalid (hlinks name), hshort, List.any_cons]
      show (if d.tree.hasFile (r ++ [name]) = true then Except.ok true else _) = _
      rw [ih fun other hother => hnames other (List.mem_cons_of_mem _ hother)]
      cases d.tree.hasFile (r ++ [name]) with
      | true => rfl
      | false => rfl

/-- The files of a folder can all be told and read. -/
theorem filesIn_read (hd : d.Sound) (hr : d.tree.Standing r) (hlinks : d.tree.NoLinks r)
    (hshort : ∀ name ∈ d.tree.names r, Disk.tooLong (r ++ [name]) = false)
    (hroot : Disk.tooLong r = false) (endings : List Text) :
    ∃ ps sources, filesIn d (.absolute r) endings = .ok ps ∧
      ps.mapM (readSketch d) = .ok sources := by
  have hvalid := valid_of_mem_names hd.tree (l := r)
  have hnames : d.names (.absolute r) = .ok (d.tree.names r) := by
    rw [Disk.names, Disk.look_standing hr, hroot, if_neg Bool.false_ne_true]
  have hread : ∀ p ∈ ((d.tree.names r).filter (listed d.tree r endings)).map
      (Path.absolute r).child, d.isFile p = .ok true := by
    intro p hp
    obtain ⟨name, hname, rfl⟩ := List.mem_map.mp hp
    obtain ⟨hmem, hlisted⟩ := List.mem_filter.mp hname
    rw [Path.child_absolute r (hvalid name hmem).toPlain,
      Disk.isFile_child hr (hvalid name hmem) (hlinks name), hshort name hmem,
      (listed_iff.mp hlisted).1]
    rfl
  obtain ⟨sources, hsources⟩ := mapM_readSketch_of_isFile hread
  refine ⟨_, sources, ?_, hsources⟩
  rw [filesIn, hnames]
  exact filesAmong_eq hr hlinks hvalid hshort

/-- A project is found where a main sketch is, if no path is too long. -/
theorem scan_isOk (hd : d.Sound) (hr : d.tree.Standing r) (hlinks : d.tree.NoLinks r)
    (hshort : AllShort d r endings) (hroot : Disk.tooLong r = false)
    (hmain : ∃ e ∈ endings, d.tree.hasFile (r ++ [(Path.absolute r).name ++ e]) = true) :
    ∃ p, scan d endings companionEndings (Path.absolute r).text = .ok p := by
  have hchildren : ∀ name ∈ d.tree.names r, Disk.tooLong (r ++ [name]) = false :=
    fun name hname => (hshort name (List.mem_append_left _ hname)).2
  obtain ⟨ps, sources, hps, hsources⟩ := filesIn_read hd hr hlinks hchildren hroot endings
  obtain ⟨companions, -, hcompanions, -⟩ :=
    filesIn_read hd hr hlinks hchildren hroot companionEndings
  have hfound : anyFile d (.absolute r) (mainNames (Path.absolute r).name endings) = .ok true := by
    rw [anyFile_eq hr hlinks fun name hname => hshort name (List.mem_append_right _ hname)]
    obtain ⟨e, he, hfile⟩ := hmain
    exact congrArg Except.ok (List.any_eq_true.mpr ⟨_, List.mem_map_of_mem he, hfile⟩)
  refine ⟨⟨(Path.absolute r).name, .absolute r, Source.inOrder (Path.absolute r).name sources,
    byName companions⟩, ?_⟩
  rw [scan, requireFolder_standing hd hr hroot]
  show (ofFiles (anyFile d (.absolute r) (mainNames (Path.absolute r).name endings)) >>= _) = _
  rw [hfound]
  show (ofFiles (filesIn d (.absolute r) endings) >>= _) = _
  rw [hps]
  show (ofFiles (ps.mapM (readSketch d)) >>= _) = _
  rw [hsources]
  show (ofFiles (filesIn d (.absolute r) companionEndings) >>= _) = _
  rw [hcompanions]
  rfl

-- ── A project for any ending ────────────────────────────────────────────────

/-- The disk with one file in one folder, named after the folder with an ending behind. -/
def loneDisk (e : Text) : Disk where
  tree := ⟨[(["a"], .folder), (["a", "a" ++ e], .file [])]⟩
  here := []
  home := .absolute []

variable {e : Text}

theorem valid_lone (he : FileName.Fits e) : Tree.Valid ("a" ++ e) := by
  have hfirst : Path.slash ∉ ("a" : Text) ∧ ∀ g ∈ ("a" : Text),
      Utf8.isUnwritable g = false ∧ g ≠ .char '\x00' := by decide
  refine ⟨⟨⟨?_, ?_, ?_⟩, ?_⟩, Files.barredText?_eq_none.mpr fun g hg => ?_⟩
  · exact List.cons_ne_nil _ _
  · exact fun heq => absurd (List.cons.inj heq).1 (by decide)
  · exact fun heq => absurd (List.cons.inj heq).1 (by decide)
  · exact fun hmem => (List.mem_append.mp hmem).elim hfirst.1 he.noSlash
  · rcases List.mem_append.mp hg with hg | hg
    · exact hfirst.2 g hg
    · exact Files.barredText?_eq_none.mp he.written g hg

theorem tooLong_lone (he : FileName.Fits e) : Disk.tooLong ["a", "a" ++ e] = false := by
  have hlength := he.short
  have hname : (Utf8.encode ("a" ++ e)).length = 1 + (Utf8.encode e).length := by
    rw [Utf8.encode_append, List.length_append]
    rfl
  have hpath : (Utf8.encode (Path.absolute ["a", "a" ++ e]).text).length
      = 4 + (Utf8.encode e).length := by
    have htext : (Path.absolute ["a", "a" ++ e]).text = "/a/a" ++ e := by
      rw [Path.absolute_text, Text.joinWith_cons_cons, Text.joinWith_singleton]
      rfl
    rw [htext, Utf8.encode_append, List.length_append]
    rfl
  rw [Disk.tooLong, hpath, Bool.or_eq_false_iff, List.any_cons, List.any_cons, List.any_nil,
    Bool.or_false, Tree.nameTooLong, Tree.nameTooLong, hname]
  rw [Tree.longestName] at hlength
  refine ⟨decide_eq_false ?_, Bool.or_eq_false_iff.mpr ⟨by decide, decide_eq_false ?_⟩⟩
  · rw [Disk.longestPath]
    omega
  · rw [Tree.longestName]
    omega

theorem get?_lone (e : Text) : (loneDisk e).tree.get? ["a", "a" ++ e] = some (.file []) := by
  have hne : ((["a", "a" ++ e] : Location) == (["a"] : Location)) = false := rfl
  rw [Tree.get?_of_ne_nil _ (List.cons_ne_nil _ _), loneDisk, List.lookup_cons, hne]
  exact List.lookup_cons_self

theorem sound_lone (he : FileName.Fits e) : (loneDisk e).Sound := by
  refine ⟨Tree.sound_of_entries fun x hx name hname => ?_, ?_, rfl⟩
  · rcases List.mem_cons.mp hx with rfl | hx
    · obtain rfl := List.mem_singleton.mp hname
      exact ⟨by decide, rfl⟩
    · obtain rfl := List.mem_singleton.mp hx
      obtain rfl := List.mem_singleton.mp hname
      exact ⟨valid_lone he, rfl⟩
  · exact List.nodup_cons.mpr ⟨fun hmem => (nomatch List.mem_singleton.mp hmem),
      List.nodup_singleton _⟩

/-- A project is found with any endings that fit. -/
theorem scan_lone (companionEndings : List Text) (hfits : ∀ e ∈ endings, FileName.Fits e)
    (he : e ∈ endings) :
    ∃ p, scan (loneDisk e) endings companionEndings (Path.absolute ["a"]).text = .ok p := by
  have hd := sound_lone (hfits e he)
  refine scan_isOk hd (hd.tree.standing rfl) (Tree.noLinks_of_entries fun x hx hat => ?_)
    (fun name hname => ?_) (by decide) ⟨e, he, ?_⟩
  · rcases List.mem_cons.mp hx with rfl | hx
    · exact .inl rfl
    · obtain rfl := List.mem_singleton.mp hx
      exact .inr (Tree.hasFile_iff.mpr ⟨[], get?_lone e⟩)
  · rcases List.mem_append.mp hname with hname | hname
    · obtain rfl := List.mem_singleton.mp hname
      exact ⟨valid_lone (hfits e he), tooLong_lone (hfits e he)⟩
    · obtain ⟨other, hother, rfl⟩ := List.mem_map.mp hname
      exact ⟨valid_lone (hfits other hother), tooLong_lone (hfits other hother)⟩
  · exact Tree.hasFile_iff.mpr ⟨[], get?_lone e⟩

/-- **NO OTHER ENDINGS WILL DO.** -/
theorem proper_of_mainFirst (hendings : ∀ e ∈ endings, e ≠ [])
    (hfits : ∀ e ∈ endings, FileName.Fits e) (h : MainFirst endings companionEndings) :
    ∀ e ∈ endings, FileName.Proper e := by
  intro e he
  have hd := sound_lone (hfits e he)
  have hr : (loneDisk e).tree.Standing ["a"] := hd.tree.standing rfl
  obtain ⟨p, hp⟩ := scan_lone companionEndings hfits he
  obtain ⟨_, _, _, -, -, -, -, rfl⟩ := scan_found hd.tree hd.here hr hp
  have hname : (Path.absolute ["a"]).name ≠ [] := by decide
  obtain ⟨other, -, hproper, ⟨names, hnames, hmem⟩, -⟩ :=
    (scan_told hd hendings hp hname).1.mp (h _ _ _ hd hp hname).1
  -- the one file of the folder is the main sketch
  obtain rfl := names_eq_ok hr hnames
  obtain rfl : other = e := List.append_cancel_left (List.mem_singleton.mp hmem)
  exact hproper

-- ── Endings that are accepted ───────────────────────────────────────────────

/-- **THE MAIN SKETCH COMES FIRST WITH PROPER ENDINGS**, and can be missing with others that
    settings may name.  For each project: it starts with its main sketch just when a file of
    its folder has its name and a proper ending; and what is merged is told by the ending
    that is taken off. -/
theorem scan_main_first {disk : Disk} {settingsPath : Path} {s : Settings}
    (hload : Settings.load disk settingsPath = .ok s) :
    (∀ (d : Disk) (given : Text) (p : Project), d.Sound →
      scan d s.sketchEndings s.companionEndings given = .ok p → p.name ≠ [] →
        (p.OpensWithMain ↔ ∃ e ∈ s.sketchEndings, FileName.Proper e ∧
          IsFileOf d p.root (p.name ++ e)) ∧
        ∀ name, p.Merges name ↔ IsFileOf d p.root name ∧
          FileName.ending name ∈ s.sketchEndings) ∧
    ((∀ e ∈ s.sketchEndings, FileName.Proper e) →
      MainFirst s.sketchEndings s.companionEndings) ∧
    ((∀ e ∈ s.sketchEndings, FileName.Fits e) → MainFirst s.sketchEndings s.companionEndings →
      ∀ e ∈ s.sketchEndings, FileName.Proper e) := by
  have hendings : ∀ e ∈ s.sketchEndings, e ≠ [] :=
    fun e he => (Settings.isEnding_of_load hload e (List.mem_append_left _ he)).ne_nil
  exact ⟨fun d given p hd h hname => scan_told hd hendings h hname, mainFirst_of_proper,
    proper_of_mainFirst hendings⟩

/-- The disk with a project of given settings, and empty files of given names. -/
def projectDisk (settings : String) (names : List Text) : Disk where
  tree := ⟨(["p"], .folder) :: (["p", Settings.fileName], .file (Utf8.encode settings)) ::
    names.map fun name => (["p", name], .file [])⟩
  here := []
  home := .absolute []

/-- Two sketches have the name of the project and an ending.  The one with two dots is no
    sketch file. -/
theorem scan_main_first_twoDots : ∃ s p,
    Settings.load (projectDisk "extensions: \x7bsketch: .ino .b.pde\x7d" ["p.ino", "p.b.pde"])
      (.absolute ["p"]) = .ok s ∧ s.sketchEndings = [".ino", ".b.pde"] ∧
    scan (projectDisk "extensions: \x7bsketch: .ino .b.pde\x7d" ["p.ino", "p.b.pde"])
      s.sketchEndings s.companionEndings "/p" = .ok p ∧
    p.OpensWithMain ∧ p.Merges "p.ino" ∧ ¬ p.Merges "p.b.pde" := by
  generalize hdisk :
    projectDisk "extensions: \x7bsketch: .ino .b.pde\x7d" ["p.ino", "p.b.pde"] = d
  have hload : Settings.load d (.absolute ["p"])
      = .ok { root := .absolute ["p"], sketchEndings := [".ino", ".b.pde"] } := by
    rw [← hdisk]
    decide +kernel
  have hscan : scan d [".ino", ".b.pde"] ({ root := .absolute ["p"] } : Settings).companionEndings
      "/p" = .ok ⟨"p", .absolute ["p"], [⟨"p.ino", []⟩], []⟩ := by
    rw [← hdisk]
    decide +kernel
  have hd : d.Sound := by
    rw [← hdisk]
    exact ⟨Tree.sound_of_entries (by decide +kernel), by decide +kernel, rfl⟩
  have hfile : IsFileOf d (.absolute ["p"]) "p.ino" := by
    rw [← hdisk]
    exact ⟨⟨[Settings.fileName, "p.ino", "p.b.pde"], by decide +kernel, by decide +kernel⟩,
      by decide +kernel⟩
  obtain ⟨hopens, hmerges⟩ := (scan_main_first hload).1 d "/p" _ hd hscan (by decide)
  refine ⟨_, _, hload, rfl, hscan, hopens.mpr ⟨".ino", by decide, by decide, hfile⟩,
    (hmerges _).mpr ⟨hfile, by decide⟩, fun hmerged => ?_⟩
  exact absurd ((hmerges _).mp hmerged).2 (by decide)

/-- An ending with two dots lets in a project that has no sketch file at all. -/
theorem not_mainFirst_twoDots : ∃ s,
    Settings.load (projectDisk "extensions: \x7bsketch: .b.ino\x7d" ["p.b.ino"])
      (.absolute ["p"]) = .ok s ∧ ¬ MainFirst s.sketchEndings s.companionEndings := by
  have hload : Settings.load (projectDisk "extensions: \x7bsketch: .b.ino\x7d" ["p.b.ino"])
      (.absolute ["p"]) = .ok { root := .absolute ["p"], sketchEndings := [".b.ino"] } := by
    decide +kernel
  refine ⟨_, hload, fun hfirst => ?_⟩
  have hd : (projectDisk "extensions: \x7bsketch: .b.ino\x7d" ["p.b.ino"]).Sound :=
    ⟨Tree.sound_of_entries (by decide +kernel), by decide +kernel, rfl⟩
  have hscan : scan (projectDisk "extensions: \x7bsketch: .b.ino\x7d" ["p.b.ino"]) [".b.ino"]
      ({ root := .absolute ["p"] } : Settings).companionEndings "/p"
      = .ok ⟨"p", .absolute ["p"], [], []⟩ := by
    decide +kernel
  obtain ⟨⟨main, rest, heq, -⟩, -⟩ := hfirst _ _ _ hd hscan (by decide)
  exact nomatch heq

end Project

end SketchMerge
