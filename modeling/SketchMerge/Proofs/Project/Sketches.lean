import SketchMerge.Proofs.Files.Likeness
import SketchMerge.Proofs.Project.Contents

/-! # The sketch files of a project

    The sketch files of a folder are merged in an order of their names alone: those
    that are named after the project first, the others after them, and names in
    ascending order among each.  The order is total and no two files have one name,
    so it is ONE LIST OF FILES whatever the order in which the folder lists them. -/

namespace SketchMerge

-- ── The order of texts ──────────────────────────────────────────────────────

namespace Text

theorem le_cons (a b : Glyph) (s t : Text) :
    le (a :: s) (b :: t) = true ↔ a.code < b.code ∨ a.code = b.code ∧ le s t = true := by
  rw [le, Bool.or_eq_true, Bool.and_eq_true, decide_eq_true_iff, beq_iff_eq]

theorem le_total (s t : Text) : le s t = true ∨ le t s = true := by
  induction s generalizing t with
  | nil => exact .inl rfl
  | cons a s ih =>
      cases t with
      | nil => exact .inr rfl
      | cons b t =>
          rw [le_cons, le_cons]
          rcases Nat.lt_trichotomy a.code b.code with hlt | heq | hgt
          · exact .inl (.inl hlt)
          · rcases ih t with h | h
            · exact .inl (.inr ⟨heq, h⟩)
            · exact .inr (.inr ⟨heq.symm, h⟩)
          · exact .inr (.inl hgt)

theorem le_trans {s t u : Text} (hst : le s t = true) (htu : le t u = true) : le s u = true := by
  induction s generalizing t u with
  | nil => rfl
  | cons a s ih =>
      cases t with
      | nil => exact nomatch hst
      | cons b t =>
          cases u with
          | nil => exact nomatch htu
          | cons c u =>
              rw [le_cons] at hst htu ⊢
              rcases hst with hab | ⟨hab, hst⟩
              · rcases htu with hbc | ⟨hbc, -⟩
                · exact .inl (by omega)
                · exact .inl (by omega)
              · rcases htu with hbc | ⟨hbc, htu⟩
                · exact .inl (by omega)
                · exact .inr ⟨hab.trans hbc, ih hst htu⟩

theorem le_antisymm {s t : Text} (hst : le s t = true) (hts : le t s = true) : s = t := by
  induction s generalizing t with
  | nil =>
      cases t with
      | nil => rfl
      | cons b t => exact nomatch hts
  | cons a s ih =>
      cases t with
      | nil => exact nomatch hst
      | cons b t =>
          rw [le_cons] at hst hts
          rcases hst with hab | ⟨hab, hst⟩
          · rcases hts with hba | ⟨hba, -⟩
            · omega
            · omega
          · rcases hts with hba | ⟨-, hts⟩
            · omega
            · rw [Glyph.code_injective hab, ih hst hts]

end Text

-- ── The order of sketch files ───────────────────────────────────────────────

theorem Source.precedes_total (project : Text) (a b : Source) :
    (precedes project a b || precedes project b a) = true := by
  rw [precedes, precedes]
  cases a.isMain project with
  | true =>
      cases b.isMain project with
      | true => exact (Bool.or_eq_true _ _).mpr (Text.le_total a.name b.name)
      | false => rfl
  | false =>
      cases b.isMain project with
      | true => rfl
      | false => exact (Bool.or_eq_true _ _).mpr (Text.le_total a.name b.name)

theorem Source.precedes_trans (project : Text) (a b c : Source)
    (hab : precedes project a b = true) (hbc : precedes project b c = true) :
    precedes project a c = true := by
  cases hb : b.isMain project with
  | true =>
      cases ha : a.isMain project with
      | false =>
          rw [precedes, ha, hb] at hab
          exact absurd hab Bool.false_ne_true
      | true =>
          cases hc : c.isMain project with
          | false => rw [precedes, ha, hc]
          | true =>
              rw [precedes, ha, hb] at hab
              rw [precedes, hb, hc] at hbc
              rw [precedes, ha, hc]
              exact Text.le_trans hab hbc
  | false =>
      cases hc : c.isMain project with
      | true =>
          rw [precedes, hb, hc] at hbc
          exact absurd hbc Bool.false_ne_true
      | false =>
          cases ha : a.isMain project with
          | true => rw [precedes, ha, hc]
          | false =>
              rw [precedes, ha, hb] at hab
              rw [precedes, hb, hc] at hbc
              rw [precedes, ha, hc]
              exact Text.le_trans hab hbc

/-- Sources in order are sorted by what precedes. -/
theorem Source.inOrder_eq (project : Text) (files : List Source) :
    inOrder project files = files.mergeSort (precedes project) :=
  sortBy_eq_mergeSort (precedes_trans project) (precedes_total project) files

/-- The stem of a source whose name is one part of a path. -/
theorem Source.stem_of_plain {s : Source} (h : Tree.Plain s.name) :
    s.stem = FileName.stem s.name := by
  rw [stem, Path.ofText_plain h]
  rfl

namespace Project

/-- One file comes before another: it is named after the project and the other is not, or
    both are or neither is and its name is not above the other. -/
def Precedes (project a b : Text) : Prop :=
  FileName.stem a = project ∧ FileName.stem b ≠ project ∨
    (FileName.stem a = project ↔ FileName.stem b = project) ∧ Text.le a b = true

theorem Precedes.antisymm {project a b : Text} (hab : Precedes project a b)
    (hba : Precedes project b a) : a = b := by
  rcases hab with ⟨ha, hb⟩ | ⟨hsame, hab⟩
  · rcases hba with ⟨hb', -⟩ | ⟨hsame, -⟩
    · exact absurd hb' hb
    · exact absurd (hsame.mpr ha) hb
  · rcases hba with ⟨hb, ha⟩ | ⟨-, hba⟩
    · exact absurd (hsame.mpr hb) ha
    · exact Text.le_antisymm hab hba

/-- Sources are ordered by their names. -/
theorem precedes_iff {project : Text} {a b : Source} (ha : Tree.Plain a.name)
    (hb : Tree.Plain b.name) :
    Source.precedes project a b = true ↔ Precedes project a.name b.name := by
  have hstem {s : Source} (hs : Tree.Plain s.name) :
      s.isMain project = decide (FileName.stem s.name = project) := by
    rw [Source.isMain, Source.stem_of_plain hs, Bool.eq_iff_iff, beq_iff_eq, decide_eq_true_iff]
  rw [Source.precedes, hstem ha, hstem hb, Precedes]
  by_cases hma : FileName.stem a.name = project
  · by_cases hmb : FileName.stem b.name = project
    · simp [hma, hmb]
    · simp [hma, hmb]
  · by_cases hmb : FileName.stem b.name = project
    · simp [hma, hmb]
    · simp [hma, hmb]

/-- A file that is merged: its name and its bytes. -/
abbrev SketchFile := Text × List UInt8

/-- A file as it is read. -/
def sourceOf (f : SketchFile) : Source :=
  ⟨f.1, (Utf8.decode f.2).unifyNewlines⟩

/-- The sketch files of a folder, in the order in which they are merged. -/
structure Sketches (d : Disk) (r : Location) (endings : List Text) (files : List SketchFile) :
    Prop where
  /-- They are the entries of the folder that are files with one of the endings. -/
  mem : ∀ name, name ∈ files.map Prod.fst ↔
    name ∈ d.tree.names r ∧ d.isFile (.absolute (r ++ [name])) = .ok true ∧
      FileName.ending name ∈ endings
  /-- Each comes once. -/
  once : (files.map Prod.fst).Nodup
  /-- Each comes with the bytes it holds. -/
  read : ∀ f ∈ files, d.read (.absolute (r ++ [f.1])) = .ok f.2
  /-- They come in order. -/
  order : (files.map Prod.fst).Pairwise (Precedes (Path.absolute r).name)

variable {d : Disk} {r : Location} {endings : List Text}

/-- **ONE LIST OF FILES.** -/
theorem Sketches.unique {files files' : List SketchFile} (h : Sketches d r endings files)
    (h' : Sketches d r endings files') : files = files' := by
  have hnames : files.map Prod.fst = files'.map Prod.fst := by
    have hperm : (files.map Prod.fst).Perm (files'.map Prod.fst) :=
      (List.perm_ext_iff_of_nodup h.once h'.once).mpr fun name =>
        (h.mem name).trans (h'.mem name).symm
    exact hperm.eq_of_pairwise (fun a b _ _ hab hba => hab.antisymm hba) h.order h'.order
  have hbytes : ∀ f ∈ files, ∀ f' ∈ files', f.1 = f'.1 → f = f' := by
    intro f hf f' hf' heq
    have hread := h.read f hf
    rw [heq, h'.read f' hf'] at hread
    exact Prod.ext heq (Except.ok.inj hread).symm
  refine List.ext_getElem (by simpa using congrArg List.length hnames) fun i hi hi' => ?_
  refine hbytes _ (List.getElem_mem hi) _ (List.getElem_mem hi') ?_
  have hat := congrArg (fun names => names[i]?) hnames
  simpa [List.getElem?_eq_getElem, hi, hi'] using hat

/-- The sketch files are the same where the files hold the same. -/
theorem Sketches.of_alike {d' : Disk} {files : List SketchFile} (h : Sketches d r endings files)
    (halike : d.Alike d')
    (hsame : ∀ name, FileName.ending name ∈ endings → ∀ l,
      d'.locate .find (.absolute (r ++ [name])) = .ok l → d.tree.get? l = d'.tree.get? l) :
    Sketches d' r endings files where
  mem := fun name => by
    rw [h.mem, Tree.mem_names, Tree.mem_names, (halike.tree _).isSome,
      Disk.isFile_alike halike]
  once := h.once
  read := fun f hf => Disk.read_alike halike
    (hsame f.1 ((h.mem f.1).mp (List.mem_map_of_mem hf)).2.2) (h.read f hf)
  order := h.order

-- ── What is read ────────────────────────────────────────────────────────────

/-- What was filtered is what the test holds of. -/
theorem filterM_eq_filter {ε α : Type} {p : α → Except ε Bool} {xs ys : List α}
    (h : xs.filterM p = .ok ys) : ys = xs.filter fun x => (p x).toOption.getD false := by
  have htested : ∀ x ∈ xs, p x = .ok ((p x).toOption.getD false) := by
    intro x hx
    obtain ⟨b, hb⟩ := tested_of_filterM h x hx
    rw [hb]
    rfl
  rw [filterM_eq_ok htested] at h
  exact (Except.ok.inj h).symm

/-- The files that are found in a folder, links to files among them, by their names. -/
theorem filesIn_eq (ht : d.tree.Sound) (hr : d.tree.Standing r) {ps : List Path}
    (h : filesIn d (.absolute r) endings = .ok ps) :
    ps = ((d.tree.names r).filter fun name =>
      (d.isFile (.absolute (r ++ [name]))).toOption.getD false &&
        endings.contains (FileName.ending name)).map fun name => .absolute (r ++ [name]) := by
  obtain ⟨names, hnames, h⟩ := bind_eq_ok h
  obtain rfl := names_eq_ok hr hnames
  have hchild : ∀ name ∈ d.tree.names r, (Path.absolute r).child name = .absolute (r ++ [name]) :=
    fun name hname => Path.child_absolute r (valid_of_mem_names ht name hname).toPlain
  rw [filterM_eq_filter h, List.map_congr_left hchild, List.filter_map]
  congr 1
  refine List.filter_congr fun name _ => ?_
  rw [Function.comp_apply, Path.name_absolute]
  cases d.isFile (.absolute (r ++ [name])) with
  | error fault => rfl
  | ok b => rfl

/-- A file with the bytes that are read from it. -/
def fileAt (d : Disk) (p : Path) : SketchFile :=
  (p.name, (d.read p).toOption.getD [])

theorem readSketch_eq_ok {p : Path} {s : Source} (h : readSketch d p = .ok s) :
    s = sourceOf (fileAt d p) ∧ d.read p = .ok (fileAt d p).2 := by
  obtain ⟨content, hread, h⟩ := bind_eq_ok h
  rw [fileAt, hread]
  exact ⟨(Except.ok.inj h).symm, rfl⟩

theorem mapM_readSketch {ps : List Path} {sources : List Source}
    (h : ps.mapM (readSketch d) = .ok sources) :
    sources = (ps.map (fileAt d)).map sourceOf ∧ ∀ p ∈ ps, d.read p = .ok (fileAt d p).2 := by
  induction ps generalizing sources with
  | nil =>
      obtain rfl := Except.ok.inj h
      exact ⟨rfl, fun _ hp => nomatch hp⟩
  | cons p ps ih =>
      rw [List.mapM_cons] at h
      obtain ⟨s, hs, h⟩ := bind_eq_ok h
      obtain ⟨rest, hrest, h⟩ := bind_eq_ok h
      obtain rfl := Except.ok.inj h
      obtain ⟨rfl, hread⟩ := readSketch_eq_ok hs
      obtain ⟨rfl, hreads⟩ := ih hrest
      refine ⟨rfl, fun q hq => ?_⟩
      rcases List.mem_cons.mp hq with rfl | hq
      · exact hread
      · exact hreads q hq

/-- What is a file can be read. -/
theorem readSketch_of_isFile {p : Path} (h : d.isFile p = .ok true) :
    ∃ source, readSketch d p = .ok source := by
  obtain ⟨m, content, hlook⟩ := Disk.isFile_eq_true.mp h
  exact ⟨_, by rw [readSketch, Disk.read, hlook]; rfl⟩

theorem mapM_readSketch_of_isFile {ps : List Path} (h : ∀ p ∈ ps, d.isFile p = .ok true) :
    ∃ sources, ps.mapM (readSketch d) = .ok sources := by
  induction ps with
  | nil => exact ⟨[], rfl⟩
  | cons p ps ih =>
      obtain ⟨source, hsource⟩ := readSketch_of_isFile (h p (List.mem_cons_self ..))
      obtain ⟨sources, hsources⟩ := ih fun q hq => h q (List.mem_cons_of_mem _ hq)
      exact ⟨source :: sources, by rw [List.mapM_cons, hsource, hsources]; rfl⟩

/-- The order of the files of a folder, as that of their sources. -/
def fileOrder (r : Location) (a b : SketchFile) : Bool :=
  Source.precedes (Path.absolute r).name (sourceOf a) (sourceOf b)

/-- The files of some names, sorted, are in order. -/
theorem sketches_sorted (ht : d.tree.Sound) (hdistinct : d.tree.Distinct) {names : List Text}
    {files : List SketchFile}
    (hnames : names = (d.tree.names r).filter fun name =>
      (d.isFile (.absolute (r ++ [name]))).toOption.getD false &&
        endings.contains (FileName.ending name))
    (hfiles : files = (names.map fun name => Path.absolute (r ++ [name])).map (fileAt d))
    (hread : ∀ name ∈ names, d.read (.absolute (r ++ [name])) =
      .ok (fileAt d (.absolute (r ++ [name]))).2) :
    Sketches d r endings (files.mergeSort (fileOrder r)) := by
  have hperm := List.mergeSort_perm files (fileOrder r)
  have hfst : files.map Prod.fst = names := by
    rw [hfiles, List.map_map, List.map_map]
    exact (List.map_congr_left fun name _ => Path.name_absolute r name).trans (List.map_id names)
  have hplain : ∀ name ∈ names, Tree.Plain name := by
    intro name hname
    rw [hnames, List.mem_filter] at hname
    exact (valid_of_mem_names ht name hname.1).toPlain
  constructor
  case mem =>
      intro name
      rw [(hperm.map Prod.fst).mem_iff, hfst, hnames, List.mem_filter, Bool.and_eq_true,
        List.contains_iff_mem]
      cases d.isFile (.absolute (r ++ [name])) with
      | error fault => simp [Except.toOption]
      | ok b => simp [Except.toOption]
  case once =>
      rw [(hperm.map Prod.fst).nodup_iff, hfst, hnames]
      exact (hdistinct.names r).filter _
  case read =>
      intro f hf
      rw [hperm.mem_iff, hfiles, List.map_map] at hf
      obtain ⟨name, hname, rfl⟩ := List.mem_map.mp hf
      have hfirst : (fileAt d (.absolute (r ++ [name]))).1 = name := Path.name_absolute r name
      show d.read (.absolute (r ++ [(fileAt d (.absolute (r ++ [name]))).1])) = _
      rw [hfirst]
      exact hread name hname
  case order =>
      have hsorted : (files.mergeSort (fileOrder r)).Pairwise (fileOrder r · ·) :=
        List.pairwise_mergeSort
          (fun a b c => Source.precedes_trans _ (sourceOf a) (sourceOf b) (sourceOf c))
          (fun a b => Source.precedes_total _ (sourceOf a) (sourceOf b)) files
      have hname : ∀ f ∈ files, Tree.Plain f.1 := by
        intro f hf
        refine hplain f.1 ?_
        rw [← hfst]
        exact List.mem_map_of_mem hf
      refine List.pairwise_map.mpr (hsorted.imp_of_mem fun {a b} ha hb hab => ?_)
      exact (precedes_iff (a := sourceOf a) (b := sourceOf b) (hname a (hperm.mem_iff.mp ha))
        (hname b (hperm.mem_iff.mp hb))).mp hab

/-- What is read from the files that are found, in order, is the sketch files of the folder. -/
theorem sketches_read (ht : d.tree.Sound) (hdistinct : d.tree.Distinct) (hr : d.tree.Standing r)
    {ps : List Path} {sources : List Source} (hps : filesIn d (.absolute r) endings = .ok ps)
    (hsources : ps.mapM (readSketch d) = .ok sources) :
    ∃ files, Source.inOrder (Path.absolute r).name sources = files.map sourceOf ∧
      Sketches d r endings files := by
  obtain ⟨rfl, hread⟩ := mapM_readSketch hsources
  rw [filesIn_eq ht hr hps] at hread ⊢
  refine ⟨_, ?_, sketches_sorted ht hdistinct rfl rfl fun name hname =>
    hread _ (List.mem_map_of_mem hname)⟩
  rw [List.map_mergeSort (r := fileOrder r) (f := sourceOf)
    (s := Source.precedes (Path.absolute r).name) fun _ _ _ _ => rfl]
  exact Source.inOrder_eq _ _

/-- **THE SKETCHES OF A PROJECT** are the sketch files of its folder, in order. -/
theorem scan_sketches (ht : d.tree.Sound) (hdistinct : d.tree.Distinct)
    (hhere : d.tree.get? d.here = some .folder) (hr : d.tree.Standing r)
    {companionEndings : List Text} {p : Project}
    (h : scan d endings companionEndings (Path.absolute r).text = .ok p) :
    ∃ files, p.sketches = files.map sourceOf ∧ Sketches d r endings files := by
  obtain ⟨ps, sources, companions, -, hps, hsources, -, rfl⟩ := scan_found ht hhere hr h
  exact sketches_read ht hdistinct hr hps hsources

end Project

end SketchMerge
