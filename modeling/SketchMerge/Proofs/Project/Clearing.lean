import SketchMerge.Proofs.Files.Reaching
import SketchMerge.Proofs.Project.Relisted

/-! # Clearing a folder with links

    Each entry of a folder is looked at when its turn comes, and by then others are gone.
    A link that led to a file THROUGH AN ENTRY THAT IS GONE leads nowhere, and is left.  So
    what is cleared depends on the order in which the folder lists its entries.  When all is
    done no entry is a file any more that could have been cleared; but every entry that was
    one is gone only if none of them led through one that is listed before it
    (`clear_sweeps`). -/

namespace SketchMerge

-- ── What leads to a file ────────────────────────────────────────────────────

namespace Disk

variable {d : Disk} {p : Path}

/-- Where a path ends at a file, it can be told whether it leads to one. -/
theorem isFile_of_ends (h : Tree.EndsAtFile (d.look p)) : ∃ b, d.isFile p = .ok b := by
  rw [isFile, check]
  generalize d.look p = r at h
  cases h with
  | file m content => exact ⟨true, rfl⟩
  | blocked => exact ⟨false, rfl⟩
  | stuck => exact ⟨false, rfl⟩

end Disk

namespace Output

variable {d : Disk} {folder : Path} {l : Location} {endings gone names : List Text} {name : Text}

/-- The entry leads to a file and has one of the endings. -/
def Stale (d : Disk) (folder : Path) (endings : List Text) (name : Text) : Prop :=
  d.isFile (folder.child name) = .ok true ∧ FileName.ending name ∈ endings

/-- An entry leads through another one of the folder. -/
def Through (d : Disk) (folder : Path) (l : Location) (name other : Text) : Prop :=
  d.Passes (folder.child name) (l ++ [other])

/-- The disk without some entries of a folder. -/
def without (d : Disk) (l : Location) (gone : List Text) : Disk :=
  { d with tree := withoutNames d.tree l gone }

-- ── Without some entries ────────────────────────────────────────────────────

theorem get?_withoutNames (t : Tree) (l : Location) (gone : List Text) (k : Location) :
    (withoutNames t l gone).get? k
      = if ∃ name ∈ gone, k = l ++ [name] then none else t.get? k := by
  induction gone generalizing t with
  | nil =>
      rw [withoutNames_nil, if_neg]
      rintro ⟨name, hname, -⟩
      exact nomatch hname
  | cons name gone ih =>
      rw [withoutNames_cons, ih, Tree.get?_erase _ (concat_ne_nil l name)]
      by_cases hk : k = l ++ [name]
      · rw [if_pos hk, ite_self, if_pos ⟨name, List.mem_cons_self .., hk⟩]
      · rw [if_neg hk]
        refine if_congr ?_ rfl rfl
        constructor
        · rintro ⟨other, hother, heq⟩
          exact ⟨other, List.mem_cons_of_mem _ hother, heq⟩
        · rintro ⟨other, hother, heq⟩
          rcases List.mem_cons.mp hother with rfl | hother
          · exact absurd heq hk
          · exact ⟨other, hother, heq⟩

theorem erase_withoutNames (t : Tree) (l : Location) (gone : List Text) (name : Text) :
    (withoutNames t l gone).erase (l ++ [name]) = withoutNames t l (gone ++ [name]) := by
  rw [withoutNames, withoutNames, Tree.erase, List.filter_filter]
  congr 1
  refine List.filter_congr fun x _ => ?_
  rw [List.map_append, List.contains_append, Bool.not_or, Bool.and_comm, List.map_singleton,
    List.contains_cons, List.contains_nil, Bool.or_false]
  rfl

/-- A folder seen by a path, from which entries are taken that lead to files. -/
structure Sweeping (d : Disk) (folder : Path) (l : Location) (gone : List Text) : Prop where
  sound : d.Sound
  leads : d.look folder = .ok (l, .folder)
  plain : ∀ name ∈ gone, Tree.Plain name
  files : ∀ name ∈ gone, d.isFile (folder.child name) = .ok true

namespace Sweeping

theorem thinned (h : Sweeping d folder l gone) : d.tree.Thinned (without d l gone).tree := by
  constructor
  · intro k
    rw [without, get?_withoutNames]
    split
    · exact .inr rfl
    · exact .inl rfl
  · intro k hk
    rw [without, get?_withoutNames, if_neg, hk]
    rintro ⟨name, hname, rfl⟩
    obtain ⟨m, content, hfile⟩ := Disk.isFile_eq_true.mp (h.files name hname)
    obtain ⟨e, hget, hne⟩ := Disk.entry_of_file h.sound h.leads (h.plain name hname) hfile
    exact hne (Option.some.inj (hget.symm.trans hk))

/-- A path that passes what is gone led no further than to a file. -/
theorem ends (h : Sweeping d folder l gone) {p : Path} (hname : name ∈ gone)
    (hp : d.Passes p (l ++ [name])) : Tree.EndsAtFile (d.look p) := by
  obtain ⟨m, content, hfile⟩ := Disk.isFile_eq_true.mp (h.files name hname)
  exact Disk.ends_of_passes h.sound h.leads (h.plain name hname) hfile hp

/-- A path that passes nothing that is gone leads where it led. -/
theorem look_same (h : Sweeping d folder l gone) {p : Path}
    (hp : ∀ other ∈ gone, ¬ d.Passes p (l ++ [other])) : (without d l gone).look p = d.look p := by
  rcases Disk.look_thinned h.sound h.thinned rfl p with ⟨hsame, -⟩ | ⟨-, k, hk, hgone, hsome⟩
  · exact hsame
  · rw [without, get?_withoutNames] at hgone
    split at hgone
    next hmem =>
        obtain ⟨other, hother, rfl⟩ := hmem
        exact absurd hk (hp other hother)
    next =>
        rw [hgone] at hsome
        exact nomatch hsome

/-- The path still leads to the folder. -/
theorem look_folder (h : Sweeping d folder l gone) :
    (without d l gone).look folder = .ok (l, .folder) := by
  refine (h.look_same fun other hother hp => ?_).trans h.leads
  have hend := h.ends hother hp
  rw [h.leads] at hend
  exact nomatch hend

/-- An entry is what it was if it leads through none that is gone. -/
theorem isFile_same (h : Sweeping d folder l gone)
    (hthrough : ∀ other ∈ gone, ¬ Through d folder l name other) :
    (without d l gone).isFile (folder.child name) = d.isFile (folder.child name) := by
  rw [Disk.isFile, Disk.check, h.look_same hthrough]
  rfl

/-- An entry leads nowhere if it led through one that is gone. -/
theorem isFile_lost (h : Sweeping d folder l gone) {other : Text} (hother : other ∈ gone)
    (hthrough : Through d folder l name other) :
    (without d l gone).isFile (folder.child name) = .ok false := by
  rcases Disk.look_thinned h.sound h.thinned rfl (folder.child name) with
    ⟨-, hsame⟩ | ⟨hmissing, -⟩
  · obtain ⟨m, content, hfile⟩ := Disk.isFile_eq_true.mp (h.files other hother)
    obtain ⟨e, hget, -⟩ := Disk.entry_of_file h.sound h.leads (h.plain other hother) hfile
    have hgone := hsame _ hthrough
    rw [without, get?_withoutNames, if_pos ⟨other, hother, rfl⟩, hget] at hgone
    exact nomatch hgone
  · rw [Disk.isFile, Disk.check, hmissing]

end Sweeping

-- ── One entry after the other ───────────────────────────────────────────────

namespace Sweeping

/-- An entry that cannot be looked at is not passed over. -/
theorem turn_fault (h : Sweeping d folder l gone) (hname : Tree.Plain name) {fault : Files.Fault}
    (hfault : d.isFile (folder.child name) = .error fault) :
    clearEach folder endings (name :: names) (without d l gone)
      = (.error fault, without d l gone) := by
  have hthrough : ∀ other ∈ gone, ¬ Through d folder l name other := by
    intro other hother hthrough
    obtain ⟨b, hb⟩ := Disk.isFile_of_ends (h.ends hother hthrough)
    exact nomatch hfault.symm.trans hb
  exact clearEach_fault (filesAmong_fault hname ((h.isFile_same hthrough).trans hfault))

/-- An entry that is stale is deleted if it leads through none that is gone. -/
theorem turn_take (h : Sweeping d folder l gone) (hname : Tree.Plain name)
    (hstale : Stale d folder endings name)
    (hthrough : ∀ other ∈ gone, ¬ Through d folder l name other) :
    clearEach folder endings (name :: names) (without d l gone)
      = ((clearEach folder endings names (without d l (gone ++ [name]))).1.map
          (folder.child name :: ·),
        (clearEach folder endings names (without d l (gone ++ [name]))).2) := by
  have hlocation : (without d l gone).entryLocation (folder.child name) = .ok (l ++ [name]) := by
    rw [Disk.entryLocation, Path.parent_child folder hname, h.look_folder,
      Path.name_child folder hname]
  have hlisted := filesAmong_looked endings hname
    ((h.isFile_same hthrough).trans hstale.1)
  rw [List.contains_iff_mem.mpr hstale.2] at hlisted
  rw [clearEach_take hlisted hlocation, without, erase_withoutNames]
  rfl

/-- An entry is left if it is not stale, or leads through one that is gone. -/
theorem turn_leave (h : Sweeping d folder l gone) (hname : Tree.Plain name)
    (hlooked : ∃ b, d.isFile (folder.child name) = .ok b)
    (hleft : Stale d folder endings name → ∃ other ∈ gone, Through d folder l name other) :
    clearEach folder endings (name :: names) (without d l gone)
      = clearEach folder endings names (without d l gone) := by
  by_cases hthrough : ∃ other ∈ gone, Through d folder l name other
  · obtain ⟨other, hother, hthrough⟩ := hthrough
    exact clearEach_leave (filesAmong_looked endings hname (h.isFile_lost hother hthrough))
  · obtain ⟨b, hb⟩ := hlooked
    have hlisted := filesAmong_looked endings hname
      ((h.isFile_same fun other hother hlead => hthrough ⟨other, hother, hlead⟩).trans hb)
    have hnot : (b && endings.contains (FileName.ending name)) = false := by
      refine Bool.eq_false_iff.mpr fun hboth => hthrough (hleft ?_)
      rw [Bool.and_eq_true, List.contains_iff_mem] at hboth
      exact ⟨by rw [hb, hboth.1], hboth.2⟩
    rw [hnot] at hlisted
    exact clearEach_leave hlisted

end Sweeping

/-- No stale entry leads through a stale one that is listed before it. -/
def InOrder (d : Disk) (folder : Path) (l : Location) (endings names : List Text) : Prop :=
  names.Pairwise fun other name => Stale d folder endings other → Stale d folder endings name →
    ¬ Through d folder l name other

/-- Of some names, after others are gone, more go. -/
structure Sweep (d : Disk) (folder : Path) (l : Location) (endings gone names more : List Text) :
    Prop where
  sublist : more.Sublist names
  stale : ∀ name ∈ more, Stale d folder endings name
  left : ∀ name ∈ names, Stale d folder endings name →
    name ∈ more ∨ ∃ other ∈ gone ++ more, Through d folder l name other
  complete : (∀ name ∈ names, Stale d folder endings name → name ∈ more) ↔
    InOrder d folder l endings names ∧ ∀ name ∈ names, Stale d folder endings name →
      ∀ other ∈ gone, ¬ Through d folder l name other

namespace Sweep

variable {more : List Text}

theorem nil (d : Disk) (folder : Path) (l : Location) (endings gone : List Text) :
    Sweep d folder l endings gone [] [] where
  sublist := .slnil
  stale := fun _ h => absurd h List.not_mem_nil
  left := fun _ h => absurd h List.not_mem_nil
  complete := ⟨fun _ => ⟨.nil, fun _ h => absurd h List.not_mem_nil⟩,
    fun _ _ h => absurd h List.not_mem_nil⟩

/-- One entry goes. -/
theorem take (hstale : Stale d folder endings name)
    (hfree : ∀ other ∈ gone, ¬ Through d folder l name other) (hnew : name ∉ names)
    (h : Sweep d folder l endings (gone ++ [name]) names more) :
    Sweep d folder l endings gone (name :: names) (name :: more) where
  sublist := h.sublist.cons_cons name
  stale := List.forall_mem_cons.mpr ⟨hstale, h.stale⟩
  left := by
    refine List.forall_mem_cons.mpr ⟨fun _ => .inl (List.mem_cons_self ..), fun x hx hxs => ?_⟩
    rcases h.left x hx hxs with hmore | ⟨other, hother, hthrough⟩
    · exact .inl (List.mem_cons_of_mem _ hmore)
    · rw [List.append_assoc] at hother
      exact .inr ⟨other, hother, hthrough⟩
  complete := by
    have hall : (∀ x ∈ name :: names, Stale d folder endings x → x ∈ name :: more) ↔
        ∀ x ∈ names, Stale d folder endings x → x ∈ more := by
      constructor
      · intro hall x hx hxs
        rcases List.mem_cons.mp (hall x (List.mem_cons_of_mem _ hx) hxs) with rfl | hmore
        · exact absurd hx hnew
        · exact hmore
      · intro hall
        exact List.forall_mem_cons.mpr ⟨fun _ => List.mem_cons_self ..,
          fun x hx hxs => List.mem_cons_of_mem _ (hall x hx hxs)⟩
    rw [hall, h.complete, InOrder, InOrder, List.pairwise_cons]
    constructor
    · rintro ⟨horder, hfrees⟩
      refine ⟨⟨fun x hx _ hxs => hfrees x hx hxs name ?_, horder⟩,
        List.forall_mem_cons.mpr ⟨fun _ => hfree, fun x hx hxs other hother => ?_⟩⟩
      · exact List.mem_append_right _ (List.mem_singleton_self name)
      · exact hfrees x hx hxs other (List.mem_append_left _ hother)
    · rintro ⟨⟨hfirst, horder⟩, hfrees⟩
      refine ⟨horder, fun x hx hxs other hother => ?_⟩
      rcases List.mem_append.mp hother with hother | hother
      · exact hfrees x (List.mem_cons_of_mem _ hx) hxs other hother
      · rw [List.mem_singleton.mp hother]
        exact hfirst x hx hstale hxs

/-- One entry is left. -/
theorem leave (hleft : Stale d folder endings name → ∃ other ∈ gone, Through d folder l name other)
    (hnew : name ∉ names) (h : Sweep d folder l endings gone names more) :
    Sweep d folder l endings gone (name :: names) more where
  sublist := h.sublist.cons name
  stale := h.stale
  left := by
    refine List.forall_mem_cons.mpr ⟨fun hstale => ?_, h.left⟩
    obtain ⟨other, hother, hthrough⟩ := hleft hstale
    exact .inr ⟨other, List.mem_append_left _ hother, hthrough⟩
  complete := by
    rw [InOrder, List.pairwise_cons]
    constructor
    · intro hall
      obtain ⟨horder, hfrees⟩ :=
        h.complete.mp fun x hx hxs => hall x (List.mem_cons_of_mem _ hx) hxs
      have hfresh : ¬ Stale d folder endings name :=
        fun hstale => hnew (h.sublist.subset (hall name (List.mem_cons_self ..) hstale))
      exact ⟨⟨fun x hx hstale => absurd hstale hfresh, horder⟩,
        List.forall_mem_cons.mpr ⟨fun hstale => absurd hstale hfresh, hfrees⟩⟩
    · rintro ⟨⟨-, horder⟩, hfrees⟩
      refine List.forall_mem_cons.mpr ⟨fun hstale => ?_, h.complete.mpr ⟨horder,
        fun x hx => hfrees x (List.mem_cons_of_mem _ hx)⟩⟩
      obtain ⟨other, hother, hthrough⟩ := hleft hstale
      exact absurd hthrough (hfrees name (List.mem_cons_self ..) hstale other hother)

end Sweep

theorem Sweeping.concat (h : Sweeping d folder l gone) (hname : Tree.Plain name)
    (hfile : d.isFile (folder.child name) = .ok true) :
    Sweeping d folder l (gone ++ [name]) where
  sound := h.sound
  leads := h.leads
  plain := List.forall_mem_append.mpr ⟨h.plain, List.forall_mem_singleton.mpr hname⟩
  files := List.forall_mem_append.mpr ⟨h.files, List.forall_mem_singleton.mpr hfile⟩

/-- **ENTRIES GO ONE AFTER THE OTHER** if all of them can be looked at. -/
theorem Sweeping.clearEach_eq_ok (h : Sweeping d folder l gone)
    (hnames : ∀ name ∈ names, Tree.Plain name) (honce : names.Nodup)
    (hlooked : ∀ name ∈ names, ∃ b, d.isFile (folder.child name) = .ok b) :
    ∃ more, clearEach folder endings names (without d l gone)
        = (.ok (more.map folder.child), without d l (gone ++ more)) ∧
      Sweep d folder l endings gone names more := by
  induction names generalizing gone with
  | nil => exact ⟨[], by rw [List.append_nil]; rfl, .nil d folder l endings gone⟩
  | cons name names ih =>
      obtain ⟨hname, hnames⟩ := List.forall_mem_cons.mp hnames
      obtain ⟨hnew, honce⟩ := List.nodup_cons.mp honce
      obtain ⟨hfirst, hlooked⟩ := List.forall_mem_cons.mp hlooked
      by_cases hleft : Stale d folder endings name → ∃ other ∈ gone, Through d folder l name other
      · obtain ⟨more, hclear, hsweep⟩ := ih h hnames honce hlooked
        exact ⟨more, (h.turn_leave hname hfirst hleft).trans hclear, hsweep.leave hleft hnew⟩
      · obtain ⟨hstale, hnone⟩ := Classical.not_imp.mp hleft
        have hfree : ∀ other ∈ gone, ¬ Through d folder l name other :=
          fun other hother hthrough => hnone ⟨other, hother, hthrough⟩
        obtain ⟨more, hclear, hsweep⟩ := ih (h.concat hname hstale.1) hnames honce hlooked
        refine ⟨name :: more, ?_, hsweep.take hstale hfree hnew⟩
        rw [h.turn_take hname hstale hfree, hclear, List.append_assoc]
        rfl

/-- Clearing stops at an entry that cannot be looked at. -/
theorem Sweeping.clearEach_eq_error (h : Sweeping d folder l gone) (endings : List Text)
    (hnames : ∀ name ∈ names, Tree.Plain name)
    (hfault : ∃ name ∈ names, ∃ fault, d.isFile (folder.child name) = .error fault) :
    ∃ fault, (clearEach folder endings names (without d l gone)).1 = .error fault := by
  induction names generalizing gone with
  | nil =>
      obtain ⟨_, hmem, -⟩ := hfault
      exact nomatch hmem
  | cons name names ih =>
      obtain ⟨hname, hnames⟩ := List.forall_mem_cons.mp hnames
      cases hfirst : d.isFile (folder.child name) with
      | error fault => exact ⟨fault, by rw [h.turn_fault hname hfirst]⟩
      | ok b =>
          have hfault : ∃ name ∈ names, ∃ fault, d.isFile (folder.child name) = .error fault := by
            obtain ⟨other, hother, fault, hfault⟩ := hfault
            rcases List.mem_cons.mp hother with rfl | hother
            · exact nomatch hfirst.symm.trans hfault
            · exact ⟨other, hother, fault, hfault⟩
          by_cases hleft :
              Stale d folder endings name → ∃ other ∈ gone, Through d folder l name other
          · obtain ⟨fault, hclear⟩ := ih h hnames hfault
            exact ⟨fault, by rw [h.turn_leave hname ⟨b, hfirst⟩ hleft, hclear]⟩
          · obtain ⟨hstale, hnone⟩ := Classical.not_imp.mp hleft
            obtain ⟨fault, hclear⟩ := ih (h.concat hname hstale.1) hnames hfault
            refine ⟨fault, ?_⟩
            rw [h.turn_take hname hstale fun other hother hthrough =>
              hnone ⟨other, hother, hthrough⟩, hclear]
            rfl

-- ── The folder as a whole ───────────────────────────────────────────────────

/-- Of every entry of the folder it can be told whether it leads to a file. -/
def Looked (d : Disk) (folder : Path) (l : Location) : Prop :=
  ∀ name ∈ d.tree.names l, ∃ b, d.isFile (folder.child name) = .ok b

/-- What has been cleared of a folder, and what has not. -/
structure Swept (d : Disk) (folder : Path) (l : Location) (endings : List Text)
    (removed : List Path) (d' : Disk) : Prop where
  /-- What is given as removed is given once. -/
  once : removed.Nodup
  /-- It was a stale entry. -/
  stale : ∀ p ∈ removed, ∃ name ∈ d.tree.names l, p = folder.child name ∧
    Stale d folder endings name
  /-- It is gone. -/
  gone : ∀ name ∈ d.tree.names l, folder.child name ∈ removed → d'.tree.get? (l ++ [name]) = none
  /-- Nothing else is changed, in the folder and outside. -/
  kept : ∀ k, (∀ name ∈ d.tree.names l, folder.child name ∈ removed → k ≠ l ++ [name]) →
    d'.tree.get? k = d.tree.get? k
  places : d'.here = d.here ∧ d'.home = d.home
  /-- A stale entry is left only if it led through one that is gone. -/
  left : ∀ name ∈ d.tree.names l, Stale d folder endings name → folder.child name ∈ removed ∨
    ∃ other ∈ d.tree.names l, folder.child other ∈ removed ∧ Through d folder l name other
  /-- No entry is stale any more. -/
  clean : ∀ name ∈ d'.tree.names l, ¬ Stale d' folder endings name

/-- All stale entries are cleared. -/
def Complete (d : Disk) (folder : Path) (l : Location) (endings : List Text) : Prop :=
  ∃ removed d', clear folder endings d = (.ok removed, d') ∧
    ∀ name ∈ d.tree.names l, Stale d folder endings name → d'.tree.get? (l ++ [name]) = none

theorem plain_of_mem_names (hd : d.Sound) : ∀ name ∈ d.tree.names l, Tree.Plain name :=
  fun name hname => (Project.valid_of_mem_names hd.tree name hname).toPlain

theorem clear_eq (hfolder : d.look folder = .ok (l, .folder)) (endings : List Text) :
    clear folder endings d = clearEach folder endings (d.tree.names l) (without d l []) := by
  rw [clear, Disk.names, hfolder, without, withoutNames_nil]

theorem sweeping_nil (hd : d.Sound) (hfolder : d.look folder = .ok (l, .folder)) :
    Sweeping d folder l [] where
  sound := hd
  leads := hfolder
  plain := fun _ h => absurd h List.not_mem_nil
  files := fun _ h => absurd h List.not_mem_nil

/-- A folder is swept from the first entry to the last. -/
theorem clear_eq_ok (hd : d.Sound) (hfolder : d.look folder = .ok (l, .folder))
    (endings : List Text) (hlooked : Looked d folder l) :
    ∃ gone, clear folder endings d = (.ok (gone.map folder.child), without d l gone) ∧
      Sweep d folder l endings [] (d.tree.names l) gone := by
  rw [clear_eq hfolder]
  exact (sweeping_nil hd hfolder).clearEach_eq_ok (plain_of_mem_names hd) (hd.distinct.names l)
    hlooked

/-- Clearing gives a result just when all entries can be looked at. -/
theorem exists_clear_iff (hd : d.Sound) (hfolder : d.look folder = .ok (l, .folder))
    (endings : List Text) :
    (∃ removed d', clear folder endings d = (.ok removed, d')) ↔ Looked d folder l := by
  constructor
  · rintro ⟨removed, d', hclear⟩ name hname
    cases hfile : d.isFile (folder.child name) with
    | ok b => exact ⟨b, rfl⟩
    | error fault =>
        obtain ⟨stop, hstop⟩ := (sweeping_nil hd hfolder).clearEach_eq_error endings
          (plain_of_mem_names hd) ⟨name, hname, fault, hfile⟩
        rw [← clear_eq hfolder, hclear] at hstop
        exact nomatch hstop
  · intro hlooked
    obtain ⟨gone, hclear, -⟩ := clear_eq_ok hd hfolder endings hlooked
    exact ⟨_, _, hclear⟩

namespace Sweep

variable (hd : d.Sound) (hfolder : d.look folder = .ok (l, .folder))
  (h : Sweep d folder l endings [] (d.tree.names l) gone)

include hd h

theorem mem_removed (hname : name ∈ d.tree.names l) :
    folder.child name ∈ gone.map folder.child ↔ name ∈ gone := by
  refine ⟨fun hmem => ?_, List.mem_map_of_mem⟩
  obtain ⟨other, hother, heq⟩ := List.mem_map.mp hmem
  have hsame := congrArg Path.name heq
  rw [Path.name_child folder (plain_of_mem_names hd name hname),
    Path.name_child folder (plain_of_mem_names hd other (h.sublist.subset hother))] at hsame
  exact hsame ▸ hother

include hfolder

theorem sweeping : Sweeping d folder l gone where
  sound := hd
  leads := hfolder
  plain := fun name hname => plain_of_mem_names hd name (h.sublist.subset hname)
  files := fun name hname => (h.stale name hname).1

/-- An entry that is left is not stale any more. -/
theorem clean (hname : name ∈ (without d l gone).tree.names l) :
    ¬ Stale (without d l gone) folder endings name := by
  rintro ⟨hfile, hending⟩
  have hsweeping := h.sweeping hd hfolder
  rw [Tree.mem_names, without, get?_withoutNames] at hname
  split at hname
  next => exact nomatch hname
  next hleft =>
      have hmem : name ∈ d.tree.names l := (Tree.mem_names _ _ _).mpr hname
      have hfree : ∀ other ∈ gone, ¬ Through d folder l name other := by
        intro other hother hthrough
        rw [hsweeping.isFile_lost hother hthrough] at hfile
        exact nomatch Except.ok.inj hfile
      rw [hsweeping.isFile_same hfree] at hfile
      rcases h.left name hmem ⟨hfile, hending⟩ with hgone | ⟨other, hother, hthrough⟩
      · exact hleft ⟨name, hgone, rfl⟩
      · exact hfree other hother hthrough

theorem swept : Swept d folder l endings (gone.map folder.child) (without d l gone) where
  once := by
    have hnames : (gone.map folder.child).map Path.name = gone := by
      rw [List.map_map]
      exact (List.map_congr_left fun name hname => Path.name_child folder
        (plain_of_mem_names hd name (h.sublist.subset hname))).trans (List.map_id gone)
    refine List.Nodup.of_map Path.name ?_
    rw [hnames]
    exact (hd.distinct.names l).sublist h.sublist
  stale := fun p hp => by
    obtain ⟨name, hname, rfl⟩ := List.mem_map.mp hp
    exact ⟨name, h.sublist.subset hname, rfl, h.stale name hname⟩
  gone := fun name hname hremoved => by
    rw [without, get?_withoutNames, if_pos ⟨name, (h.mem_removed hd hname).mp hremoved, rfl⟩]
  kept := fun k hk => by
    rw [without, get?_withoutNames, if_neg]
    rintro ⟨name, hname, rfl⟩
    exact hk name (h.sublist.subset hname) (List.mem_map_of_mem hname) rfl
  places := ⟨rfl, rfl⟩
  left := fun name hname hstale => by
    rcases h.left name hname hstale with hgone | ⟨other, hother, hthrough⟩
    · exact .inl (List.mem_map_of_mem hgone)
    · exact .inr ⟨other, h.sublist.subset hother, List.mem_map_of_mem hother, hthrough⟩
  clean := fun name hname => h.clean hd hfolder hname

end Sweep

/-- **ALL STALE ENTRIES GO** if none leads through one that is listed before it. -/
theorem complete_iff (hd : d.Sound) (hfolder : d.look folder = .ok (l, .folder))
    (endings : List Text) : Complete d folder l endings ↔
      Looked d folder l ∧ InOrder d folder l endings (d.tree.names l) := by
  have hsweep (hlooked : Looked d folder l) : Complete d folder l endings ↔
      InOrder d folder l endings (d.tree.names l) := by
    obtain ⟨gone, hclear, hsweep⟩ := clear_eq_ok hd hfolder endings hlooked
    have hgone : ∀ name ∈ d.tree.names l,
        ((without d l gone).tree.get? (l ++ [name]) = none ↔ name ∈ gone) := by
      intro name hname
      rw [without, get?_withoutNames]
      refine ⟨fun hnone => ?_, fun hmem => if_pos ⟨name, hmem, rfl⟩⟩
      split at hnone
      next hmem =>
          obtain ⟨other, hother, heq⟩ := hmem
          rw [(List.cons.inj (List.append_cancel_left heq)).1]
          exact hother
      next =>
          rw [Tree.mem_names, hnone] at hname
          exact nomatch hname
    have hall := hsweep.complete
    constructor
    · rintro ⟨removed, d', hcleared, hnone⟩
      obtain ⟨-, rfl⟩ := Prod.mk.inj (hclear.symm.trans hcleared)
      exact (hall.mp fun name hname hstale => (hgone name hname).mp (hnone name hname hstale)).1
    · intro horder
      refine ⟨_, _, hclear, fun name hname hstale => (hgone name hname).mpr ?_⟩
      exact hall.mpr ⟨horder, fun _ _ _ _ hother => absurd hother List.not_mem_nil⟩ name hname hstale
  constructor
  · intro hcomplete
    have hreturns : ∃ removed d', clear folder endings d = (.ok removed, d') := by
      obtain ⟨removed, d', hclear, -⟩ := hcomplete
      exact ⟨removed, d', hclear⟩
    have hlooked := (exists_clear_iff hd hfolder endings).mp hreturns
    exact ⟨hlooked, (hsweep hlooked).mp hcomplete⟩
  · rintro ⟨hlooked, horder⟩
    exact (hsweep hlooked).mpr horder

-- ── In any order ────────────────────────────────────────────────────────────

section

variable {d' : Disk} (h : d.Rearranged d')

include h

theorem sound_rearranged (hd : d.Sound) : d'.Sound where
  tree := h.alike.symm.tree.sound hd.tree
  distinct := (h.tree.perm.map Prod.fst).nodup_iff.mp hd.distinct
  here := by
    rw [← h.here, ← h.tree.get?_eq]
    exact hd.here

theorem stale_rearranged : Stale d folder endings name ↔ Stale d' folder endings name := by
  rw [Stale, Stale, h.isFile_eq]

theorem through_rearranged {other : Text} :
    Through d folder l name other ↔ Through d' folder l name other := by
  have hstart (p : Path) : d.start p = d'.start p := by rw [Disk.start, Disk.start, h.here]
  rw [Through, Through, Disk.Passes, Disk.Passes, hstart]
  exact and_congr_right fun _ =>
    ⟨fun hpass => hpass.congr h.tree.get?_eq, fun hpass => hpass.congr h.tree.get?_eq.symm⟩

theorem looked_rearranged : Looked d folder l ↔ Looked d' folder l := by
  rw [Looked, Looked, h.isFile_eq]
  exact forall_congr' fun name => by rw [(h.tree.names l).mem_iff]

theorem inOrder_rearranged :
    InOrder d folder l endings names ↔ InOrder d' folder l endings names := by
  rw [InOrder, InOrder]
  constructor
  · refine fun horder => horder.imp fun {other name} hfree => ?_
    rw [← stale_rearranged h, ← stale_rearranged h, ← through_rearranged h]
    exact hfree
  · refine fun horder => horder.imp fun {other name} hfree => ?_
    rw [stale_rearranged h, stale_rearranged h, through_rearranged h]
    exact hfree

end

/-- No stale entry leads through another. -/
def Apart (d : Disk) (folder : Path) (l : Location) (endings : List Text) : Prop :=
  ∀ name ∈ d.tree.names l, ∀ other ∈ d.tree.names l, name ≠ other →
    Stale d folder endings name → Stale d folder endings other → ¬ Through d folder l name other

/-- The disk that lists all folders from the last entry to the first. -/
def reversed (d : Disk) : Disk :=
  { d with tree := ⟨d.tree.entries.reverse⟩ }

theorem names_reversed (d : Disk) (l : Location) :
    (reversed d).tree.names l = (d.tree.names l).reverse :=
  List.filterMap_reverse

/-- **ALL STALE ENTRIES GO IN ANY ORDER** if none leads through another. -/
theorem complete_rearranged_iff (hd : d.Sound) (hfolder : d.look folder = .ok (l, .folder))
    (endings : List Text) :
    (∀ d', d.Rearranged d' → Complete d' folder l endings) ↔
      Looked d folder l ∧ Apart d folder l endings := by
  have hcomplete {d' : Disk} (h : d.Rearranged d') : Complete d' folder l endings ↔
      Looked d folder l ∧ InOrder d folder l endings (d'.tree.names l) := by
    rw [looked_rearranged h, inOrder_rearranged h]
    refine complete_iff (sound_rearranged h hd) ?_ endings
    rw [← h.look_eq]
    exact hfolder
  constructor
  · intro hall
    have hsame : d.Rearranged d := ⟨⟨.refl _, hd.distinct⟩, rfl, rfl⟩
    have hreversed : d.Rearranged (reversed d) :=
      ⟨⟨(List.reverse_perm _).symm, hd.distinct⟩, rfl, rfl⟩
    obtain ⟨hlooked, horder⟩ := (hcomplete hsame).mp (hall d hsame)
    have hback := ((hcomplete hreversed).mp (hall _ hreversed)).2
    rw [names_reversed, InOrder, List.pairwise_reverse] at hback
    refine ⟨hlooked, fun name hname other hother hne hstale hstale' => ?_⟩
    -- one of the two is listed before the other, in this order or in the reverse
    have hforth : (d.tree.names l).Pairwise fun x y => x ≠ y → Stale d folder endings x →
        Stale d folder endings y → ¬ Through d folder l y x :=
      horder.imp fun {x y} hfree (_ : x ≠ y) => hfree
    have hback : (d.tree.names l).Pairwise (flip fun x y => x ≠ y → Stale d folder endings x →
        Stale d folder endings y → ¬ Through d folder l y x) :=
      hback.imp fun {x y} hfree (_ : y ≠ x) => hfree
    exact hforth.forall_of_forall_of_flip (fun x _ hx => absurd rfl hx) hback hother hname
      hne.symm hstale' hstale
  · rintro ⟨hlooked, hapart⟩ d' h
    refine (hcomplete h).mpr ⟨hlooked, ?_⟩
    refine ((sound_rearranged h hd).distinct.names l).pairwise_of_forall_ne ?_
    intro other hother name hname hne hstale' hstale
    rw [← (h.tree.names l).mem_iff] at hother hname
    exact hapart name hname other hother hne.symm hstale hstale'

/-- **WHAT CLEARING A FOLDER COMES TO**, by whatever path and in whatever order: it gives a
    result if all entries can be looked at, and removes stale entries and nothing else, until
    none is stale any more.  It removes all that were stale just when none of them led through
    one that is listed before it; so in each order just when none led through another. -/
theorem clear_sweeps (hd : d.Sound) (hfolder : d.look folder = .ok (l, .folder))
    (endings : List Text) :
    ((∃ removed d', clear folder endings d = (.ok removed, d')) ↔ Looked d folder l) ∧
    (∀ removed d', clear folder endings d = (.ok removed, d') →
      Swept d folder l endings removed d') ∧
    (Complete d folder l endings ↔
      Looked d folder l ∧ InOrder d folder l endings (d.tree.names l)) ∧
    ((∀ d', d.Rearranged d' → Complete d' folder l endings) ↔
      Looked d folder l ∧ Apart d folder l endings) := by
  refine ⟨exists_clear_iff hd hfolder endings, fun removed d' hclear => ?_,
    complete_iff hd hfolder endings, complete_rearranged_iff hd hfolder endings⟩
  have hlooked := (exists_clear_iff hd hfolder endings).mp ⟨removed, d', hclear⟩
  obtain ⟨gone, hgone, hsweep⟩ := clear_eq_ok hd hfolder endings hlooked
  obtain ⟨hremoved, rfl⟩ := Prod.mk.inj (hgone.symm.trans hclear)
  rw [← Except.ok.inj hremoved]
  exact hsweep.swept hd hfolder

/-- The disk with an output folder: a sketch, a link to it, and what else is given. -/
def outputDisk (more : List (Location × Entry)) : Disk where
  tree := ⟨(["out"], .folder) :: (["out", "a.ino"], .file [0x78]) ::
    (["out", "b.ino"], .link "a.ino") :: more⟩
  here := []
  home := .absolute []

/-- Links to a file outside, to a folder and to nothing, and a folder with an ending. -/
def mixedLinks : List (Location × Entry) :=
  [(["x"], .file []), (["out", "c.h"], .link "../x"), (["out", "d.h"], .link "../out"),
    (["out", "e.h"], .link "none"), (["out", "f.h"], .folder)]

theorem clear_sweeps_mixedLinks :
    (outputDisk mixedLinks).Sound ∧
    (outputDisk mixedLinks).look (.absolute ["out"]) = .ok (["out"], .folder) ∧
    ∃ d', clear (.absolute ["out"]) [".ino", ".h"] (outputDisk mixedLinks)
        = (.ok [.absolute ["out", "a.ino"], .absolute ["out", "c.h"]], d') ∧
      Swept (outputDisk mixedLinks) (.absolute ["out"]) ["out"] [".ino", ".h"]
        [.absolute ["out", "a.ino"], .absolute ["out", "c.h"]] d' ∧
      ¬ Complete (outputDisk mixedLinks) (.absolute ["out"]) ["out"] [".ino", ".h"] := by
  have hd : (outputDisk mixedLinks).Sound :=
    ⟨Tree.sound_of_entries (by decide +kernel), by decide +kernel, rfl⟩
  have hfolder : (outputDisk mixedLinks).look (.absolute ["out"]) = .ok (["out"], .folder) := by
    decide +kernel
  have hremoved : (clear (.absolute ["out"]) [".ino", ".h"] (outputDisk mixedLinks)).1
      = .ok [.absolute ["out", "a.ino"], .absolute ["out", "c.h"]] := by decide +kernel
  obtain ⟨d', hclear⟩ : ∃ d', clear (.absolute ["out"]) [".ino", ".h"] (outputDisk mixedLinks)
      = (.ok [.absolute ["out", "a.ino"], .absolute ["out", "c.h"]], d') :=
    ⟨_, Prod.ext hremoved rfl⟩
  obtain ⟨-, hswept, hcomplete, -⟩ := clear_sweeps hd hfolder [".ino", ".h"]
  refine ⟨hd, hfolder, d', hclear, hswept _ _ hclear, fun hall => ?_⟩
  have horder := (hcomplete.mp hall).2
  have hsketch : Stale (outputDisk mixedLinks) (.absolute ["out"]) [".ino", ".h"] "a.ino" :=
    ⟨by decide +kernel, by decide +kernel⟩
  have hlink : Stale (outputDisk mixedLinks) (.absolute ["out"]) [".ino", ".h"] "b.ino" :=
    ⟨by decide +kernel, by decide +kernel⟩
  have hthrough : Through (outputDisk mixedLinks) (.absolute ["out"]) ["out"] "b.ino" "a.ino" :=
    ⟨by decide +kernel, .folder (by decide) (by decide +kernel) rfl
      (.link (n := 39) (by decide) (by decide +kernel) rfl (.here (by decide) (by decide +kernel)))⟩
  exact (List.pairwise_cons.mp horder).1 "b.ino" (List.mem_cons_self ..) hsketch hlink hthrough

/-- A link to a sketch of the folder is left when the sketch is listed before it. -/
theorem clear_leaves_link :
    Stale (outputDisk []) (.absolute ["out"]) [".ino"] "b.ino" ∧
    (clear (.absolute ["out"]) [".ino"] (outputDisk [])).1 = .ok [.absolute ["out", "a.ino"]] ∧
    (clear (.absolute ["out"]) [".ino"] (outputDisk [])).2.tree.get? ["out", "b.ino"]
      = some (.link "a.ino") :=
  ⟨⟨by decide +kernel, by decide +kernel⟩, by decide +kernel, by decide +kernel⟩

end Output

end SketchMerge
