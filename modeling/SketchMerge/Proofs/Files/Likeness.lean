import SketchMerge.Proofs.Files.Operations

/-! # Trees that differ in the content of files

    Where a path leads depends on what kind of entry stands at each location, and
    NOT ON WHAT FILES HOLD.  Trees that show the same up to the content of files are
    alike: paths lead to the same places in them, and what is told there without
    reading is the same. -/

namespace SketchMerge

-- ── Entries up to the content of files ──────────────────────────────────────

/-- The same entry, or two files. -/
def Entry.Like (a b : Option Entry) : Prop :=
  a = b ∨ ∃ c c', a = some (.file c) ∧ b = some (.file c')

namespace Entry.Like

theorem refl (a : Option Entry) : Like a a := .inl rfl

theorem symm {a b : Option Entry} (h : Like a b) : Like b a := by
  rcases h with rfl | ⟨x, y, rfl, rfl⟩
  · exact .refl a
  · exact .inr ⟨y, x, rfl, rfl⟩

theorem trans {a b c : Option Entry} (hab : Like a b) (hbc : Like b c) : Like a c := by
  rcases hab with rfl | ⟨x, y, rfl, rfl⟩
  · exact hbc
  · rcases hbc with rfl | ⟨_, z, -, rfl⟩
    · exact .inr ⟨x, y, rfl, rfl⟩
    · exact .inr ⟨x, z, rfl, rfl⟩

theorem folder {a b : Option Entry} (h : Like a b) : a = some .folder ↔ b = some .folder := by
  rcases h with rfl | ⟨x, y, rfl, rfl⟩
  · exact Iff.rfl
  · exact ⟨(nomatch ·), (nomatch ·)⟩

theorem link {a b : Option Entry} (h : Like a b) (target : Text) :
    a = some (.link target) ↔ b = some (.link target) := by
  rcases h with rfl | ⟨x, y, rfl, rfl⟩
  · exact Iff.rfl
  · exact ⟨(nomatch ·), (nomatch ·)⟩

theorem eq_none {a b : Option Entry} (h : Like a b) : a = none ↔ b = none := by
  rcases h with rfl | ⟨x, y, rfl, rfl⟩
  · exact Iff.rfl
  · exact ⟨(nomatch ·), (nomatch ·)⟩

theorem isSome {a b : Option Entry} (h : Like a b) : a.isSome = b.isSome := by
  rcases h with rfl | ⟨x, y, rfl, rfl⟩
  · rfl
  · rfl

end Entry.Like

namespace Tree

/-- The trees show the same at each location, up to the content of files. -/
def Alike (t t' : Tree) : Prop :=
  ∀ l, Entry.Like (t.get? l) (t'.get? l)

variable {t t' : Tree}

theorem hasFile_like {l : Location} (h : Entry.Like (t.get? l) (t'.get? l)) :
    t.hasFile l = t'.hasFile l := by
  rw [Tree.hasFile, Tree.hasFile]
  rcases h with heq | ⟨x, y, hx, hy⟩
  · rw [heq]
  · rw [hx, hy]

theorem Alike.sound (h : Alike t t') (ht : t'.Sound) : t.Sound where
  valid := fun l name hsome => ht.valid l name ((h _).isSome ▸ hsome)
  around := fun l name hsome => (h l).folder.mpr (ht.around l name ((h _).isSome ▸ hsome))

theorem Alike.standing (h : Alike t t') {l : Location} (hl : t'.Standing l) : t.Standing l :=
  hl.keep fun k hk => (h k).folder.mpr hk

theorem Alike.noLinks (h : Alike t t') {l : Location} (hl : t'.NoLinks l) : t.NoLinks l :=
  fun name target hget => hl name target (((h _).link target).mp hget)

-- ── Where paths lead ────────────────────────────────────────────────────────

variable {purpose : Purpose}

theorem walkWith_alike (h : Alike t t')
    (enter : Location → List Text → Except Files.Cause Location) (l : Location)
    (names : List Text) : t.walkWith purpose enter l names = t'.walkWith purpose enter l names := by
  induction names generalizing l with
  | nil => rfl
  | cons name rest ih =>
      rcases name_cases name with hskip | rfl | hname
      · rw [walkWith_skip hskip, walkWith_skip hskip, ih]
      · rw [walkWith_up, walkWith_up, ih]
      · rw [walkWith_named hname, walkWith_named hname]
        rcases h (l ++ [name]) with heq | ⟨x, y, hx, hy⟩
        · rw [heq, ih]
        · rw [hx, hy]

/-- **PATHS LEAD ALIKE** in trees that are alike. -/
theorem walk_alike (h : Alike t t') (links : Nat) :
    t.walk purpose links = t'.walk purpose links := by
  induction links with
  | zero =>
      funext l names
      rw [walk, walk]
      exact walkWith_alike h _ l names
  | succ links ih =>
      funext l names
      rw [walk, walk, ih]
      exact walkWith_alike h _ l names

end Tree

namespace Disk

/-- The disks differ at most in the content of files. -/
structure Alike (d d' : Disk) : Prop where
  tree : d.tree.Alike d'.tree
  here : d.here = d'.here
  home : d.home = d'.home

variable {d d' : Disk} {p : Path}

theorem Alike.symm (h : Alike d d') : Alike d' d :=
  ⟨fun l => (h.tree l).symm, h.here.symm, h.home.symm⟩

theorem locate_alike (h : Alike d d') (purpose : Tree.Purpose) (p : Path) :
    d.locate purpose p = d'.locate purpose p := by
  rw [locate, locate, start, start, h.here, Tree.walk_alike h.tree]

/-- Looking finds the same place, and entries that are alike. -/
theorem look_alike (h : Alike d d') (p : Path) :
    (∃ cause, d.look p = .error cause ∧ d'.look p = .error cause) ∨
      ∃ l e e', d.look p = .ok (l, e) ∧ d'.look p = .ok (l, e') ∧
        Entry.Like (some e) (some e') := by
  rw [look, look, locate_alike h]
  cases hlocate : d'.locate .find p with
  | error cause => exact .inl ⟨cause, rfl, rfl⟩
  | ok l =>
      show (∃ cause, d.entryAt l = _ ∧ d'.entryAt l = _) ∨
        ∃ m e e', d.entryAt l = _ ∧ d'.entryAt l = _ ∧ _
      rw [entryAt, entryAt]
      rcases h.tree l with heq | ⟨x, y, hx, hy⟩
      · rw [heq]
        cases d'.tree.get? l with
        | none => exact .inl ⟨_, rfl, rfl⟩
        | some e => exact .inr ⟨l, e, e, rfl, rfl, .refl _⟩
      · rw [hx, hy]
        exact .inr ⟨l, _, _, rfl, rfl, .inr ⟨x, y, rfl, rfl⟩⟩

theorem isFile_alike (h : Alike d d') (p : Path) : d.isFile p = d'.isFile p := by
  rw [isFile, isFile, check, check]
  rcases look_alike h p with ⟨cause, hd, hd'⟩ | ⟨l, e, e', hd, hd', hlike⟩
  · rw [hd, hd']
  · rw [hd, hd']
    rcases hlike with heq | ⟨x, y, hx, hy⟩
    · rw [Option.some.inj heq]
    · rw [Option.some.inj hx, Option.some.inj hy]

/-- A file reads the same where it holds the same. -/
theorem read_alike (h : Alike d d') {content : List UInt8}
    (hsame : ∀ l, d'.locate .find p = .ok l → d.tree.get? l = d'.tree.get? l)
    (hread : d.read p = .ok content) : d'.read p = .ok content := by
  rw [read] at hread ⊢
  rcases look_alike h p with ⟨cause, hd, hd'⟩ | ⟨l, e, e', hd, hd', -⟩
  · rw [hd] at hread
    cases hread
  · obtain ⟨hlocate, hget'⟩ := look_eq_ok hd'
    obtain ⟨-, hget⟩ := look_eq_ok hd
    obtain rfl : e = e' := Option.some.inj (hget.symm.trans ((hsame l hlocate).trans hget'))
    rw [hd']
    rw [hd] at hread
    exact hread

end Disk

end SketchMerge
