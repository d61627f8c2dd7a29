import SketchMerge.Proofs.Project.Preparation
import SketchMerge.Proofs.Run.Agreement

/-! # The files after preparing

    Preparing clears the output folder and copies companion files into it.  What it
    may change are the listed files of the output folder and the places of the
    copies.  Everything APART from these stays as it was, however preparing ends;
    folders stay folders, and no link appears. -/

namespace SketchMerge.Pipeline

open World Project

variable {w w' : World} {r t : Location} {s : Settings}

/-- The locations that preparing may change: the listed files of the output folder, and the
    places of the copies. -/
def Touched (w : World) (r t : Location) (s : Settings) (l : Location) : Prop :=
  ∃ name, l = t ++ [name] ∧
    (listed w.disk.tree t (s.sketchEndings ++ s.companionEndings) name = true ∨
      listed w.disk.tree r s.companionEndings name = true)

/-- The worlds agree apart from these locations. -/
abbrev Apart (w : World) (r t : Location) (s : Settings) (w' : World) : Prop :=
  Agree (fun l => ¬ Touched w r t s l) w w'

/-- What is sure of the files once the output folder is cleared. -/
structure Prepared (w : World) (r t : Location) (s : Settings) (w' : World) : Prop where
  apart : Apart w r t s w'
  gone : ∀ name, listed w.disk.tree t (s.sketchEndings ++ s.companionEndings) name = true →
    listed w.disk.tree r s.companionEndings name = false →
    w'.disk.tree.get? (t ++ [name]) = none
  folder : ∀ k, w.disk.tree.get? k = some .folder → w'.disk.tree.get? k = some .folder
  link : ∀ k target, w'.disk.tree.get? k = some (.link target) →
    w.disk.tree.get? k = some (.link target)

/-- Every companion file has its copy, the log apart. -/
def Copied (w : World) (r t : Location) (s : Settings) (w' : World) : Prop :=
  ∀ name content, w.disk.tree.get? (r ++ [name]) = some (.file content) →
    FileName.ending name ∈ s.companionEndings → w.Quiet (r ++ [name]) → w.Quiet (t ++ [name]) →
    w'.disk.tree.get? (t ++ [name]) = some (.file content)

/-- What is there was there before, the log apart. -/
def NothingNew (w w' : World) : Prop :=
  ∀ l e, w.Quiet l → w'.disk.tree.get? l = some e → w.disk.tree.get? l = some e

/-- The ways in which preparing can end, by what becomes of the files. -/
inductive Preparation (s : Settings) (r t : Location) (w : World) :
    Except Fault (Project × List Path) × World → Prop
  | notFound (fault : Project.Fault) : Preparation s r t w (.error (.project fault), w)
  | notStarted {fault : Files.Fault} {w' : World} (h : Agrees w w') :
      Preparation s r t w (.error (.file fault), w')
  | tooLong {fault : Files.Fault} {w' : World} {name : Text} (h : Apart w r t s w')
      (hless : NothingNew w w') (hname : (w.disk.tree.get? (t ++ [name])).isSome)
      (hlong : Disk.tooLong (t ++ [name]) = true) :
      Preparation s r t w (.error (.file fault), w')
  | notCopied {fault : Files.Fault} {w' : World} (h : Prepared w r t s w') :
      Preparation s r t w (.error (.file fault), w')
  | prepared {found : Project} {copied : List Path} {w' : World} (h : Prepared w r t s w')
      (hcopied : Copied w r t s w') : Preparation s r t w (.ok (found, copied), w')

-- ── Before, between and after ───────────────────────────────────────────────

theorem listed_alike {a b : Tree} (h : a.Alike b) (l : Location) (endings : List Text)
    (name : Text) : listed a l endings name = listed b l endings name := by
  rw [listed, listed, Tree.hasFile_like (h _)]

theorem Apart.of_agrees {w₁ : World} (hagree : Agrees w w₁) (h : Apart w₁ r t s w') :
    Apart w r t s w' := by
  have htouched : Touched w₁ r t s = Touched w r t s := by
    funext l
    simp only [Touched, listed_alike hagree.alike.tree]
  exact (hagree.mono fun _ _ => trivial).trans (htouched ▸ h)

theorem Apart.trans_agrees {w₁ : World} (h : Apart w r t s w₁) (hagree : Agrees w₁ w') :
    Apart w r t s w' :=
  h.trans (hagree.mono fun _ _ => trivial)

theorem NothingNew.of_agrees {w₁ : World} (hagree : Agrees w w₁) (h : NothingNew w₁ w') :
    NothingNew w w' := by
  intro l e hl hget
  rw [← hagree.same l trivial hl]
  exact h l e (hagree.quiet l hl) hget

theorem NothingNew.trans_agrees {w₁ : World} (h : NothingNew w w₁) (hapart : Apart w r t s w₁)
    (hagree : Agrees w₁ w') : NothingNew w w' := by
  intro l e hl hget
  rw [hagree.same l trivial (hapart.quiet l hl)] at hget
  exact h l e hl hget

/-- Notes in front make no difference. -/
theorem Prepared.of_agrees {w₁ : World} (hagree : Agrees w w₁) (h : Prepared w₁ r t s w') :
    Prepared w r t s w' := by
  have hlisted (l : Location) (endings : List Text) (name : Text) :
      listed w₁.disk.tree l endings name = listed w.disk.tree l endings name :=
    listed_alike hagree.alike.tree l endings name
  refine ⟨h.apart.of_agrees hagree, fun name hl hr => ?_,
    fun k hk => h.folder k ((hagree.like k trivial).folder.mpr hk),
    fun k target hk => ((hagree.like k trivial).link target).mp (h.link k target hk)⟩
  exact h.gone name (hlisted _ _ _ ▸ hl) (hlisted _ _ _ ▸ hr)

/-- Notes behind make no difference. -/
theorem Prepared.trans_agrees {w₁ : World} (h : Prepared w r t s w₁) (hagree : Agrees w₁ w') :
    Prepared w r t s w' where
  apart := h.apart.trans_agrees hagree
  gone := fun name hl hr => (hagree.like _ trivial).eq_none.mpr (h.gone name hl hr)
  folder := fun k hk => (hagree.like k trivial).folder.mpr (h.folder k hk)
  link := fun k target hk => h.link k target (((hagree.like k trivial).link target).mp hk)

theorem Copied.of_agrees {w₁ : World} (hagree : Agrees w w₁) (h : Copied w₁ r t s w') :
    Copied w r t s w' := by
  intro name content hget hending hr ht
  refine h name content ?_ hending (hagree.quiet _ hr) (hagree.quiet _ ht)
  rw [hagree.same _ trivial hr]
  exact hget

theorem Copied.trans_agrees {w₁ : World} (h : Copied w r t s w₁)
    (hprepared : Prepared w r t s w₁) (hagree : Agrees w₁ w') : Copied w r t s w' := by
  intro name content hget hending hr ht
  rw [hagree.same _ trivial (hprepared.apart.quiet _ ht)]
  exact h name content hget hending hr ht

theorem Prepared.standing (h : Prepared w r t s w') {l : Location}
    (hl : w.disk.tree.Standing l) : w'.disk.tree.Standing l :=
  hl.keep h.folder

theorem Prepared.noLinks (h : Prepared w r t s w') {l : Location} (hl : w.disk.tree.NoLinks l) :
    w'.disk.tree.NoLinks l :=
  fun name target hget => hl name target (h.link _ _ hget)

/-- What is in the project folder is not touched. -/
theorem not_touched (hne : r ≠ t) (name : Text) : ¬ Touched w r t s (r ++ [name]) :=
  fun ⟨_, heq, _⟩ => hne (List.append_inj' heq rfl).1

-- ── Clearing and copying in a world ─────────────────────────────────────────

theorem apart_of_kept {tree : Tree}
    (h : Output.Kept t (s.sketchEndings ++ s.companionEndings) (w.disk.tree.names t)
      w.disk.tree tree) : Apart w r t s (w.withDisk { w.disk with tree }) := by
  refine agree_withDisk fun l hl => h l fun name _ heq => ?_
  exact Bool.eq_false_iff.mpr fun hlisted => hl ⟨name, heq, .inl hlisted⟩

/-- Clearing is the first part of preparing. -/
theorem prepared_of_cleared {tree : Tree}
    (h : Output.Cleared t (s.sketchEndings ++ s.companionEndings) (w.disk.tree.names t)
      w.disk.tree tree) :
    Prepared w r t s (w.withDisk { w.disk with tree }) := by
  have hname {name : Text}
      (hl : listed w.disk.tree t (s.sketchEndings ++ s.companionEndings) name = true) :
      name ∈ w.disk.tree.names t := by
    obtain ⟨content, hget⟩ := Tree.hasFile_iff.mp (listed_iff.mp hl).1
    rw [Tree.mem_names, hget]
    rfl
  have hkept {k : Location} (hk : w.disk.tree.hasFile k = false) :
      tree.get? k = w.disk.tree.get? k := by
    refine h.kept k fun name _ heq => ?_
    rw [listed, ← heq, hk, Bool.false_and]
  refine ⟨apart_of_kept h.kept, fun name hl _ => h.gone name (hname hl) hl, fun k hk => ?_,
    fun k target hk => ?_⟩
  · exact (hkept (by rw [Tree.hasFile, hk])).trans hk
  · by_cases hfile : ∃ name, k = t ++ [name] ∧
        listed w.disk.tree t (s.sketchEndings ++ s.companionEndings) name = true
    · obtain ⟨name, rfl, hl⟩ := hfile
      cases hk.symm.trans (h.gone name (hname hl) hl)
    · rw [← h.kept k fun name _ heq => Bool.eq_false_iff.mpr fun hl => hfile ⟨name, heq, hl⟩]
      exact hk

/-- Copying is the second part. -/
theorem Prepared.copying {w₁ : World} {sources : List Path} {tree : Tree}
    (h : Prepared w r t s w₁)
    (hsources : ∀ name, .absolute (r ++ [name]) ∈ sources →
      listed w.disk.tree r s.companionEndings name = true)
    (hcopying : Output.Copying r t sources w₁.disk.tree tree) :
    Prepared w r t s (w₁.withDisk { w₁.disk with tree }) := by
  refine ⟨h.apart.trans (agree_withDisk fun l hl => ?_), fun name hl hr => ?_,
    fun k hk => hcopying.folder (h.folder k hk), fun k target hk => h.link k target ?_⟩
  · rcases hcopying l with heq | ⟨name, _, hmem, heq, -, -⟩
    · exact heq
    · exact absurd ⟨name, heq, .inr (hsources name hmem)⟩ hl
  · rcases hcopying (t ++ [name]) with heq | ⟨name', _, hmem, heq, -, -⟩
    · exact heq.trans (h.gone name hl hr)
    · obtain rfl := (List.cons.inj (List.append_cancel_left heq)).1
      exact nomatch (hsources name hmem).symm.trans hr
  · rcases hcopying k with heq | ⟨_, _, -, -, -, hfile⟩
    · exact heq.symm.trans hk
    · exact nomatch hk.symm.trans hfile

-- ── Preparing ───────────────────────────────────────────────────────────────

/-- The companions that are found are the listed files of the project folder. -/
theorem companions_listed (hw : w.Sound) (hr : w.disk.tree.Standing r)
    (hlinks : w.disk.tree.NoLinks r) {found : Project}
    (hscan : scan w.disk s.sketchEndings s.companionEndings (Path.absolute r).text = .ok found) :
    Output.From r found.companions ∧ ∀ name, .absolute (r ++ [name]) ∈ found.companions ↔
      listed w.disk.tree r s.companionEndings name = true := by
  obtain ⟨files, sources, companions, -, -, -, hcompanions, rfl⟩ :=
    scan_found hw.tree hw.here hr hscan
  have hmem (p : Path) : p ∈ byName companions ↔ ∃ name, p = .absolute (r ++ [name]) ∧
      Tree.Valid name ∧ listed w.disk.tree r s.companionEndings name = true := by
    rw [byName, mem_sortBy, mem_filesIn hw.tree hr hlinks hcompanions]
  constructor
  · intro p hp
    obtain ⟨name, rfl, hvalid, -⟩ := (hmem p).mp hp
    exact ⟨name, rfl, hvalid⟩
  · intro name
    constructor
    · intro hp
      obtain ⟨name', heq, -, hl⟩ := (hmem _).mp hp
      obtain rfl := (List.cons.inj (List.append_cancel_left (Path.mk.inj heq).2)).1
      exact hl
    · intro hl
      obtain ⟨content, hget⟩ := Tree.hasFile_iff.mp (listed_iff.mp hl).1
      refine (hmem _).mpr ⟨name, rfl, hw.tree.valid r name ?_, hl⟩
      rw [hget]
      rfl

/-- **PREPARING TOUCHES LITTLE**, however it ends. -/
theorem prepare_preparation (hw : w.Sound) (hr : w.disk.tree.Standing r)
    (ht : w.disk.tree.Standing t) (hne : r ≠ t) (hrlinks : w.disk.tree.NoLinks r)
    (htlinks : w.disk.tree.NoLinks t) :
    Preparation s r t w (prepare s (.absolute r) (.absolute t) w) := by
  have hcases := prepare_prepares s (.absolute r) (.absolute t) w
  generalize prepare s (.absolute r) (.absolute t) w = out at hcases ⊢
  -- where the project is found, clearing and copying start from a world that agrees
  have hclearing {found : Project} {removed : List Path} {d : Disk}
      (hclear : Output.clear (.absolute t) (s.sketchEndings ++ s.companionEndings)
        (w.note found.scanNote).disk = (.ok removed, d)) :
      Prepared w r t s (((w.note found.scanNote).withDisk d).notes
        (Output.clearNotes (.absolute t) removed)) := by
    have hagree : Agrees w (w.note found.scanNote) := agree_note w _
    have hnoted := hw.note found.scanNote
    rcases Output.clear_outcome hnoted.tree (hagree.alike.tree.standing ht)
      (hagree.alike.tree.noLinks htlinks) (s.sketchEndings ++ s.companionEndings)
      with ⟨removed', tree, hout, hcleared⟩ | ⟨fault, d', hout, -⟩
    · rw [hout] at hclear
      obtain ⟨-, rfl⟩ := Prod.mk.inj hclear
      exact ((prepared_of_cleared hcleared).of_agrees hagree).trans_agrees (agree_notes _ _)
    · exact nomatch (Prod.mk.inj (hout.symm.trans hclear)).1
  have hcopying {found : Project} {w₁ : World} {out : Except Files.Fault (List Path)} {d : Disk}
      (hscan : scan w.disk s.sketchEndings s.companionEndings (Path.absolute r).text = .ok found)
      (hprepared : Prepared w r t s w₁)
      (hcopy : Output.copyEach (.absolute t) found.companions w₁.disk = (out, d)) :
      Prepared w r t s (w₁.withDisk d) ∧
        ∀ copied, out = .ok copied → Copied w r t s (w₁.withDisk d) := by
    obtain ⟨hfrom, hlisted⟩ := companions_listed hw hr hrlinks hscan
    obtain ⟨out', tree, hout, hcopies, hdone⟩ := Output.copyEach_outcome (hprepared.standing hr)
      (hprepared.standing ht) (hprepared.noLinks hrlinks) (hprepared.noLinks htlinks) hne hfrom
    rw [hout] at hcopy
    obtain ⟨rfl, rfl⟩ := Prod.mk.inj hcopy
    refine ⟨hprepared.copying (fun name => (hlisted name).mp) hcopies, ?_⟩
    intro copied hok name content hget hending hquiet _
    have hl : listed w.disk.tree r s.companionEndings name = true :=
      listed_iff.mpr ⟨Tree.hasFile_iff.mpr ⟨content, hget⟩, hending⟩
    obtain ⟨content', hsource, hcopy⟩ := hdone copied hok name ((hlisted name).mpr hl)
    rw [hprepared.apart.same _ (not_touched hne name) hquiet, hget] at hsource
    obtain rfl := Entry.file.inj (Option.some.inj hsource)
    exact hcopy
  cases hcases with
  | notFound hscan => exact .notFound _
  | notCleared hscan hclear =>
      rename_i found fault d
      have hagree : Agrees w (w.note found.scanNote) := agree_note w _
      have hnoted := hw.note found.scanNote
      rcases Output.clear_outcome hnoted.tree (hagree.alike.tree.standing ht)
        (hagree.alike.tree.noLinks htlinks) (s.sketchEndings ++ s.companionEndings)
        with ⟨removed, tree, hout, -⟩ | ⟨fault', tree, hout, hrest⟩
      · exact nomatch (Prod.mk.inj (hout.symm.trans hclear)).1
      · obtain ⟨-, rfl⟩ := Prod.mk.inj (hout.symm.trans hclear)
        rcases hrest with rfl | ⟨hkept, name, hname, hlong⟩
        · exact .notStarted (hagree.trans (agree_withDisk fun _ _ => rfl))
        · have hless : NothingNew (w.note found.scanNote)
              ((w.note found.scanNote).withDisk { (w.note found.scanNote).disk with tree }) :=
            fun _ _ _ hget => Output.clear_less hout hget
          refine .tooLong ((apart_of_kept hkept).of_agrees hagree) (hless.of_agrees hagree) ?_ hlong
          rw [← (hagree.alike.tree _).isSome]
          exact (Tree.mem_names _ _ _).mp hname
  | notCopied hscan hclear hcleared hcopy =>
      subst hcleared
      exact .notCopied (hcopying hscan (hclearing hclear) hcopy).1
  | prepared hscan hclear hcleared hcopy =>
      subst hcleared
      obtain ⟨hprepared, hcopied⟩ := hcopying hscan (hclearing hclear) hcopy
      exact .prepared hprepared (hcopied _ rfl)

end SketchMerge.Pipeline
