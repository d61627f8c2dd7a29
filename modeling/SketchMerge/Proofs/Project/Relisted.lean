import SketchMerge.Config.Settings
import SketchMerge.Proofs.Files.Rearranged
import SketchMerge.Proofs.Project.Preparation
import SketchMerge.Proofs.Project.Sketches

/-! # Folders listed in another order

    What is found in a project folder, cleared from an output folder and copied into
    it DOES NOT DEPEND ON THE ORDER in which the folders list their names.  The
    sketches and companions are sorted, each by a total order of names, and what is
    cleared is cleared whatever comes first.  Only where entries of a folder cannot
    be looked at does the order decide which of them is reported. -/

namespace SketchMerge

variable {ε α β γ δ : Type}

/-- Two results are related: both are values, or both are faults. -/
inductive Related (E : ε → ε → Prop) (R : α → β → Prop) : Except ε α → Except ε β → Prop
  | ok {a : α} {b : β} (h : R a b) : Related E R (.ok a) (.ok b)
  | error {e e' : ε} (h : E e e') : Related E R (.error e) (.error e')

namespace Related

variable {E : ε → ε → Prop} {R : α → β → Prop} {S : γ → δ → Prop}

theorem refl (hE : ∀ e, E e e) (x : Except ε α) : Related E Eq x x := by
  cases x with
  | ok a => exact .ok rfl
  | error e => exact .error (hE e)

theorem bind {x : Except ε α} {y : Except ε β} {f : α → Except ε γ} {g : β → Except ε δ}
    (h : Related E R x y) (hrest : ∀ a b, R a b → Related E S (f a) (g b)) :
    Related E S (x >>= f) (y >>= g) := by
  cases h with
  | ok h => exact hrest _ _ h
  | error h => exact .error h

theorem imp {E' : ε → ε → Prop} {R' : α → β → Prop} {x : Except ε α} {y : Except ε β}
    (h : Related E R x y) (hE : ∀ e e', E e e' → E' e e') (hR : ∀ a b, R a b → R' a b) :
    Related E' R' x y := by
  cases h with
  | ok h => exact .ok (hR _ _ h)
  | error h => exact .error (hE _ _ h)

/-- Values are equal if they can be nothing else. -/
theorem eq_of_ok {x y : Except ε α} {R : α → α → Prop} (h : Related E R x y)
    (heq : ∀ a b, x = .ok a → y = .ok b → a = b) : Related E Eq x y := by
  cases h with
  | ok h => exact .ok (heq _ _ rfl rfl)
  | error h => exact .error h

theorem mapError {E' : γ → γ → Prop} {x : Except ε α} {y : Except ε β} {f : ε → γ}
    (h : Related E R x y) (hf : ∀ e e', E e e' → E' (f e) (f e')) :
    Related E' R (x.mapError f) (y.mapError f) := by
  cases h with
  | ok h => exact .ok h
  | error h => exact .error (hf _ _ h)

end Related

-- ── Writing and copying ─────────────────────────────────────────────────────

namespace Disk.Rearranged

variable {d d' : Disk}

theorem writeText (h : Rearranged d d') (p : Path) (t : Text) :
    (d.writeText p t).1 = (d'.writeText p t).1 ∧
      Rearranged (d.writeText p t).2 (d'.writeText p t).2 := by
  rw [Disk.writeText, Disk.writeText, h.target_eq]
  cases d'.target p with
  | error fault => exact ⟨rfl, h⟩
  | ok l =>
      cases Utf8.unwritable? t with
      | some place => exact ⟨rfl, h.put l _⟩
      | none => exact ⟨rfl, h.put l _⟩

theorem write (h : Rearranged d d') (p : Path) (content : List UInt8) :
    Related Eq Rearranged (d.write p content) (d'.write p content) := by
  rw [Disk.write, Disk.write, h.target_eq]
  exact (Related.refl (fun _ => rfl) _).bind fun l _ hl => .ok (hl ▸ h.put l _)

theorem copy (h : Rearranged d d') (source target : Path) :
    Related Eq Rearranged (d.copy source target) (d'.copy source target) := by
  have hrest : Related Eq Rearranged (d.read source >>= d.copied target)
      (d'.read source >>= d'.copied target) := by
    rw [h.read_eq]
    refine (Related.refl (fun _ => rfl) _).bind fun content _ heq => ?_
    subst heq
    rw [Disk.copied, Disk.copied, h.isThere_eq]
    have hwrite := h.write target content
    generalize d.write target content = x at hwrite ⊢
    generalize d'.write target content = y at hwrite ⊢
    cases hwrite with
    | ok hput => exact .ok hput
    | error hfault =>
        subst hfault
        split
        · exact .error rfl
        · exact .error rfl
  rw [Disk.copy, Disk.copy, h.look_eq]
  split
  next =>
      split
      · exact .error rfl
      · exact hrest
  next => exact hrest

end Disk.Rearranged

/-- The fault says of an entry of the folder that it cannot be looked at. -/
def Project.Unlooked (d : Disk) (r : Location) (cause : Files.Fault) : Prop :=
  ∃ name ∈ d.tree.names r, d.isFile (.absolute (r ++ [name])) = .error cause

namespace Output

open Disk (Rearranged)
open Project (Unlooked)

variable {d d' : Disk}

/-- Copying goes on in the same way. -/
theorem copyEach_rearranged (h : Rearranged d d') (folder : Path) (sources : List Path) :
    (copyEach folder sources d).1 = (copyEach folder sources d').1 ∧
      Rearranged (copyEach folder sources d).2 (copyEach folder sources d').2 := by
  induction sources generalizing d d' with
  | nil => exact ⟨rfl, h⟩
  | cons source rest ih =>
      rw [copyEach_cons, copyEach_cons]
      have hcopy := h.copy source (folder.child source.name)
      generalize d.copy source (folder.child source.name) = x at hcopy ⊢
      generalize d'.copy source (folder.child source.name) = y at hcopy ⊢
      cases hcopy with
      | error hfault => exact ⟨by rw [hfault], h⟩
      | ok hcopy =>
          obtain ⟨hresult, hdisk⟩ := ih hcopy
          exact ⟨by dsimp only; rw [hresult], hdisk⟩

-- ── Clearing ────────────────────────────────────────────────────────────────

variable {l : Location} {endings names : List Text}

/-- The tree without some entries of a folder. -/
def withoutNames (t : Tree) (l : Location) (names : List Text) : Tree :=
  ⟨t.entries.filter fun x => !(names.map (l ++ [·])).contains x.1⟩

theorem withoutNames_nil (t : Tree) (l : Location) : withoutNames t l [] = t := by
  show Tree.mk (t.entries.filter fun _ => true) = t
  rw [List.filter_eq_self.mpr fun _ _ => rfl]

theorem withoutNames_cons (t : Tree) (l : Location) (name : Text) (names : List Text) :
    withoutNames t l (name :: names) = withoutNames (t.erase (l ++ [name])) l names := by
  rw [withoutNames, withoutNames, Tree.erase, List.filter_filter]
  congr 1
  refine List.filter_congr fun x _ => ?_
  rw [List.map_cons, List.contains_cons, Bool.not_or, Bool.and_comm]
  rfl

/-- What clearing comes to where no path is too long. -/
theorem clearEach_eq (hl : d.tree.Standing l) (hlinks : d.tree.NoLinks l)
    (hnames : ∀ name ∈ names, Tree.Valid name)
    (hshort : ∀ name ∈ names, Disk.tooLong (l ++ [name]) = false) (honce : names.Nodup) :
    clearEach (.absolute l) endings names d =
      (.ok ((names.filter (Project.listed d.tree l endings)).map (Path.absolute l).child),
        { d with
          tree := withoutNames d.tree l (names.filter (Project.listed d.tree l endings)) }) := by
  induction names generalizing d with
  | nil => rw [List.filter_nil, withoutNames_nil]; rfl
  | cons name names ih =>
      obtain ⟨hname, hrest⟩ := List.forall_mem_cons.mp hnames
      obtain ⟨hfirst, hshort⟩ := List.forall_mem_cons.mp hshort
      obtain ⟨hnew, honce⟩ := List.nodup_cons.mp honce
      rw [clearEach_step hl hlinks hname hfirst]
      cases hlisted : Project.listed d.tree l endings name with
      | false =>
          rw [if_neg Bool.false_ne_true, ih hl hlinks hrest hshort honce,
            List.filter_cons_of_neg (by rw [hlisted]; exact Bool.false_ne_true)]
      | true =>
          obtain ⟨hl', hlinks'⟩ := erase_listed hl hlinks hlisted
          -- a name that comes once is listed before and after
          have hsame : names.filter (Project.listed (d.tree.erase (l ++ [name])) l endings)
              = names.filter (Project.listed d.tree l endings) := by
            refine List.filter_congr fun other hother => ?_
            have hne : other ≠ name := fun heq => hnew (heq ▸ hother)
            rw [listed_erase, bne_iff_ne.mpr hne, Bool.true_and]
          rw [if_pos rfl, ih (d := { d with tree := d.tree.erase (l ++ [name]) }) hl' hlinks' hrest
            hshort honce, List.filter_cons_of_pos hlisted, withoutNames_cons, hsame]
          rfl

/-- Clearing stops at the first path that is too long. -/
theorem clearEach_stops (hl : d.tree.Standing l) (hlinks : d.tree.NoLinks l)
    (hnames : ∀ name ∈ names, Tree.Valid name)
    (hlong : ∃ name ∈ names, Disk.tooLong (l ++ [name]) = true) (endings : List Text) :
    ∃ name ∈ names, Disk.tooLong (l ++ [name]) = true ∧
      (clearEach (.absolute l) endings names d).1
        = .error (.at .tooLong (Path.absolute (l ++ [name])).text) := by
  induction names generalizing d with
  | nil =>
      obtain ⟨_, hmem, -⟩ := hlong
      exact nomatch hmem
  | cons name names ih =>
      obtain ⟨hname, hrest⟩ := List.forall_mem_cons.mp hnames
      cases hfirst : Disk.tooLong (l ++ [name]) with
      | true =>
          refine ⟨name, List.mem_cons_self .., hfirst, ?_⟩
          rw [clearEach_cons, filesAmong_tooLong hl hlinks hname hfirst]
      | false =>
          have hlong : ∃ name ∈ names, Disk.tooLong (l ++ [name]) = true := by
            obtain ⟨other, hother, hlong⟩ := hlong
            rcases List.mem_cons.mp hother with rfl | hother
            · exact absurd hlong (by rw [hfirst]; exact Bool.false_ne_true)
            · exact ⟨other, hother, hlong⟩
          rw [clearEach_step hl hlinks hname hfirst]
          cases hlisted : Project.listed d.tree l endings name with
          | false =>
              obtain ⟨other, hother, hlong, hstop⟩ := ih hl hlinks hrest hlong
              exact ⟨other, List.mem_cons_of_mem _ hother, hlong, hstop⟩
          | true =>
              obtain ⟨hl', hlinks'⟩ := erase_listed hl hlinks hlisted
              obtain ⟨other, hother, hlong, hstop⟩ :=
                ih (d := { d with tree := d.tree.erase (l ++ [name]) }) hl' hlinks' hrest hlong
              refine ⟨other, List.mem_cons_of_mem _ hother, hlong, ?_⟩
              rw [if_pos rfl]
              dsimp only
              rw [hstop]
              rfl

/-- A folder with a path that is too long is not cleared. -/
theorem clear_stops (ht : d.tree.Sound) (hl : d.tree.Standing l) (hlinks : d.tree.NoLinks l)
    (hshort : Disk.tooLong l = false)
    (hlong : ∃ name ∈ d.tree.names l, Disk.tooLong (l ++ [name]) = true) (endings : List Text) :
    ∃ cause, (clear (.absolute l) endings d).1 = .error cause ∧ Unlooked d l cause := by
  have hvalid := Project.valid_of_mem_names ht (l := l)
  obtain ⟨name, hname, htooLong, hstop⟩ := clearEach_stops hl hlinks hvalid hlong endings
  refine ⟨.at .tooLong (Path.absolute (l ++ [name])).text, ?_, name, hname, ?_⟩
  · rw [clear, Disk.names, Disk.look_standing hl, hshort]
    exact hstop
  · rw [Disk.isFile_child hl (hvalid name hname) (hlinks name), htooLong, if_pos rfl]

/-- The tree without what is listed in a folder. -/
theorem withoutNames_rearranged {t t' : Tree} (h : t.Rearranged t') {gone gone' : List Text}
    (hgone : gone.Perm gone') (l : Location) :
    (withoutNames t l gone).Rearranged (withoutNames t' l gone') := by
  have hkeep : (fun x : Location × Entry => !(gone'.map (l ++ [·])).contains x.1)
      = fun x => !(gone.map (l ++ [·])).contains x.1 := by
    funext x
    rw [Bool.eq_iff_iff]
    simp only [Bool.not_eq_true', Bool.eq_false_iff, ne_eq, List.contains_iff_mem,
      (hgone.map (l ++ [·])).mem_iff]
  rw [withoutNames, withoutNames, hkeep]
  exact h.filter _

/-- **CLEARING IN ANY ORDER** comes to the same, or it stops in either order at a path that is
    too long. -/
theorem clear_rearranged (h : Rearranged d d') (ht : d.tree.Sound) (hl : d.tree.Standing l)
    (hlinks : d.tree.NoLinks l) (endings : List Text) :
    (Related Eq List.Perm (clear (.absolute l) endings d).1 (clear (.absolute l) endings d').1 ∧
      Rearranged (clear (.absolute l) endings d).2 (clear (.absolute l) endings d').2) ∨
    ∃ cause cause', (clear (.absolute l) endings d).1 = .error cause ∧
      (clear (.absolute l) endings d').1 = .error cause' ∧ Unlooked d l cause ∧
      Unlooked d l cause' := by
  have hperm := h.tree.names l
  have halike := h.alike.symm.tree
  have ht' := halike.sound ht
  have hl' := halike.standing hl
  have hlinks' := halike.noLinks hlinks
  cases hfolder : Disk.tooLong l with
  | true =>
      refine .inl ?_
      rw [clear, clear, Disk.names, Disk.names, Disk.look_standing hl, Disk.look_standing hl',
        hfolder]
      exact ⟨.error rfl, h⟩
  | false =>
      by_cases hlong : ∃ name ∈ d.tree.names l, Disk.tooLong (l ++ [name]) = true
      · -- which path is reported is a matter of order
        obtain ⟨cause, hstop, hcause⟩ := clear_stops ht hl hlinks hfolder hlong endings
        obtain ⟨name, hname, htooLong⟩ := hlong
        obtain ⟨cause', hstop', other, hother, hcause'⟩ := clear_stops ht' hl' hlinks' hfolder
          ⟨name, hperm.mem_iff.mp hname, htooLong⟩ endings
        refine .inr ⟨cause, cause', hstop, hstop', hcause, other, hperm.mem_iff.mpr hother, ?_⟩
        rw [h.isFile_eq]
        exact hcause'
      · have hshort : ∀ name ∈ d.tree.names l, Disk.tooLong (l ++ [name]) = false :=
          fun name hname => Bool.eq_false_iff.mpr fun htooLong => hlong ⟨name, hname, htooLong⟩
        have hlisted : Project.listed d'.tree l endings = Project.listed d.tree l endings := by
          funext name
          rw [Project.listed, Project.listed, Tree.hasFile_like (halike _)]
        refine .inl ?_
        rw [clear, clear, Disk.names, Disk.names, Disk.look_standing hl, Disk.look_standing hl',
          hfolder, if_neg Bool.false_ne_true]
        dsimp only
        rw [clearEach_eq hl hlinks (Project.valid_of_mem_names ht) hshort
            (h.tree.distinct.names l),
          clearEach_eq hl' hlinks' (Project.valid_of_mem_names ht')
            (fun name hname => hshort name (hperm.mem_iff.mpr hname))
            (hperm.nodup_iff.mp (h.tree.distinct.names l)), hlisted]
        have hgone := hperm.filter (Project.listed d.tree l endings)
        exact ⟨.ok (hgone.map _), withoutNames_rearranged h.tree hgone l, h.here, h.home⟩

end Output

-- ── Settings ────────────────────────────────────────────────────────────────

theorem Settings.load_rearranged {d d' : Disk} (h : d.Rearranged d') (given : Path) :
    load d given = load d' given := by
  rw [load, load, filePath, filePath, h.expandHome_eq, h.isFolder_eq, h.resolve_eq, h.isThere_eq,
    h.read_eq]

namespace Project

variable {d d' : Disk} {r : Location} {endings : List Text}

theorem requireFolder_rearranged (h : d.Rearranged d') (role : Role) (given : Option Text) :
    requireFolder d role given = requireFolder d' role given := by
  cases given with
  | none => rfl
  | some given =>
      rw [requireFolder, requireFolder, h.expandHome_eq, h.isFolder_eq, h.resolve_eq]

theorem folders_rearranged (h : d.Rearranged d') (project output : Option Text) :
    folders d project output = folders d' project output := by
  rw [folders, folders, requireFolder_rearranged h, requireFolder_rearranged h]

theorem anyFile_rearranged (h : d.Rearranged d') (folder : Path) (names : List Text) :
    anyFile d folder names = anyFile d' folder names := by
  induction names with
  | nil => rfl
  | cons name names ih => rw [anyFile, anyFile, h.isFile_eq, ih]

theorem readSketch_rearranged (h : d.Rearranged d') : readSketch d = readSketch d' := by
  funext p
  rw [readSketch, readSketch, h.read_eq]

-- ── The files of a folder ───────────────────────────────────────────────────

theorem error_of_filterM {p : α → Except ε Bool} {xs : List α} {e : ε}
    (h : xs.filterM p = .error e) : ∃ x ∈ xs, p x = .error e := by
  have haux : ∀ (xs kept : List α), List.filterAuxM p xs kept = .error e →
      ∃ x ∈ xs, p x = .error e := by
    intro xs
    induction xs with
    | nil =>
        intro kept h
        cases h
    | cons x xs ih =>
        intro kept h
        rw [List.filterAuxM] at h
        cases hx : p x with
        | error e' =>
            rw [hx] at h
            have heq : e' = e := Except.error.inj h
            exact ⟨x, List.mem_cons_self .., heq ▸ hx⟩
        | ok b =>
            rw [hx] at h
            obtain ⟨y, hy, hpy⟩ := ih _ h
            exact ⟨y, List.mem_cons_of_mem _ hy, hpy⟩
  rw [List.filterM] at h
  cases hzs : List.filterAuxM p xs [] with
  | error e' =>
      rw [hzs] at h
      have heq : e' = e := Except.error.inj h
      exact haux xs [] (heq ▸ hzs)
  | ok zs =>
      rw [hzs] at h
      cases h

/-- Filtering a list in another order fails on some member in either case, or in neither. -/
theorem filterM_related {p : α → Except ε Bool} {xs ys : List α} (h : xs.Perm ys) :
    Related (fun e e' => (∃ x ∈ xs, p x = .error e) ∧ ∃ x ∈ xs, p x = .error e')
      (fun zs zs' => (∀ z ∈ zs, p z = .ok true) ∧ ∀ z ∈ zs', p z = .ok true)
      (xs.filterM p) (ys.filterM p) := by
  have hkept {xs zs : List α} (hzs : xs.filterM p = .ok zs) : ∀ z ∈ zs, p z = .ok true := by
    intro z hz
    rw [filterM_eq_filter hzs, List.mem_filter] at hz
    obtain ⟨b, hb⟩ := tested_of_filterM hzs z hz.1
    rw [hb] at hz ⊢
    exact congrArg _ hz.2
  cases hx : xs.filterM p with
  | ok zs =>
      cases hy : ys.filterM p with
      | ok zs' => exact .ok ⟨hkept hx, hkept hy⟩
      | error e =>
          obtain ⟨y, hmem, hfault⟩ := error_of_filterM hy
          obtain ⟨b, hb⟩ := tested_of_filterM hx y (h.mem_iff.mpr hmem)
          exact nomatch hb.symm.trans hfault
  | error e =>
      obtain ⟨x, hmem, hfault⟩ := error_of_filterM hx
      cases hy : ys.filterM p with
      | ok zs =>
          obtain ⟨b, hb⟩ := tested_of_filterM hy x (h.mem_iff.mp hmem)
          exact nomatch hb.symm.trans hfault
      | error e' =>
          obtain ⟨y, hmem', hfault'⟩ := error_of_filterM hy
          exact .error ⟨⟨x, hmem, hfault⟩, y, h.mem_iff.mpr hmem', hfault'⟩

theorem error_of_and {x : Except ε Bool} {b : Bool} {e : ε}
    (h : (do .ok ((← x) && b) : Except ε Bool) = .error e) : x = .error e := by
  cases x with
  | error e' => exact congrArg _ (Except.error.inj h)
  | ok b => exact nomatch h

theorem true_of_and {x : Except ε Bool} {b : Bool}
    (h : (do .ok ((← x) && b) : Except ε Bool) = .ok true) : x = .ok true := by
  obtain ⟨c, rfl, hrest⟩ := bind_eq_ok h
  rw [((Bool.and_eq_true _ _).mp (Except.ok.inj hrest)).1]

/-- The faults are the same, or each says of some entry that it cannot be looked at.  A fault
    with files may be wrapped in another. -/
def Akin (wrap : Files.Fault → α) (d : Disk) (r : Location) (fault fault' : α) : Prop :=
  fault = fault' ∨ ∃ cause cause', fault = wrap cause ∧ fault' = wrap cause' ∧
    Unlooked d r cause ∧ Unlooked d r cause'

theorem Akin.map {wrap : Files.Fault → α} {fault fault' : α} (h : Akin wrap d r fault fault')
    (f : α → β) : Akin (f ∘ wrap) d r (f fault) (f fault') := by
  rcases h with rfl | ⟨cause, cause', rfl, rfl, hunlooked⟩
  · exact .inl rfl
  · exact .inr ⟨cause, cause', rfl, rfl, hunlooked⟩

/-- The files of a folder are found in any order, or an entry cannot be looked at. -/
theorem filesIn_related (h : d.Rearranged d') (ht : d.tree.Sound) (hr : d.tree.Standing r)
    (endings : List Text) :
    Related (Akin id d r) (fun ps ps' => (∀ p ∈ ps, d.isFile p = .ok true) ∧
        ∀ p ∈ ps', d.isFile p = .ok true)
      (filesIn d (.absolute r) endings) (filesIn d' (.absolute r) endings) := by
  have hnames : Related (Akin id d r) (fun names names' => names = d.tree.names r ∧
      names.Perm names') (d.names (.absolute r)) (d'.names (.absolute r)) := by
    rw [Disk.names, Disk.names, Disk.look_standing hr,
      Disk.look_standing (h.alike.symm.tree.standing hr)]
    cases Disk.tooLong r with
    | true => exact .error (.inl rfl)
    | false => exact .ok ⟨rfl, h.tree.names r⟩
  refine hnames.bind fun names names' hlists => ?_
  obtain ⟨rfl, hperm⟩ := hlists
  rw [filesAmong, filesAmong, ← h.isFile_eq]
  refine (filterM_related (hperm.map (Path.absolute r).child)).imp (fun e e' hfaults => ?_)
    fun ps ps' hkept => ⟨fun p hp => true_of_and (hkept.1 p hp), fun p hp =>
      true_of_and (hkept.2 p hp)⟩
  have hunlooked {cause : Files.Fault} {p : Path}
      (hp : p ∈ (d.tree.names r).map (Path.absolute r).child)
      (hcause : d.isFile p = .error cause) : Unlooked d r cause := by
    obtain ⟨name, hname, rfl⟩ := List.mem_map.mp hp
    rw [Path.child_absolute r (valid_of_mem_names ht name hname).toPlain] at hcause
    exact ⟨name, hname, hcause⟩
  obtain ⟨⟨p, hp, hcause⟩, p', hp', hcause'⟩ := hfaults
  exact .inr ⟨e, e', rfl, rfl, hunlooked hp (error_of_and hcause),
    hunlooked hp' (error_of_and hcause')⟩

-- ── The project ─────────────────────────────────────────────────────────────

variable {sketchEndings companionEndings : List Text}

/-- A project is found in either order, or in neither. -/
theorem scan_related (h : d.Rearranged d') (ht : d.tree.Sound)
    (hhere : d.tree.get? d.here = some .folder) (hr : d.tree.Standing r) :
    Related (Akin .file d r) (fun _ _ => True)
      (scan d sketchEndings companionEndings (Path.absolute r).text)
      (scan d' sketchEndings companionEndings (Path.absolute r).text) := by
  have hroot : Related (Akin .file d r) (fun root root' => root = .absolute r ∧ root' = .absolute r)
      (requireFolder d .project (some (Path.absolute r).text))
      (requireFolder d' .project (some (Path.absolute r).text)) := by
    rw [← requireFolder_rearranged h]
    cases hroot : requireFolder d .project (some (Path.absolute r).text) with
    | error fault => exact .error (.inl rfl)
    | ok root =>
        have := requireFolder_absolute ht hhere hr hroot
        exact .ok ⟨this, this⟩
  have hfiles (endings : List Text) : Related (Akin .file d r) _
      (ofFiles (filesIn d (.absolute r) endings)) (ofFiles (filesIn d' (.absolute r) endings)) :=
    (filesIn_related h ht hr endings).mapError fun _ _ hakin => hakin.map Fault.file
  refine hroot.bind ?_
  rintro root root' ⟨rfl, rfl⟩
  dsimp only
  rw [anyFile_rearranged h]
  refine (Related.refl (fun _ => .inl rfl) _).bind ?_
  rintro found _ rfl
  cases found with
  | false => exact .error (.inl rfl)
  | true =>
      refine (hfiles sketchEndings).bind fun ps ps' hps => ?_
      obtain ⟨sources, hsources⟩ := mapM_readSketch_of_isFile hps.1
      obtain ⟨sources', hsources'⟩ := mapM_readSketch_of_isFile hps.2
      rw [← readSketch_rearranged h, hsources, hsources']
      exact (hfiles companionEndings).bind fun _ _ _ => .ok trivial

/-- Paths with different names are put in one order. -/
theorem byName_eq_of_perm {ps ps' : List Path} (h : ps.Perm ps')
    (hname : ∀ p ∈ ps, ∀ q ∈ ps, p.name = q.name → p = q) : byName ps = byName ps' := by
  rw [byName, byName]
  refine sortBy_eq_of_perm ?_ ?_ ?_ h
  · exact fun _ _ _ => Text.le_trans
  · exact fun p q => (Bool.or_eq_true _ _).mpr (Text.le_total p.name q.name)
  · exact fun p hp q hq hpq hqp => hname p hp q hq (Text.le_antisymm hpq hqp)

/-- **ONE PROJECT IN ANY ORDER.** -/
theorem scan_unique (h : d.Rearranged d') (ht : d.tree.Sound)
    (hhere : d.tree.get? d.here = some .folder) (hr : d.tree.Standing r) {p p' : Project}
    (hp : scan d sketchEndings companionEndings (Path.absolute r).text = .ok p)
    (hp' : scan d' sketchEndings companionEndings (Path.absolute r).text = .ok p') : p = p' := by
  have halike := h.alike.symm
  have ht' := halike.tree.sound ht
  have hhere' : d'.tree.get? d'.here = some .folder := by
    rw [← h.tree.get?_eq, ← h.here]
    exact hhere
  have hr' := halike.tree.standing hr
  have hdistinct' : d'.tree.Distinct := (h.tree.perm.map Prod.fst).nodup_iff.mp h.tree.distinct
  have hsketches : p.sketches = p'.sketches := by
    obtain ⟨files, hfiles, hfound⟩ := scan_sketches ht h.tree.distinct hhere hr hp
    obtain ⟨files', hfiles', hfound'⟩ := scan_sketches ht' hdistinct' hhere' hr' hp'
    have hsame := hfound.unique (hfound'.of_alike halike fun _ _ l _ =>
      congrFun h.tree.get?_eq.symm l)
    rw [hfiles, hfiles', hsame]
  have hcompanions : p.companions = p'.companions := by
    obtain ⟨_, _, ps, -, -, -, hps, rfl⟩ := scan_found ht hhere hr hp
    obtain ⟨_, _, ps', -, -, -, hps', rfl⟩ := scan_found ht' hhere' hr' hp'
    rw [filesIn_eq ht hr hps, filesIn_eq ht' hr' hps', ← h.isFile_eq]
    refine byName_eq_of_perm (((h.tree.names r).filter _).map _) fun p hp q hq heq => ?_
    obtain ⟨name, -, rfl⟩ := List.mem_map.mp hp
    obtain ⟨name', -, rfl⟩ := List.mem_map.mp hq
    rw [Path.name_absolute, Path.name_absolute] at heq
    rw [heq]
  obtain ⟨_, _, _, -, -, -, -, rfl⟩ := scan_found ht hhere hr hp
  obtain ⟨_, _, _, -, -, -, -, rfl⟩ := scan_found ht' hhere' hr' hp'
  dsimp only at hsketches hcompanions
  rw [hsketches, hcompanions]

theorem scan_rearranged (h : d.Rearranged d') (ht : d.tree.Sound)
    (hhere : d.tree.get? d.here = some .folder) (hr : d.tree.Standing r)
    (sketchEndings companionEndings : List Text) :
    Related (Akin .file d r) Eq
      (scan d sketchEndings companionEndings (Path.absolute r).text)
      (scan d' sketchEndings companionEndings (Path.absolute r).text) :=
  (scan_related h ht hhere hr).eq_of_ok fun _ _ => scan_unique h ht hhere hr

end Project

end SketchMerge
