import SketchMerge.Project.Output
import SketchMerge.Proofs.Project.Contents

/-! # Clearing and copying

    Clearing takes from a folder the files with a listed ending and touches nothing
    else; it goes through unless a path in the folder is too long.  Copying puts
    files into a folder under the names of their sources.  However copying ends,
    every location is AS BEFORE, or holds a copy where no folder was. -/

namespace SketchMerge.Output

open Project

variable {d : Disk} {l : Location} {endings names : List Text}

-- ── Clearing ────────────────────────────────────────────────────────────────

/-- All but the listed files among some names is as it was. -/
def Kept (l : Location) (endings names : List Text) (t t' : Tree) : Prop :=
  ∀ m, (∀ name ∈ names, m = l ++ [name] → listed t l endings name = false) →
    t'.get? m = t.get? m

/-- The listed files among some names are gone, and all else is as it was. -/
structure Cleared (l : Location) (endings names : List Text) (t t' : Tree) : Prop where
  gone : ∀ name ∈ names, listed t l endings name = true → t'.get? (l ++ [name]) = none
  kept : Kept l endings names t t'

theorem concat_ne_nil (l : Location) (name : Text) : l ++ [name] ≠ [] :=
  List.append_ne_nil_of_right_ne_nil _ (List.cons_ne_nil _ _)

theorem listed_erase (t : Tree) (l : Location) (endings : List Text) (name other : Text) :
    listed (t.erase (l ++ [name])) l endings other
      = (other != name && listed t l endings other) := by
  rw [listed, listed, Tree.hasFile, Tree.hasFile, Tree.get?_erase t (concat_ne_nil l name)]
  by_cases h : other = name
  · rw [h, if_pos rfl, bne_self_eq_false]
    rfl
  · have hne : l ++ [other] ≠ l ++ [name] :=
      fun heq => h (List.cons.inj (List.append_cancel_left heq)).1
    rw [if_neg hne, bne_iff_ne.mpr h, Bool.true_and]

theorem Kept.erase {t t' : Tree} {name : Text} (hlisted : listed t l endings name = true)
    (h : Kept l endings names (t.erase (l ++ [name])) t') :
    Kept l endings (name :: names) t t' := by
  intro m hm
  have hne : m ≠ l ++ [name] := by
    intro heq
    rw [hm name (List.mem_cons_self ..) heq] at hlisted
    exact nomatch hlisted
  rw [h, Tree.get?_erase t (concat_ne_nil l name), if_neg hne]
  intro other hother heq
  rw [listed_erase, hm other (List.mem_cons_of_mem _ hother) heq, Bool.and_false]

theorem Kept.skip {t t' : Tree} (h : Kept l endings names t t') (name : Text) :
    Kept l endings (name :: names) t t' :=
  fun m hm => h m fun x hx => hm x (List.mem_cons_of_mem _ hx)

/-- One more file is taken away. -/
theorem Cleared.erase {t t' : Tree} {name : Text} (hlisted : listed t l endings name = true)
    (h : Cleared l endings names (t.erase (l ++ [name])) t') :
    Cleared l endings (name :: names) t t' := by
  have hgone : t'.get? (l ++ [name]) = none := by
    rw [h.kept, Tree.get?_erase t (concat_ne_nil l name), if_pos rfl]
    intro other _ heq
    rw [listed_erase, ← (List.cons.inj (List.append_cancel_left heq)).1, bne_self_eq_false,
      Bool.false_and]
  refine ⟨fun other hother hl => ?_, h.kept.erase hlisted⟩
  by_cases hsame : other = name
  · rw [hsame]
    exact hgone
  · rcases List.mem_cons.mp hother with heq | hother
    · exact absurd heq hsame
    · refine h.gone other hother ?_
      rw [listed_erase, bne_iff_ne.mpr hsame, Bool.true_and]
      exact hl

theorem Cleared.skip {t t' : Tree} {name : Text} (hlisted : listed t l endings name = false)
    (h : Cleared l endings names t t') : Cleared l endings (name :: names) t t' := by
  refine ⟨fun x hx hxl => ?_, h.kept.skip name⟩
  rcases List.mem_cons.mp hx with rfl | hx
  · rw [hlisted] at hxl
    exact nomatch hxl
  · exact h.gone x hx hxl

attribute [local irreducible] filesAmong Disk.entryLocation in
theorem clearEach_cons (folder : Path) (endings : List Text) (name : Text) (names : List Text)
    (d : Disk) :
    clearEach folder endings (name :: names) d =
      match filesAmong d folder endings [name] with
      | .error fault => (.error fault, d)
      | .ok [] => clearEach folder endings names d
      | .ok (_ :: _) =>
        match d.entryLocation (folder.child name) with
        | .error fault => (.error fault, d)
        | .ok m =>
          ((clearEach folder endings names { d with tree := d.tree.erase m }).1.map
              (folder.child name :: ·),
            (clearEach folder endings names { d with tree := d.tree.erase m }).2) :=
  rfl

section

variable {folder : Path} {name : Text}

theorem clearEach_fault {fault : Files.Fault}
    (h : filesAmong d folder endings [name] = .error fault) :
    clearEach folder endings (name :: names) d = (.error fault, d) := by
  rw [clearEach_cons, h]

theorem clearEach_leave (h : filesAmong d folder endings [name] = .ok []) :
    clearEach folder endings (name :: names) d = clearEach folder endings names d := by
  rw [clearEach_cons, h]

theorem clearEach_take {m : Location}
    (h : filesAmong d folder endings [name] = .ok [folder.child name])
    (hm : d.entryLocation (folder.child name) = .ok m) :
    clearEach folder endings (name :: names) d
      = ((clearEach folder endings names { d with tree := d.tree.erase m }).1.map
          (folder.child name :: ·),
        (clearEach folder endings names { d with tree := d.tree.erase m }).2) := by
  rw [clearEach_cons, h]
  dsimp only
  rw [hm]

theorem filesAmong_fault (hname : Tree.Plain name) {fault : Files.Fault}
    (h : d.isFile (folder.child name) = .error fault) :
    filesAmong d folder endings [name] = .error fault := by
  rw [filesAmong, List.map_singleton, List.filterM, List.filterAuxM,
    Path.name_child folder hname, h]
  rfl

theorem filesAmong_looked (endings : List Text) (hname : Tree.Plain name) {b : Bool}
    (h : d.isFile (folder.child name) = .ok b) :
    filesAmong d folder endings [name] =
      .ok (bif b && endings.contains (FileName.ending name) then [folder.child name] else []) := by
  rw [filesAmong,
    filterM_eq_ok (q := fun _ => b && endings.contains (FileName.ending name))]
  · cases b && endings.contains (FileName.ending name) with
    | true => rfl
    | false => rfl
  · intro p hp
    obtain rfl := List.mem_singleton.mp hp
    rw [h, Path.name_child folder hname]
    rfl

end

/-- A single child that is not too long is listed or it is not. -/
theorem filesAmong_singleton (endings : List Text) (hl : d.tree.Standing l)
    (hlinks : d.tree.NoLinks l) {name : Text} (hname : Tree.Valid name)
    (hshort : Disk.tooLong (l ++ [name]) = false) :
    filesAmong d (.absolute l) endings [name]
      = .ok (if listed d.tree l endings name then [(Path.absolute l).child name] else []) := by
  have hfile : d.isFile ((Path.absolute l).child name) = .ok (d.tree.hasFile (l ++ [name])) := by
    rw [Path.child_absolute l hname.toPlain, Disk.isFile_child hl hname (hlinks name), hshort,
      if_neg Bool.false_ne_true]
  rw [filesAmong_looked endings hname.toPlain hfile, ← listed, Bool.cond_eq_ite]

/-- A single child that is too long cannot be looked at. -/
theorem filesAmong_tooLong (hl : d.tree.Standing l) (hlinks : d.tree.NoLinks l) {name : Text}
    (hname : Tree.Valid name) (hlong : Disk.tooLong (l ++ [name]) = true) :
    filesAmong d (.absolute l) endings [name]
      = .error (.at .tooLong (Path.absolute (l ++ [name])).text) := by
  refine filesAmong_fault hname.toPlain ?_
  rw [Path.child_absolute l hname.toPlain, Disk.isFile_child hl hname (hlinks name), hlong,
    if_pos rfl]

/-- A name that is not too long is cleared if it is listed. -/
theorem clearEach_step (hl : d.tree.Standing l) (hlinks : d.tree.NoLinks l) {name : Text}
    (hname : Tree.Valid name) (hshort : Disk.tooLong (l ++ [name]) = false) (names : List Text) :
    clearEach (.absolute l) endings (name :: names) d =
      if listed d.tree l endings name then
        ((clearEach (.absolute l) endings names { d with tree := d.tree.erase (l ++ [name]) }).1.map
            ((Path.absolute l).child name :: ·),
          (clearEach (.absolute l) endings names { d with tree := d.tree.erase (l ++ [name]) }).2)
      else clearEach (.absolute l) endings names d := by
  have hfiles := filesAmong_singleton endings hl hlinks hname hshort
  cases hlisted : listed d.tree l endings name with
  | false =>
      rw [hlisted, if_neg Bool.false_ne_true] at hfiles
      rw [clearEach_leave hfiles, if_neg Bool.false_ne_true]
  | true =>
      have hlocation : d.entryLocation ((Path.absolute l).child name) = .ok (l ++ [name]) := by
        rw [Disk.entryLocation, Path.parent_child _ hname.toPlain, Disk.look_standing hl,
          Disk.tooLong_child l name hshort, Path.name_child _ hname.toPlain,
          if_neg Bool.false_ne_true]
      rw [hlisted, if_pos rfl] at hfiles
      rw [clearEach_take hfiles hlocation, if_pos rfl]

/-- A folder stands, and is free of links, without one of its files. -/
theorem erase_listed (hl : d.tree.Standing l) (hlinks : d.tree.NoLinks l) {name : Text}
    (hlisted : listed d.tree l endings name = true) :
    (d.tree.erase (l ++ [name])).Standing l ∧ (d.tree.erase (l ++ [name])).NoLinks l := by
  obtain ⟨content, hfile⟩ := Tree.hasFile_iff.mp (listed_iff.mp hlisted).1
  refine ⟨hl.keep fun k hk => ?_, fun x target => ?_⟩
  · rw [Tree.get?_erase _ (concat_ne_nil l name), if_neg, hk]
    rintro rfl
    exact nomatch hk.symm.trans hfile
  · rw [Tree.get?_erase _ (concat_ne_nil l name)]
    split
    · exact fun h => nomatch h
    · exact hlinks x target

/-- Clearing goes through some names, or one of them is too long and it stops on the way. -/
theorem clearEach_outcome (hl : d.tree.Standing l) (hlinks : d.tree.NoLinks l)
    (hnames : ∀ name ∈ names, Tree.Valid name) :
    (∃ removed t', clearEach (.absolute l) endings names d = (.ok removed, { d with tree := t' }) ∧
      Cleared l endings names d.tree t') ∨
    (∃ fault t', clearEach (.absolute l) endings names d = (.error fault, { d with tree := t' }) ∧
      Kept l endings names d.tree t' ∧ ∃ name ∈ names, Disk.tooLong (l ++ [name]) = true) := by
  induction names generalizing d with
  | nil => exact .inl ⟨[], d.tree, rfl, ⟨(fun _ h => nomatch h), fun _ _ => rfl⟩⟩
  | cons name names ih =>
      have hname := hnames name (List.mem_cons_self ..)
      have hrest : ∀ name ∈ names, Tree.Valid name :=
        fun x hx => hnames x (List.mem_cons_of_mem _ hx)
      by_cases hlong : Disk.tooLong (l ++ [name]) = true
      · -- whether it is a file cannot be told
        rw [clearEach_cons, filesAmong_tooLong hl hlinks hname hlong]
        exact .inr ⟨_, d.tree, rfl, fun _ _ => rfl, name, List.mem_cons_self .., hlong⟩
      rw [clearEach_step hl hlinks hname (Bool.eq_false_iff.mpr hlong)]
      cases hlisted : listed d.tree l endings name with
      | false =>
          rw [if_neg Bool.false_ne_true]
          rcases ih hl hlinks hrest
            with ⟨removed, t', hout, hcleared⟩ | ⟨fault, t', hout, hkept, x, hx, hx'⟩
          · exact .inl ⟨removed, t', hout, hcleared.skip hlisted⟩
          · exact .inr ⟨fault, t', hout, hkept.skip name, x, List.mem_cons_of_mem _ hx, hx'⟩
      | true =>
          obtain ⟨hl', hlinks'⟩ := erase_listed hl hlinks hlisted
          rw [if_pos rfl]
          rcases ih (d := { d with tree := d.tree.erase (l ++ [name]) }) hl' hlinks' hrest
            with ⟨removed, t', hout, hcleared⟩ | ⟨fault, t', hout, hkept, x, hx, hx'⟩
          · rw [hout]
            exact .inl ⟨_, t', rfl, hcleared.erase hlisted⟩
          · rw [hout]
            exact .inr ⟨fault, t', rfl, hkept.erase hlisted, x, List.mem_cons_of_mem _ hx, hx'⟩

/-- **CLEARING TAKES WHAT IS LISTED**, or it does not start, or a path in the folder is too
    long; it never takes anything else. -/
theorem clear_outcome (ht : d.tree.Sound) (hl : d.tree.Standing l) (hlinks : d.tree.NoLinks l)
    (endings : List Text) :
    (∃ removed t', clear (.absolute l) endings d = (.ok removed, { d with tree := t' }) ∧
      Cleared l endings (d.tree.names l) d.tree t') ∨
    (∃ fault t', clear (.absolute l) endings d = (.error fault, { d with tree := t' }) ∧
      (t' = d.tree ∨ Kept l endings (d.tree.names l) d.tree t' ∧
        ∃ name ∈ d.tree.names l, Disk.tooLong (l ++ [name]) = true)) := by
  rw [clear]
  cases hnames : d.names (.absolute l) with
  | error fault => exact .inr ⟨fault, d.tree, rfl, .inl rfl⟩
  | ok names =>
      obtain rfl := names_eq_ok hl hnames
      dsimp only
      rcases clearEach_outcome hl hlinks (valid_of_mem_names ht)
        with hout | ⟨fault, t', hout, hkept, hlong⟩
      · exact .inl hout
      · exact .inr ⟨fault, t', hout, .inr ⟨hkept, hlong⟩⟩

/-- However clearing ends, all but the listed files is as it was. -/
theorem clear_kept (ht : d.tree.Sound) (hl : d.tree.Standing l) (hlinks : d.tree.NoLinks l)
    (endings : List Text) :
    ∃ t', (clear (.absolute l) endings d).2 = { d with tree := t' } ∧
      Kept l endings (d.tree.names l) d.tree t' := by
  rcases clear_outcome ht hl hlinks endings
    with ⟨removed, t', hout, hcleared⟩ | ⟨fault, t', hout, rfl | ⟨hkept, -⟩⟩
  · exact ⟨t', by rw [hout], hcleared.kept⟩
  · exact ⟨d.tree, by rw [hout], fun _ _ => rfl⟩
  · exact ⟨t', by rw [hout], hkept⟩

/-- Clearing makes nothing new. -/
theorem clearEach_less {folder : Path} {m : Location} {e : Entry}
    (h : (clearEach folder endings names d).2.tree.get? m = some e) :
    d.tree.get? m = some e := by
  induction names generalizing d with
  | nil => exact h
  | cons name names ih =>
      rw [clearEach_cons] at h
      split at h
      next => exact h
      next => exact ih h
      next =>
          split at h
          next => exact h
          next => exact Tree.get?_of_erase (ih h)

theorem clear_less {folder : Path} {d' : Disk} {out : Except Files.Fault (List Path)}
    (hout : clear folder endings d = (out, d')) {m : Location} {e : Entry}
    (h : d'.tree.get? m = some e) : d.tree.get? m = some e := by
  have hd : d' = (clear folder endings d).2 := by rw [hout]
  rw [hd, clear] at h
  split at h
  next => exact h
  next => exact clearEach_less h

-- ── Copying ─────────────────────────────────────────────────────────────────

variable {r t : Location} {sources : List Path}

/-- The sources are children of a folder. -/
def From (r : Location) (sources : List Path) : Prop :=
  ∀ p ∈ sources, ∃ name, p = .absolute (r ++ [name]) ∧ Tree.Valid name

/-- Every location is as it was, or holds a copy where no folder was. -/
def Copying (r t : Location) (sources : List Path) (old new : Tree) : Prop :=
  ∀ m, new.get? m = old.get? m ∨
    ∃ name content, .absolute (r ++ [name]) ∈ sources ∧ m = t ++ [name] ∧
      old.get? m ≠ some .folder ∧ new.get? m = some (.file content)

theorem Copying.folder {old new : Tree} (h : Copying r t sources old new) {k : Location}
    (hk : old.get? k = some .folder) : new.get? k = some .folder := by
  rcases h k with heq | ⟨name, content, -, -, hfolder, -⟩
  · rw [heq, hk]
  · exact absurd hk hfolder

theorem Copying.noLinks {old new : Tree} (h : Copying r t sources old new) {l : Location}
    (hl : old.NoLinks l) : new.NoLinks l := by
  intro name target hget
  rcases h (l ++ [name]) with heq | ⟨_, content, -, -, -, hfile⟩
  · exact hl name target (heq ▸ hget)
  · exact nomatch hget.symm.trans hfile

theorem copyEach_cons (folder source : Path) (rest : List Path) (d : Disk) :
    copyEach folder (source :: rest) d =
      match d.copy source (folder.child source.name) with
      | .error fault => (.error fault, d)
      | .ok d =>
        ((copyEach folder rest d).1.map (folder.child source.name :: ·),
          (copyEach folder rest d).2) :=
  rfl

/-- One copy. -/
theorem copy_child (hr : d.tree.Standing r) (ht : d.tree.Standing t) (hrlinks : d.tree.NoLinks r)
    (htlinks : d.tree.NoLinks t) {name : Text} (hname : Tree.Valid name) {d' : Disk}
    (h : d.copy (.absolute (r ++ [name])) (.absolute (t ++ [name])) = .ok d') :
    ∃ content, d.tree.get? (r ++ [name]) = some (.file content) ∧
      d.tree.get? (t ++ [name]) ≠ some .folder ∧ d' = d.put (t ++ [name]) (.file content) := by
  obtain ⟨content, hread, hwrite⟩ := Disk.copy_eq_ok h
  obtain ⟨hd', hfolder⟩ := Disk.write_child ht hname.toNamed (htlinks name) hwrite
  exact ⟨content, Disk.read_child hr hname.toNamed (hrlinks name) hread, hfolder, hd'⟩

theorem copying_put {content : List UInt8} {name : Text} (tree : Tree)
    (hfolder : tree.get? (t ++ [name]) ≠ some .folder) :
    Copying r t [.absolute (r ++ [name])] tree (tree.put (t ++ [name]) (.file content)) := by
  intro m
  rw [Tree.get?_put tree (concat_ne_nil t name)]
  by_cases hm : m = t ++ [name]
  · rw [if_pos hm]
    exact .inr ⟨name, content, List.mem_cons_self .., hm, hm ▸ hfolder, rfl⟩
  · rw [if_neg hm]
    exact .inl rfl

theorem Copying.trans {first rest : List Path} {a b c : Tree} (hab : Copying r t first a b)
    (hbc : Copying r t rest b c) : Copying r t (first ++ rest) a c := by
  intro m
  rcases hbc m with heq | ⟨name, content, hmem, rfl, hfolder, hfile⟩
  · rcases hab m with heq' | ⟨name, content, hmem, hm, hfolder, hfile⟩
    · exact .inl (heq.trans heq')
    · exact .inr ⟨name, content, List.mem_append_left _ hmem, hm, hfolder, heq.trans hfile⟩
  · refine .inr ⟨name, content, List.mem_append_right _ hmem, rfl, fun h => ?_, hfile⟩
    exact hfolder (hab.folder h)

/-- **COPYING TOUCHES NOTHING ELSE**, however it ends; and when it goes through, every source
    has its copy. -/
theorem copyEach_outcome (hr : d.tree.Standing r) (ht : d.tree.Standing t)
    (hrlinks : d.tree.NoLinks r) (htlinks : d.tree.NoLinks t) (hne : r ≠ t)
    (hsources : From r sources) :
    ∃ out new, copyEach (.absolute t) sources d = (out, { d with tree := new }) ∧
      Copying r t sources d.tree new ∧
      ∀ copied, out = .ok copied → ∀ name, .absolute (r ++ [name]) ∈ sources →
        ∃ content, d.tree.get? (r ++ [name]) = some (.file content) ∧
          new.get? (t ++ [name]) = some (.file content) := by
  induction sources generalizing d with
  | nil => exact ⟨.ok [], d.tree, rfl, fun _ => .inl rfl, fun _ _ _ h => nomatch h⟩
  | cons source rest ih =>
      obtain ⟨name, rfl, hname⟩ := hsources _ (List.mem_cons_self ..)
      have hrest : From r rest := fun p hp => hsources p (List.mem_cons_of_mem _ hp)
      rw [copyEach_cons, Path.name_absolute, Path.child_absolute t hname.toPlain]
      cases hcopy : d.copy (.absolute (r ++ [name])) (.absolute (t ++ [name])) with
      | error fault =>
          exact ⟨.error fault, d.tree, rfl, fun _ => .inl rfl, fun _ h => nomatch h⟩
      | ok d' =>
          obtain ⟨content, hsource, hfolder, rfl⟩ := copy_child hr ht hrlinks htlinks hname hcopy
          have hput : Copying r t [.absolute (r ++ [name])] d.tree
              (d.put (t ++ [name]) (.file content)).tree := copying_put d.tree hfolder
          -- a source is never the place of a copy
          have hkept : ∀ other, (d.put (t ++ [name]) (.file content)).tree.get? (r ++ [other])
              = d.tree.get? (r ++ [other]) := by
            intro other
            rw [Disk.put, Tree.get?_put _ (concat_ne_nil t name), if_neg]
            exact fun heq => hne (List.append_inj' heq rfl).1
          obtain ⟨out, new, hout, hcopying, hcopies⟩ := ih
            (d := d.put (t ++ [name]) (.file content)) (hr.keep fun k => hput.folder)
            (ht.keep fun k => hput.folder) (hput.noLinks hrlinks) (hput.noLinks htlinks) hrest
          refine ⟨_, new, by dsimp only; rw [hout]; rfl, hput.trans hcopying, ?_⟩
          intro copied hok other hother
          obtain ⟨copied', rfl⟩ : ∃ copied', out = .ok copied' := by
            cases out with
            | ok copied' => exact ⟨copied', rfl⟩
            | error fault => exact nomatch hok
          by_cases hmem : Path.absolute (r ++ [other]) ∈ rest
          · obtain ⟨content', hcontent, hnew⟩ := hcopies _ rfl other hmem
            exact ⟨content', hkept other ▸ hcontent, hnew⟩
          · have hsame : r ++ [other] = r ++ [name] := by
              rcases List.mem_cons.mp hother with heq | hother
              · exact (Path.mk.inj heq).2
              · exact absurd hother hmem
            obtain rfl := (List.cons.inj (List.append_cancel_left hsame)).1
            refine ⟨content, hsource, ?_⟩
            rcases hcopying (t ++ [other]) with heq | ⟨name', _, hmem', heq, -, -⟩
            · rw [heq, Disk.put, Tree.get?_put _ (concat_ne_nil t other), if_pos rfl]
            · rw [(List.cons.inj (List.append_cancel_left heq)).1] at hmem
              exact absurd hmem' hmem

end SketchMerge.Output
