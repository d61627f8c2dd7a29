import SketchMerge.Proofs.Files.Operations

/-! # What is written can be read

    A path from the root that leads to a place where a file can be written leads to
    the same place once the file is there, however many links are on the way.  A
    walk from the root goes through folders only, so it can MEET NO LINK WHERE IT
    ENDS, and nothing that it has passed is changed by the file. -/

namespace SketchMerge

namespace Tree

/-- There are folders all the way to the location. -/
def Rooted (t : Tree) (l : Location) : Prop :=
  ∀ k, k <+: l → t.get? k = some .folder

theorem rooted_nil (t : Tree) : t.Rooted [] := by
  intro k hk
  rw [List.prefix_nil.mp hk, get?_nil]

theorem Rooted.dropLast {t : Tree} {l : Location} (h : t.Rooted l) : t.Rooted l.dropLast :=
  fun k hk => h k (hk.trans (List.dropLast_prefix l))

theorem Rooted.concat {t : Tree} {l : Location} {name : Text} (h : t.Rooted l)
    (hget : t.get? (l ++ [name]) = some .folder) : t.Rooted (l ++ [name]) := by
  intro k hk
  rcases List.prefix_concat_iff.mp hk with rfl | hk
  · exact hget
  · exact h k hk

theorem Rooted.linkStart {t : Tree} {l : Location} (h : t.Rooted l) (target : Text) :
    t.Rooted (linkStart l target) := by
  rw [Tree.linkStart]
  split
  · exact h
  · exact t.rooted_nil

section

variable {t t' : Tree} {m : Location} {content : List UInt8}

/-- The second tree is the first with a file at a location where no folder was. -/
structure Written (t : Tree) (m : Location) (content : List UInt8) (t' : Tree) : Prop where
  notFolder : t.get? m ≠ some .folder
  file : t'.get? m = some (.file content)
  same : ∀ k, k ≠ m → t'.get? k = t.get? k

/-- A walk that ends where a file is then written ends there again, if the walks behind its
    links do; and where it ends is no link. -/
theorem walkWith_written (h : Written t m content t') {purpose : Purpose}
    {enter enter' : Location → List Text → Except Files.Cause Location}
    (henter : ∀ l names, t.Rooted l → enter l names = .ok m →
      (∀ target, t.get? m ≠ some (.link target)) ∧ enter' l names = .ok m)
    {l : Location} {names : List Text} (hl : t.Rooted l)
    (hwalk : t.walkWith purpose enter l names = .ok m) :
    (∀ target, t.get? m ≠ some (.link target)) ∧ t'.walkWith .find enter' l names = .ok m := by
  induction names generalizing l with
  | nil =>
      obtain rfl := Except.ok.inj hwalk
      exact absurd (hl l (List.prefix_refl l)) h.notFolder
  | cons name rest ih =>
      rcases name_cases name with hskip | rfl | hname
      · rw [walkWith_skip hskip] at hwalk ⊢
        exact ih hl hwalk
      · rw [walkWith_up] at hwalk ⊢
        exact ih hl.dropLast hwalk
      · rw [walkWith_named hname] at hwalk
        rw [walkWith_named hname, if_neg (by rw [Bool.and_eq_true]; exact fun hw => nomatch hw.1)]
        split at hwalk
        · exact nomatch hwalk
        by_cases hlong : nameTooLong name = true
        · rw [if_pos hlong] at hwalk
          exact nomatch hwalk
        rw [if_neg hlong] at hwalk
        rw [if_neg hlong]
        cases hget : t.get? (l ++ [name]) with
        | none =>
            rw [hget] at hwalk
            dsimp only at hwalk
            split at hwalk
            next hrest =>
                obtain rfl := Except.ok.inj hwalk
                rw [h.file]
                exact ⟨fun _ hlink => (nomatch hget.symm.trans hlink), if_pos hrest⟩
            next => exact nomatch hwalk
        | some e =>
            rw [hget] at hwalk
            cases e with
            | folder =>
                have hne : l ++ [name] ≠ m := by
                  rintro rfl
                  exact h.notFolder hget
                rw [h.same _ hne, hget]
                exact ih (hl.concat hget) hwalk
            | file old =>
                dsimp only at hwalk
                split at hwalk
                next hrest =>
                    obtain rfl := Except.ok.inj hwalk
                    rw [h.file]
                    exact ⟨fun _ hlink => (nomatch hget.symm.trans hlink), if_pos hrest⟩
                next => exact nomatch hwalk
            | link target =>
                obtain ⟨hlink, hagain⟩ := henter _ _ (hl.linkStart target) hwalk
                have hne : l ++ [name] ≠ m := by
                  rintro rfl
                  exact hlink target hget
                rw [h.same _ hne, hget]
                exact ⟨hlink, hagain⟩

theorem walk_written (h : Written t m content t') {purpose : Purpose} {links : Nat}
    {l : Location} {names : List Text} (hl : t.Rooted l)
    (hwalk : t.walk purpose links l names = .ok m) :
    (∀ target, t.get? m ≠ some (.link target)) ∧ t'.walk .find links l names = .ok m := by
  induction links generalizing l names with
  | zero =>
      rw [walk] at hwalk
      exact walkWith_written h (fun _ _ _ hnone => by cases hnone) hl hwalk
  | succ links ih => exact walkWith_written h (fun _ _ hl hwalk => ih hl hwalk) hl hwalk

end

end Tree

namespace Disk

variable {d : Disk} {p : Path} {l : Location}

theorem target_eq_ok (h : d.target p = .ok l) :
    d.locate .write p = .ok l ∧ d.tree.get? l ≠ some .folder := by
  rw [target] at h
  cases hlocate : d.locate .write p with
  | error cause =>
      rw [hlocate] at h
      cases h
  | ok m =>
      rw [hlocate] at h
      dsimp only at h
      split at h
      next => cases h
      next hfolder =>
          obtain rfl := Except.ok.inj h
          exact ⟨rfl, fun hget => hfolder (beq_iff_eq.mpr hget)⟩

theorem target_ne_nil (h : d.target p = .ok l) : l ≠ [] := by
  rintro rfl
  exact (target_eq_ok h).2 (Tree.get?_nil _)

/-- A file that is written changes nothing else. -/
theorem written_put (h : d.target p = .ok l) (content : List UInt8) :
    d.tree.Written l content (d.put l (.file content)).tree where
  notFolder := (target_eq_ok h).2
  file := by rw [put, Tree.get?_put _ (target_ne_nil h), if_pos rfl]
  same := fun k hk => by rw [put, Tree.get?_put _ (target_ne_nil h), if_neg hk]

theorem isAbsolute_absolutePath (d : Disk) (p : Path) : (d.absolutePath p).isAbsolute = true := by
  show ((if p.isAbsolute = true then p.anchor else .root) != .here) = true
  split
  next hp => exact hp
  next => rfl

/-- A file can be written where nothing is, and where a file is. -/
theorem target_none_or_file (hp : p.isAbsolute = true)
    (h : d.target p = .ok l) :
    d.tree.get? l = none ∨ ∃ content, d.tree.get? l = some (.file content) := by
  obtain ⟨hlocate, hfolder⟩ := target_eq_ok h
  have hstart : d.tree.Rooted (d.start p) := by
    rw [start, if_pos hp]
    exact d.tree.rooted_nil
  rw [locate] at hlocate
  cases hbad : unusable? p.text with
  | some cause =>
      rw [hbad] at hlocate
      cases hlocate
  | none =>
      rw [hbad] at hlocate
      have hlink := (Tree.walk_written (written_put h []) hstart hlocate).1
      cases hget : d.tree.get? l with
      | none => exact .inl rfl
      | some e =>
          cases e with
          | folder => exact absurd hget hfolder
          | link target => exact absurd hget (hlink target)
          | file content => exact .inr ⟨content, rfl⟩

/-- **WHAT IS WRITTEN CAN BE READ** under the same path. -/
theorem read_put (hp : p.isAbsolute = true) (h : d.target p = .ok l) (content : List UInt8) :
    (d.put l (.file content)).read p = .ok content := by
  have hlocate := (target_eq_ok h).1
  have hwritten := written_put h content
  have hstart : d.tree.Rooted (d.start p) := by
    rw [start, if_pos hp]
    exact d.tree.rooted_nil
  have hagain : (d.put l (.file content)).locate .find p = .ok l := by
    rw [locate] at hlocate ⊢
    cases hbad : unusable? p.text with
    | some cause =>
        rw [hbad] at hlocate
        cases hlocate
    | none =>
        rw [hbad] at hlocate
        exact (Tree.walk_written hwritten hstart hlocate).2
  have hlook : (d.put l (.file content)).look p = .ok (l, .file content) := by
    rw [look, hagain]
    show entryAt _ l = _
    rw [entryAt, hwritten.file]
  rw [read, hlook]

/-- What comes of writing a text: the file is not opened, it is left empty, or it holds the
    bytes of the text. -/
theorem writeText_cases (d : Disk) (p : Path) (t : Text) :
    (∃ fault, d.target p = .error fault ∧ d.writeText p t = (.error fault, d)) ∨
      ∃ l, d.target p = .ok l ∧
        ((∃ place, Utf8.unwritable? t = some place ∧
            d.writeText p t = (.error (.unwritable place), d.put l (.file []))) ∨
          (Utf8.unwritable? t = none ∧
            d.writeText p t = (.ok (), d.put l (.file (Utf8.encode t))))) := by
  rw [writeText]
  cases htarget : d.target p with
  | error fault => exact .inl ⟨fault, rfl, rfl⟩
  | ok l =>
      refine .inr ⟨l, rfl, ?_⟩
      cases hplace : Utf8.unwritable? t with
      | some place => exact .inl ⟨place, rfl, rfl⟩
      | none => exact .inr ⟨rfl, rfl⟩

theorem writeText_eq_ok {t : Text} {d' : Disk} (h : d.writeText p t = (.ok (), d')) :
    ∃ l, d.target p = .ok l ∧ d' = d.put l (.file (Utf8.encode t)) := by
  rcases d.writeText_cases p t with ⟨fault, -, hout⟩ | ⟨l, hl, ⟨place, -, hout⟩ | ⟨-, hout⟩⟩
  · exact nomatch (Prod.mk.inj (hout.symm.trans h)).1
  · exact nomatch (Prod.mk.inj (hout.symm.trans h)).1
  · exact ⟨l, hl, (Prod.mk.inj (hout.symm.trans h)).2.symm⟩

/-- Writing a text to a child of a standing folder. -/
theorem writeText_child {name : Text} (h : d.tree.Standing l) (hname : Tree.Named name)
    (hlink : ∀ target, d.tree.get? (l ++ [name]) ≠ some (.link target)) (t : Text) :
    (∃ fault, d.writeText (.absolute (l ++ [name])) t = (.error fault, d)) ∨
      d.tree.get? (l ++ [name]) ≠ some .folder ∧
        ((∃ place, Utf8.unwritable? t = some place ∧
            d.writeText (.absolute (l ++ [name])) t
              = (.error (.unwritable place), d.put (l ++ [name]) (.file []))) ∨
          d.writeText (.absolute (l ++ [name])) t
            = (.ok (), d.put (l ++ [name]) (.file (Utf8.encode t)))) := by
  rcases d.writeText_cases (.absolute (l ++ [name])) t
    with ⟨fault, -, hout⟩ | ⟨m, hm, hwritten⟩
  · exact .inl ⟨fault, hout⟩
  · obtain ⟨rfl, hfolder⟩ := target_child_eq h hname hlink hm
    rcases hwritten with ⟨place, hplace, hout⟩ | ⟨-, hout⟩
    · exact .inr ⟨hfolder, .inl ⟨place, hplace, hout⟩⟩
    · exact .inr ⟨hfolder, .inr hout⟩

end Disk

end SketchMerge
