import SketchMerge.Proofs.Files.Checking

/-! # What a walk looks at

    A walk is one course through the tree: from folder to folder, over links, up to the
    first name that ends it.  `Course` says how each name is taken, and every walk in a
    sound tree is such a course and no other (`course_reach`).  A walk depends only on the
    entries that it LOOKS AT.  So when files and links are taken out of a tree, the walk
    goes where it went, or it looks at an entry that is gone and leads nowhere
    (`Thinned.course`). -/

namespace SketchMerge

namespace Tree

variable {t t' : Tree} {n : Nat} {l m : Location} {name target : Text} {names rest : List Text}
  {r : Except Files.Cause (Location × Entry)}

/-- The entry at a location. -/
def entryAt (t : Tree) (l : Location) : Except Files.Cause (Location × Entry) :=
  match t.get? l with
  | some e => .ok (l, e)
  | none => .error .missing

/-- The entry that names lead to over at most some links. -/
def reach (t : Tree) (links : Nat) (l : Location) (names : List Text) :
    Except Files.Cause (Location × Entry) := do
  t.entryAt (← t.walk .find links l names)

/-- How names are followed from a folder over at most some links, and what it comes to. -/
inductive Course (t : Tree) :
    Nat → Location → List Text → Except Files.Cause (Location × Entry) → Prop
  | done {n : Nat} {l : Location} (hl : t.get? l = some .folder) :
      Course t n l [] (.ok (l, .folder))
  | skip {n : Nat} {l : Location} {name : Text} {rest : List Text} {r}
      (hskip : (name.isEmpty || name == Path.dot) = true) (h : Course t n l rest r) :
      Course t n l (name :: rest) r
  | up {n : Nat} {l : Location} {rest : List Text} {r} (h : Course t n l.dropLast rest r) :
      Course t n l (Path.dotDot :: rest) r
  | long {n : Nat} {l : Location} {name : Text} {rest : List Text} (hname : Named name)
      (hlong : nameTooLong name = true) : Course t n l (name :: rest) (.error .tooLong)
  | missing {n : Nat} {l : Location} {name : Text} {rest : List Text} (hname : Named name)
      (hshort : nameTooLong name = false) (hget : t.get? (l ++ [name]) = none) :
      Course t n l (name :: rest) (.error .missing)
  | file {n : Nat} {l : Location} {name : Text} {content : List UInt8} (hname : Named name)
      (hshort : nameTooLong name = false) (hget : t.get? (l ++ [name]) = some (.file content)) :
      Course t n l [name] (.ok (l ++ [name], .file content))
  | blocked {n : Nat} {l : Location} {name : Text} {rest : List Text} {content : List UInt8}
      (hname : Named name) (hshort : nameTooLong name = false)
      (hget : t.get? (l ++ [name]) = some (.file content)) (hrest : rest ≠ []) :
      Course t n l (name :: rest) (.error .notFolder)
  | folder {n : Nat} {l : Location} {name : Text} {rest : List Text} {r} (hname : Named name)
      (hshort : nameTooLong name = false) (hget : t.get? (l ++ [name]) = some .folder)
      (h : Course t n (l ++ [name]) rest r) : Course t n l (name :: rest) r
  | stuck {l : Location} {name target : Text} {rest : List Text} (hname : Named name)
      (hshort : nameTooLong name = false) (hget : t.get? (l ++ [name]) = some (.link target)) :
      Course t 0 l (name :: rest) (.error .tooManyLinks)
  | link {n : Nat} {l : Location} {name target : Text} {rest : List Text} {r} (hname : Named name)
      (hshort : nameTooLong name = false) (hget : t.get? (l ++ [name]) = some (.link target))
      (h : Course t n (linkStart l target) (Path.steps target ++ rest) r) :
      Course t (n + 1) l (name :: rest) r

-- ── Walks are courses ───────────────────────────────────────────────────────

/-- Goes on behind a link if one more may be followed. -/
def walkLink (t : Tree) : Nat → Location → List Text → Except Files.Cause Location
  | 0, _, _ => .error .tooManyLinks
  | n + 1, l, names => t.walk .find n l names

theorem walk_eq (t : Tree) (n : Nat) : t.walk .find n = t.walkWith .find (t.walkLink n) := by
  cases n with
  | zero => rfl
  | succ n => rfl

theorem walk_long (hname : Named name) (hlong : nameTooLong name = true) :
    t.walk .find n l (name :: rest) = .error .tooLong := by
  rw [walk_eq, walkWith_named hname, if_neg (by exact Bool.false_ne_true), if_pos hlong]

theorem walk_named (hname : Named name) (hshort : nameTooLong name = false) :
    t.walk .find n l (name :: rest) =
      match t.get? (l ++ [name]) with
      | none => if rest.isEmpty then .ok (l ++ [name]) else .error .missing
      | some .folder => t.walk .find n (l ++ [name]) rest
      | some (.file _) => if rest.isEmpty then .ok (l ++ [name]) else .error .notFolder
      | some (.link target) => t.walkLink n (linkStart l target) (Path.steps target ++ rest) := by
  have hshort : ¬ nameTooLong name = true := by rw [hshort]; exact Bool.false_ne_true
  have hfind : ¬ (Purpose.find == .write && rest == [[]]) = true := Bool.false_ne_true
  rw [walk_eq]
  exact (walkWith_named hname l rest).trans ((if_neg hfind).trans (if_neg hshort))

/-- A course comes to what the walk comes to. -/
theorem Course.reach_eq (h : Course t n l names r) : t.reach n l names = r := by
  induction h with
  | @done n l hl =>
      rw [reach, walk_eq]
      show t.entryAt l = _
      rw [entryAt, hl]
  | skip hskip _ ih => rw [← ih, reach, reach, walk_eq, walkWith_skip hskip]
  | up _ ih => rw [← ih, reach, reach, walk_eq, walkWith_up]
  | long hname hlong =>
      rw [reach, walk_long hname hlong]
      rfl
  | @missing n l name rest hname hshort hget =>
      rw [reach, walk_named hname hshort, hget]
      cases rest with
      | nil =>
          show t.entryAt (l ++ [name]) = _
          rw [entryAt, hget]
      | cons => rfl
  | @file n l name content hname hshort hget =>
      rw [reach, walk_named hname hshort, hget]
      show t.entryAt (l ++ [name]) = _
      rw [entryAt, hget]
  | blocked hname hshort hget hrest =>
      rw [reach, walk_named hname hshort, hget]
      dsimp only
      rw [if_neg fun hnil => hrest (List.isEmpty_iff.mp hnil)]
      rfl
  | folder hname hshort hget _ ih => rw [← ih, reach, reach, walk_named hname hshort, hget]
  | stuck hname hshort hget =>
      rw [reach, walk_named hname hshort, hget]
      rfl
  | link hname hshort hget _ ih =>
      rw [← ih, reach, reach, walk_named hname hshort, hget]
      rfl

theorem Course.determinate {r' : Except Files.Cause (Location × Entry)}
    (h : Course t n l names r) (h' : Course t n l names r') : r = r' :=
  h.reach_eq.symm.trans h'.reach_eq

theorem Sound.dropLast (ht : t.Sound) (hl : t.get? l = some .folder) :
    t.get? l.dropLast = some .folder :=
  (ht.standing hl).folders _ (List.dropLast_prefix l)

theorem get?_linkStart (hl : t.get? l = some .folder) (target : Text) :
    t.get? (linkStart l target) = some .folder := by
  rw [linkStart]
  split
  · exact hl
  · rfl

/-- A name is taken one way or another, if the names after it are. -/
theorem exists_course_cons (ht : t.Sound) (hl : t.get? l = some .folder) (name : Text)
    (hrest : ∀ m, t.get? m = some .folder → ∃ r, Course t n m rest r)
    (hlink : ∀ k target, n = k + 1 →
      ∃ r, Course t k (linkStart l target) (Path.steps target ++ rest) r) :
    ∃ r, Course t n l (name :: rest) r := by
  rcases name_cases name with hskip | rfl | hname
  · obtain ⟨r, hr⟩ := hrest l hl
    exact ⟨r, .skip hskip hr⟩
  · obtain ⟨r, hr⟩ := hrest _ (ht.dropLast hl)
    exact ⟨r, .up hr⟩
  · cases hlong : nameTooLong name with
    | true => exact ⟨_, .long hname hlong⟩
    | false =>
        cases hget : t.get? (l ++ [name]) with
        | none => exact ⟨_, .missing hname hlong hget⟩
        | some e =>
            cases e with
            | folder =>
                obtain ⟨r, hr⟩ := hrest _ hget
                exact ⟨r, .folder hname hlong hget hr⟩
            | file content =>
                cases rest with
                | nil => exact ⟨_, .file hname hlong hget⟩
                | cons => exact ⟨_, .blocked hname hlong hget (List.cons_ne_nil _ _)⟩
            | link target =>
                cases n with
                | zero => exact ⟨_, .stuck hname hlong hget⟩
                | succ n =>
                    obtain ⟨r, hr⟩ := hlink n target rfl
                    exact ⟨r, .link hname hlong hget hr⟩

/-- **EVERY WALK IS A COURSE.** -/
theorem course_reach (ht : t.Sound) (n : Nat) (hl : t.get? l = some .folder)
    (names : List Text) : Course t n l names (t.reach n l names) := by
  have hexists : ∃ r, Course t n l names r := by
    -- a link may put more names in front, so the links count first
    induction n using Nat.strongRecOn generalizing l names with
    | ind n ihLinks =>
        induction names generalizing l with
        | nil => exact ⟨_, .done hl⟩
        | cons name rest ih =>
            refine exists_course_cons ht hl name (fun m hm => ih hm) fun k target hk => ?_
            exact ihLinks k (by omega) (get?_linkStart hl target) _
  obtain ⟨r, hr⟩ := hexists
  rw [hr.reach_eq]
  exact hr

-- ── What is looked at ───────────────────────────────────────────────────────

/-- The walk looks at a location on its way. -/
inductive Passes (t : Tree) : Nat → Location → List Text → Location → Prop
  | skip {n : Nat} {l k : Location} {name : Text} {rest : List Text}
      (hskip : (name.isEmpty || name == Path.dot) = true) (h : Passes t n l rest k) :
      Passes t n l (name :: rest) k
  | up {n : Nat} {l k : Location} {rest : List Text} (h : Passes t n l.dropLast rest k) :
      Passes t n l (Path.dotDot :: rest) k
  | here {n : Nat} {l : Location} {name : Text} {rest : List Text} (hname : Named name)
      (hshort : nameTooLong name = false) : Passes t n l (name :: rest) (l ++ [name])
  | folder {n : Nat} {l k : Location} {name : Text} {rest : List Text} (hname : Named name)
      (hshort : nameTooLong name = false) (hget : t.get? (l ++ [name]) = some .folder)
      (h : Passes t n (l ++ [name]) rest k) : Passes t n l (name :: rest) k
  | link {n : Nat} {l k : Location} {name target : Text} {rest : List Text} (hname : Named name)
      (hshort : nameTooLong name = false) (hget : t.get? (l ++ [name]) = some (.link target))
      (h : Passes t n (linkStart l target) (Path.steps target ++ rest) k) :
      Passes t (n + 1) l (name :: rest) k

namespace Passes

variable {k : Location}

theorem of_skip (hskip : (name.isEmpty || name == Path.dot) = true)
    (h : Passes t n l (name :: rest) k) : Passes t n l rest k := by
  cases h with
  | skip _ h => exact h
  | up => exact absurd hskip (by decide)
  | here hname => exact absurd hskip hname.not_skipped
  | folder hname => exact absurd hskip hname.not_skipped
  | link hname => exact absurd hskip hname.not_skipped

theorem of_up (h : Passes t n l (Path.dotDot :: rest) k) : Passes t n l.dropLast rest k := by
  cases h with
  | skip hskip => exact absurd hskip (by decide)
  | up h => exact h
  | here hname => exact absurd rfl hname.notDotDot
  | folder hname => exact absurd rfl hname.notDotDot
  | link hname => exact absurd rfl hname.notDotDot

/-- From a name on, the walk looks at the entry of that name, and then at what it looks at in
    the folder that this is, or behind the link. -/
theorem of_named (hname : Named name) (h : Passes t n l (name :: rest) k) :
    nameTooLong name = false ∧ (k = l ++ [name] ∨
      (t.get? (l ++ [name]) = some .folder ∧ Passes t n (l ++ [name]) rest k) ∨
      ∃ n' target, n = n' + 1 ∧ t.get? (l ++ [name]) = some (.link target) ∧
        Passes t n' (linkStart l target) (Path.steps target ++ rest) k) := by
  cases h with
  | skip hskip => exact absurd hskip hname.not_skipped
  | up => exact absurd rfl hname.notDotDot
  | here _ hshort => exact ⟨hshort, .inl rfl⟩
  | folder _ hshort hget h => exact ⟨hshort, .inr (.inl ⟨hget, h⟩)⟩
  | link _ hshort hget h => exact ⟨hshort, .inr (.inr ⟨_, _, rfl, hget, h⟩)⟩

theorem congr (hget : t.get? = t'.get?) (h : Passes t n l names k) : Passes t' n l names k := by
  induction h with
  | skip hskip _ ih => exact .skip hskip ih
  | up _ ih => exact .up ih
  | here hname hshort => exact .here hname hshort
  | folder hname hshort hfolder _ ih => exact .folder hname hshort (hget ▸ hfolder) ih
  | link hname hshort hlink _ ih => exact .link hname hshort (hget ▸ hlink) ih

/-- A walk that goes no further than an entry looks at nothing else. -/
theorem of_last (hname : Named name) (hfolder : t.get? (l ++ [name]) ≠ some .folder)
    (hlink : n ≠ 0 → ∀ target, t.get? (l ++ [name]) ≠ some (.link target))
    (h : Passes t n l (name :: rest) k) : k = l ++ [name] := by
  rcases (h.of_named hname).2 with rfl | ⟨hget, -⟩ | ⟨n', target, rfl, hget, -⟩
  · rfl
  · exact absurd hget hfolder
  · exact absurd hget (hlink (Nat.succ_ne_zero n') target)

end Passes

/-- The tree without some of its files and links. -/
structure Thinned (t t' : Tree) : Prop where
  kept : ∀ k, t'.get? k = t.get? k ∨ t'.get? k = none
  folders : ∀ k, t.get? k = some .folder → t'.get? k = some .folder

/-- A walk in a tree without some files and links looks at the same and comes to the same, or
    it looks at what is gone and finds nothing. -/
theorem Thinned.course (hthin : t.Thinned t') (h : Course t n l names r) :
    (Course t' n l names r ∧ ∀ k, Passes t n l names k → t'.get? k = t.get? k) ∨
      (Course t' n l names (.error .missing) ∧
        ∃ k, Passes t n l names k ∧ t'.get? k = none ∧ (t.get? k).isSome) := by
  induction h with
  | done hl => exact .inl ⟨.done (hthin.folders _ hl), fun k hk => nomatch hk⟩
  | skip hskip _ ih =>
      rcases ih with ⟨hcourse, hsame⟩ | ⟨hcourse, k, hk, hgone⟩
      · exact .inl ⟨.skip hskip hcourse, fun k hk => hsame k (hk.of_skip hskip)⟩
      · exact .inr ⟨.skip hskip hcourse, k, .skip hskip hk, hgone⟩
  | up _ ih =>
      rcases ih with ⟨hcourse, hsame⟩ | ⟨hcourse, k, hk, hgone⟩
      · exact .inl ⟨.up hcourse, fun k hk => hsame k hk.of_up⟩
      · exact .inr ⟨.up hcourse, k, .up hk, hgone⟩
  | long hname hlong =>
      refine .inl ⟨.long hname hlong, fun k hk => ?_⟩
      exact nomatch hlong.symm.trans (hk.of_named hname).1
  | missing hname hshort hget =>
      have hnone := (hthin.kept _).elim (·.trans hget) id
      refine .inl ⟨.missing hname hshort hnone, fun k hk => ?_⟩
      rw [hk.of_last hname (by rw [hget]; exact (nomatch ·)) fun _ _ => by
        rw [hget]; exact (nomatch ·), hget, hnone]
  | file hname hshort hget =>
      rcases hthin.kept (_ ++ [_]) with hkept | hgone
      · refine .inl ⟨.file hname hshort (hkept.trans hget), fun k hk => ?_⟩
        rw [hk.of_last hname (by rw [hget]; exact (nomatch ·)) fun _ _ => by
          rw [hget]; exact (nomatch ·), hkept]
      · exact .inr ⟨.missing hname hshort hgone, _, .here hname hshort, hgone, by rw [hget]; rfl⟩
  | blocked hname hshort hget hrest =>
      rcases hthin.kept (_ ++ [_]) with hkept | hgone
      · refine .inl ⟨.blocked hname hshort (hkept.trans hget) hrest, fun k hk => ?_⟩
        rw [hk.of_last hname (by rw [hget]; exact (nomatch ·)) fun _ _ => by
          rw [hget]; exact (nomatch ·), hkept]
      · exact .inr ⟨.missing hname hshort hgone, _, .here hname hshort, hgone, by rw [hget]; rfl⟩
  | folder hname hshort hget _ ih =>
      have hget' := hthin.folders _ hget
      rcases ih with ⟨hcourse, hsame⟩ | ⟨hcourse, k, hk, hgone⟩
      · refine .inl ⟨.folder hname hshort hget' hcourse, fun k hk => ?_⟩
        rcases (hk.of_named hname).2 with rfl | ⟨-, hk⟩ | ⟨_, _, -, hlink, -⟩
        · rw [hget, hget']
        · exact hsame k hk
        · exact nomatch hget.symm.trans hlink
      · exact .inr ⟨.folder hname hshort hget' hcourse, k, .folder hname hshort hget hk, hgone⟩
  | stuck hname hshort hget =>
      rcases hthin.kept (_ ++ [_]) with hkept | hgone
      · refine .inl ⟨.stuck hname hshort (hkept.trans hget), fun k hk => ?_⟩
        rw [hk.of_last hname (by rw [hget]; exact (nomatch ·)) fun hne => absurd rfl hne, hkept]
      · exact .inr ⟨.missing hname hshort hgone, _, .here hname hshort, hgone, by rw [hget]; rfl⟩
  | link hname hshort hget _ ih =>
      rcases hthin.kept (_ ++ [_]) with hkept | hgone
      · rcases ih with ⟨hcourse, hsame⟩ | ⟨hcourse, k, hk, hgone⟩
        · refine .inl ⟨.link hname hshort (hkept.trans hget) hcourse, fun k hk => ?_⟩
          rcases (hk.of_named hname).2 with rfl | ⟨hfolder, -⟩ | ⟨n', target', hn, hlink, hk⟩
          · exact hkept
          · exact nomatch hget.symm.trans hfolder
          · obtain rfl := Nat.succ.inj hn
            obtain rfl := Entry.link.inj (Option.some.inj (hget.symm.trans hlink))
            exact hsame k hk
        · exact .inr ⟨.link hname hshort (hkept.trans hget) hcourse, k,
            .link hname hshort hget hk, hgone⟩
      · exact .inr ⟨.missing hname hshort hgone, _, .here hname hshort, hgone, by rw [hget]; rfl⟩

-- ── Walks that go on ────────────────────────────────────────────────────────

/-- A walk that looks at an entry has come to its name, and goes where that name and the rest
    lead. -/
theorem Passes.exists_rest {k : Location} (h : Passes t n l names k) :
    ∃ n' m name rest, k = m ++ [name] ∧
      ∀ r, Course t n' m (name :: rest) r → Course t n l names r := by
  induction h with
  | skip hskip _ ih =>
      obtain ⟨n', m, name, rest, hk, hgo⟩ := ih
      exact ⟨n', m, name, rest, hk, fun r hr => .skip hskip (hgo r hr)⟩
  | up _ ih =>
      obtain ⟨n', m, name, rest, hk, hgo⟩ := ih
      exact ⟨n', m, name, rest, hk, fun r hr => .up (hgo r hr)⟩
  | here => exact ⟨_, _, _, _, rfl, fun r hr => hr⟩
  | folder hname hshort hget _ ih =>
      obtain ⟨n', m, name, rest, hk, hgo⟩ := ih
      exact ⟨n', m, name, rest, hk, fun r hr => .folder hname hshort hget (hgo r hr)⟩
  | link hname hshort hget _ ih =>
      obtain ⟨n', m, name, rest, hk, hgo⟩ := ih
      exact ⟨n', m, name, rest, hk, fun r hr => .link hname hshort hget (hgo r hr)⟩

/-- A walk to a folder goes on from there. -/
theorem Course.go_on (h : Course t n l names (.ok (m, .folder))) :
    t.get? m = some .folder ∧
      ∃ n', ∀ more r, Course t n' m more r → Course t n l (names ++ more) r := by
  generalize hr : (.ok (m, .folder) : Except Files.Cause (Location × Entry)) = r at h
  induction h with
  | done hl =>
      obtain ⟨rfl, -⟩ := Prod.mk.inj (Except.ok.inj hr)
      exact ⟨hl, _, fun more r hmore => hmore⟩
  | skip hskip _ ih =>
      obtain ⟨hm, n', hgo⟩ := ih hr
      exact ⟨hm, n', fun more r hmore => .skip hskip (hgo more r hmore)⟩
  | up _ ih =>
      obtain ⟨hm, n', hgo⟩ := ih hr
      exact ⟨hm, n', fun more r hmore => .up (hgo more r hmore)⟩
  | long => exact nomatch hr
  | missing => exact nomatch hr
  | file => exact nomatch (Prod.mk.inj (Except.ok.inj hr)).2
  | blocked => exact nomatch hr
  | folder hname hshort hget _ ih =>
      obtain ⟨hm, n', hgo⟩ := ih hr
      exact ⟨hm, n', fun more r hmore => .folder hname hshort hget (hgo more r hmore)⟩
  | stuck => exact nomatch hr
  | link hname hshort hget _ ih =>
      obtain ⟨hm, n', hgo⟩ := ih hr
      refine ⟨hm, n', fun more r hmore => .link hname hshort hget ?_⟩
      have hall := hgo more r hmore
      rw [List.append_assoc] at hall
      exact hall

/-- The walk ends at a file, if it is not out of links before. -/
inductive EndsAtFile : Except Files.Cause (Location × Entry) → Prop
  | file (m : Location) (content : List UInt8) : EndsAtFile (.ok (m, .file content))
  | blocked : EndsAtFile (.error .notFolder)
  | stuck : EndsAtFile (.error .tooManyLinks)

/-- **NOTHING IS BEHIND A FILE**: names that lead to a file lead no further, whatever comes
    after them and however many links are left. -/
theorem Course.ends {content : List UInt8} (h : Course t n l names (.ok (m, .file content)))
    (n' : Nat) (more : List Text) : ∃ r, Course t n' l (names ++ more) r ∧ EndsAtFile r := by
  generalize hr : (.ok (m, .file content) : Except Files.Cause (Location × Entry)) = r at h
  induction h generalizing n' with
  | done => exact nomatch (Prod.mk.inj (Except.ok.inj hr)).2
  | skip hskip _ ih =>
      obtain ⟨r, hcourse, hend⟩ := ih n' hr
      exact ⟨r, .skip hskip hcourse, hend⟩
  | up _ ih =>
      obtain ⟨r, hcourse, hend⟩ := ih n' hr
      exact ⟨r, .up hcourse, hend⟩
  | long => exact nomatch hr
  | missing => exact nomatch hr
  | file hname hshort hget =>
      cases more with
      | nil => exact ⟨_, .file hname hshort hget, .file _ _⟩
      | cons => exact ⟨_, .blocked hname hshort hget (List.cons_ne_nil _ _), .blocked⟩
  | blocked => exact nomatch hr
  | folder hname hshort hget _ ih =>
      obtain ⟨r, hcourse, hend⟩ := ih n' hr
      exact ⟨r, .folder hname hshort hget hcourse, hend⟩
  | stuck => exact nomatch hr
  | link hname hshort hget _ ih =>
      cases n' with
      | zero => exact ⟨_, .stuck hname hshort hget, .stuck⟩
      | succ n' =>
          obtain ⟨r, hcourse, hend⟩ := ih n' hr
          rw [List.append_assoc] at hcourse
          exact ⟨r, .link hname hshort hget hcourse, hend⟩

end Tree

-- ── Paths ───────────────────────────────────────────────────────────────────

namespace Disk

variable {d d' : Disk} {p folder : Path} {l m : Location} {name : Text} {content : List UInt8}

/-- Whoever follows the path looks at a location on the way. -/
def Passes (d : Disk) (p : Path) (k : Location) : Prop :=
  unusable? p.text = none ∧ d.tree.Passes Tree.mostLinks (d.start p) p.parts k

theorem look_unusable {cause : Files.Cause} (h : unusable? p.text = some cause) :
    d.look p = .error cause := by
  rw [look, locate, h]
  rfl

theorem look_usable (h : unusable? p.text = none) :
    d.look p = d.tree.reach Tree.mostLinks (d.start p) p.parts := by
  rw [look, locate, h]
  rfl

theorem usable_of_look {x : Location × Entry} (h : d.look p = .ok x) :
    unusable? p.text = none := by
  cases hbad : unusable? p.text with
  | none => rfl
  | some cause => exact nomatch (look_unusable hbad).symm.trans h

theorem look_of_course {r : Except Files.Cause (Location × Entry)} (h : unusable? p.text = none)
    (hcourse : d.tree.Course Tree.mostLinks (d.start p) p.parts r) : d.look p = r :=
  (look_usable h).trans hcourse.reach_eq

theorem Sound.start (hd : d.Sound) (p : Path) : d.tree.get? (d.start p) = some .folder := by
  rw [Disk.start]
  split
  · rfl
  · exact hd.here

theorem course_look (hd : d.Sound) (h : unusable? p.text = none) :
    d.tree.Course Tree.mostLinks (d.start p) p.parts (d.look p) := by
  rw [look_usable h]
  exact Tree.course_reach hd.tree Tree.mostLinks (hd.start p) p.parts

/-- A path leads where it led in a tree without some files and links, or nowhere if what is
    gone was on its way. -/
theorem look_thinned (hd : d.Sound) (hthin : d.tree.Thinned d'.tree) (hhere : d'.here = d.here)
    (p : Path) :
    (d'.look p = d.look p ∧ ∀ k, d.Passes p k → d'.tree.get? k = d.tree.get? k) ∨
      (d'.look p = .error .missing ∧
        ∃ k, d.Passes p k ∧ d'.tree.get? k = none ∧ (d.tree.get? k).isSome) := by
  cases hbad : unusable? p.text with
  | some cause =>
      refine .inl ⟨(look_unusable hbad).trans (look_unusable hbad).symm, fun k hk => ?_⟩
      exact nomatch hbad.symm.trans hk.1
  | none =>
      have hstart : d'.start p = d.start p := by rw [start, start, hhere]
      rcases hthin.course (course_look hd hbad) with ⟨hcourse, hsame⟩ | ⟨hcourse, k, hk, hgone⟩
      · rw [← hstart] at hcourse
        exact .inl ⟨look_of_course hbad hcourse, fun k hk => hsame k hk.2⟩
      · rw [← hstart] at hcourse
        exact .inr ⟨look_of_course hbad hcourse, k, ⟨hbad, hk⟩, hgone⟩

-- ── The children of a folder ────────────────────────────────────────────────

/-- To look at the child of a folder, whatever path leads there, is to follow its name from
    the folder. -/
theorem course_child (hd : d.Sound) (hfolder : d.look folder = .ok (l, .folder)) :
    ∃ n, ∀ name, Tree.Plain name → unusable? (folder.child name).text = none →
      d.tree.Course n l [name] (d.look (folder.child name)) := by
  have hcourse := course_look hd (usable_of_look hfolder)
  rw [hfolder] at hcourse
  obtain ⟨hl, n, hgo⟩ := hcourse.go_on
  refine ⟨n, fun name hname husable => ?_⟩
  have hchild := Tree.course_reach hd.tree n hl [name]
  have hlook : d.look (folder.child name) = d.tree.reach n l [name] := by
    refine look_of_course husable ?_
    rw [Path.child_plain folder hname]
    exact hgo _ _ hchild
  rw [hlook]
  exact hchild

/-- A child that leads to a file is a file or a link. -/
theorem entry_of_file (hd : d.Sound) (hfolder : d.look folder = .ok (l, .folder))
    (hname : Tree.Plain name) (hfile : d.look (folder.child name) = .ok (m, .file content)) :
    ∃ e, d.tree.get? (l ++ [name]) = some e ∧ e ≠ .folder := by
  obtain ⟨n, hcourse⟩ := course_child hd hfolder
  have hchild := hcourse name hname (usable_of_look hfile)
  rw [hfile] at hchild
  cases hchild with
  | skip hskip => exact absurd hskip hname.not_skipped
  | up => exact absurd rfl hname.notDotDot
  | file _ _ hget => exact ⟨_, hget, fun h => nomatch h⟩
  | folder _ _ _ h => cases h
  | link _ _ hget => exact ⟨_, hget, fun h => nomatch h⟩

/-- A path that passes a child which leads to a file leads no further. -/
theorem ends_of_passes (hd : d.Sound) (hfolder : d.look folder = .ok (l, .folder))
    (hname : Tree.Plain name) (hfile : d.look (folder.child name) = .ok (m, .file content))
    (hp : d.Passes p (l ++ [name])) : Tree.EndsAtFile (d.look p) := by
  obtain ⟨n, hcourse⟩ := course_child hd hfolder
  have hchild := hcourse name hname (usable_of_look hfile)
  rw [hfile] at hchild
  obtain ⟨n', m', name', rest, heq, hgo⟩ := hp.2.exists_rest
  obtain ⟨rfl, hlast⟩ := List.append_inj' heq rfl
  obtain ⟨rfl, -⟩ := List.cons.inj hlast
  obtain ⟨r, hr, hend⟩ := hchild.ends n' rest
  rw [look_of_course hp.1 (hgo r hr)]
  exact hend

end Disk

end SketchMerge
