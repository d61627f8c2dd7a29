import SketchMerge.Files.Walk
import SketchMerge.Proofs.Files.Views

/-! # Where names lead

    `Follows t l names n m` says that the names lead from `l` to `m` over `n`
    links, as a relation that knows nothing of limits.  A walk that comes to an end
    gives such a derivation (`walk_follows`), and the derivation is DETERMINATE:
    names lead from a location to one place only, over one number of links.  So
    no link can be met again while it is being followed, for then it would cost
    more than itself. -/

namespace SketchMerge.Tree

/-- The name says where to go: it is neither empty nor made of dots. -/
structure Named (name : Text) : Prop where
  notEmpty : name ≠ []
  notDot : name ≠ Path.dot
  notDotDot : name ≠ Path.dotDot

theorem Named.not_skipped {name : Text} (h : Named name) :
    ¬ (name.isEmpty || name == Path.dot) = true := by
  rw [Bool.or_eq_true, List.isEmpty_iff, beq_iff_eq]
  exact not_or.mpr ⟨h.notEmpty, h.notDot⟩

theorem Named.not_up {name : Text} (h : Named name) : ¬ (name == Path.dotDot) = true :=
  fun hup => h.notDotDot (beq_iff_eq.mp hup)

/-- A name is passed over, leads up, or says where to go. -/
theorem name_cases (name : Text) :
    (name.isEmpty || name == Path.dot) = true ∨ name = Path.dotDot ∨ Named name := by
  by_cases hskip : (name.isEmpty || name == Path.dot) = true
  · exact .inl hskip
  · by_cases hup : name = Path.dotDot
    · exact .inr (.inl hup)
    · rw [Bool.or_eq_true, List.isEmpty_iff, beq_iff_eq, not_or] at hskip
      exact .inr (.inr ⟨hskip.1, hskip.2, hup⟩)

/-- The names lead from one location to another over a number of links. -/
inductive Follows (t : Tree) : Location → List Text → Nat → Location → Prop
  | done (l : Location) : Follows t l [] 0 l
  | stay {l m : Location} {name : Text} {rest : List Text} {n : Nat}
      (hskip : (name.isEmpty || name == Path.dot) = true) (hrest : Follows t l rest n m) :
      Follows t l (name :: rest) n m
  | up {l m : Location} {rest : List Text} {n : Nat} (hrest : Follows t l.dropLast rest n m) :
      Follows t l (Path.dotDot :: rest) n m
  /-- Only the last name may be that of a file or of nothing at all. -/
  | last {l : Location} {name : Text} (hname : Named name)
      (hfolder : t.get? (l ++ [name]) ≠ some .folder)
      (hlink : ∀ target, t.get? (l ++ [name]) ≠ some (.link target)) :
      Follows t l [name] 0 (l ++ [name])
  | folder {l m : Location} {name : Text} {rest : List Text} {n : Nat} (hname : Named name)
      (hget : t.get? (l ++ [name]) = some .folder) (hrest : Follows t (l ++ [name]) rest n m) :
      Follows t l (name :: rest) n m
  | link {l k m : Location} {name target : Text} {rest : List Text} {a b : Nat}
      (hname : Named name) (hget : t.get? (l ++ [name]) = some (.link target))
      (htarget : Follows t (linkStart l target) (Path.steps target) a k)
      (hrest : Follows t k rest b m) :
      Follows t l (name :: rest) (a + b + 1) m

variable {t : Tree}

/-- Names put together lead on from where the first of them lead. -/
theorem Follows.split {l m : Location} {names rest : List Text} {n : Nat}
    (h : Follows t l (names ++ rest) n m) :
    ∃ a b k, Follows t l names a k ∧ Follows t k rest b m ∧ a + b = n := by
  induction names generalizing l n with
  | nil => exact ⟨0, n, l, .done l, h, Nat.zero_add n⟩
  | cons name names ih =>
      -- the head decides which rule is at work, and it acts on the tail
      generalize hall : (name :: names) ++ rest = all at h
      cases h with
      | done => exact nomatch hall
      | stay hskip hrest =>
          obtain ⟨rfl, rfl⟩ := List.cons.inj hall
          obtain ⟨a, b, k, hnames, hrest, hsum⟩ := ih hrest
          exact ⟨a, b, k, .stay hskip hnames, hrest, hsum⟩
      | up hrest =>
          obtain ⟨rfl, rfl⟩ := List.cons.inj hall
          obtain ⟨a, b, k, hnames, hrest, hsum⟩ := ih hrest
          exact ⟨a, b, k, .up hnames, hrest, hsum⟩
      | last hname hfolder hlink =>
          obtain ⟨rfl, hnil⟩ := List.cons.inj hall
          obtain ⟨rfl, rfl⟩ := List.append_eq_nil_iff.mp hnil
          exact ⟨0, 0, _, .last hname hfolder hlink, .done _, rfl⟩
      | folder hname hget hrest =>
          obtain ⟨rfl, rfl⟩ := List.cons.inj hall
          obtain ⟨a, b, k, hnames, hrest, hsum⟩ := ih hrest
          exact ⟨a, b, k, .folder hname hget hnames, hrest, hsum⟩
      | link hname hget htarget hrest =>
          obtain ⟨rfl, rfl⟩ := List.cons.inj hall
          obtain ⟨a, b, k, hnames, hrest, hsum⟩ := ih hrest
          exact ⟨_, b, k, .link hname hget htarget hnames, hrest, by omega⟩

/-- **NAMES LEAD TO ONE PLACE**, over one number of links. -/
theorem Follows.determinate {l m m' : Location} {names : List Text} {n n' : Nat}
    (h : Follows t l names n m) (h' : Follows t l names n' m') : n = n' ∧ m = m' := by
  induction h generalizing n' m' with
  | done l =>
      cases h' with
      | done => exact ⟨rfl, rfl⟩
  | stay hskip _ ih =>
      cases h' with
      | stay _ hrest' => exact ih hrest'
      | up => exact absurd hskip (by decide)
      | last hname => exact absurd hskip hname.not_skipped
      | folder hname => exact absurd hskip hname.not_skipped
      | link hname => exact absurd hskip hname.not_skipped
  | up _ ih =>
      cases h' with
      | stay hskip => exact absurd hskip (by decide)
      | up hrest' => exact ih hrest'
      | last hname => exact absurd rfl hname.notDotDot
      | folder hname => exact absurd rfl hname.notDotDot
      | link hname => exact absurd rfl hname.notDotDot
  | last hname hfolder hlink =>
      cases h' with
      | stay hskip => exact absurd hskip hname.not_skipped
      | up => exact absurd rfl hname.notDotDot
      | last => exact ⟨rfl, rfl⟩
      | folder _ hget' => exact absurd hget' hfolder
      | link _ hget' => exact absurd hget' (hlink _)
  | folder hname hget _ ih =>
      cases h' with
      | stay hskip => exact absurd hskip hname.not_skipped
      | up => exact absurd rfl hname.notDotDot
      | last _ hfolder' => exact absurd hget hfolder'
      | folder _ _ hrest' => exact ih hrest'
      | link _ hget' => exact nomatch hget.symm.trans hget'
  | link hname hget _ _ ihTarget ihRest =>
      cases h' with
      | stay hskip => exact absurd hskip hname.not_skipped
      | up => exact absurd rfl hname.notDotDot
      | last _ _ hlink' => exact absurd hget (hlink' _)
      | folder _ hget' => exact nomatch hget.symm.trans hget'
      | link _ hget' htarget' hrest' =>
          obtain rfl := Entry.link.inj (Option.some.inj (hget.symm.trans hget'))
          obtain ⟨rfl, rfl⟩ := ihTarget htarget'
          obtain ⟨rfl, rfl⟩ := ihRest hrest'
          exact ⟨rfl, rfl⟩

-- ── Strict walks ────────────────────────────────────────────────────────────

section

variable {purpose : Purpose} {enter : Location → List Text → Except Files.Cause Location}

theorem walkWith_skip {name : Text} (hskip : (name.isEmpty || name == Path.dot) = true)
    (l : Location) (rest : List Text) :
    t.walkWith purpose enter l (name :: rest) = t.walkWith purpose enter l rest := by
  rw [walkWith, if_pos hskip]

theorem walkWith_up (l : Location) (rest : List Text) :
    t.walkWith purpose enter l (Path.dotDot :: rest)
      = t.walkWith purpose enter l.dropLast rest := by
  rw [walkWith, if_neg (by decide), if_pos (beq_self_eq_true _)]

theorem walkWith_named {name : Text} (hname : Named name) (l : Location) (rest : List Text) :
    t.walkWith purpose enter l (name :: rest) =
      if purpose == .write && rest == [[]] then .error .isFolder
      else if nameTooLong name then .error .tooLong
      else
        match t.get? (l ++ [name]) with
        | none => if rest.isEmpty then .ok (l ++ [name]) else .error .missing
        | some .folder => t.walkWith purpose enter (l ++ [name]) rest
        | some (.file _) => if rest.isEmpty then .ok (l ++ [name]) else .error .notFolder
        | some (.link target) => enter (linkStart l target) (Path.steps target ++ rest) :=
  (if_neg hname.not_skipped).trans (if_neg hname.not_up)

/-- A walk that comes to an end shows where the names lead, if the walks behind its links do. -/
theorem walkWith_follows {links : Nat}
    (henter : ∀ l names m, enter l names = .ok m → ∃ n, n < links ∧ Follows t l names n m)
    {l m : Location} {names : List Text} (h : t.walkWith purpose enter l names = .ok m) :
    ∃ n, n ≤ links ∧ Follows t l names n m := by
  induction names generalizing l with
  | nil =>
      obtain rfl := Except.ok.inj h
      exact ⟨0, Nat.zero_le _, .done l⟩
  | cons name rest ih =>
      rcases name_cases name with hskip | rfl | hname
      · rw [walkWith_skip hskip] at h
        obtain ⟨n, hn, hrest⟩ := ih h
        exact ⟨n, hn, .stay hskip hrest⟩
      · rw [walkWith_up] at h
        obtain ⟨n, hn, hrest⟩ := ih h
        exact ⟨n, hn, .up hrest⟩
      · rw [walkWith_named hname] at h
        by_cases hwrite : (purpose == .write && rest == [[]]) = true
        · rw [if_pos hwrite] at h
          exact nomatch h
        rw [if_neg hwrite] at h
        by_cases hlong : nameTooLong name = true
        · rw [if_pos hlong] at h
          exact nomatch h
        rw [if_neg hlong] at h
        cases hget : t.get? (l ++ [name]) with
        | none =>
            rw [hget] at h
            dsimp only at h
            cases rest with
            | nil =>
                obtain rfl := Except.ok.inj h
                exact ⟨0, Nat.zero_le _, .last hname (by rw [hget]; exact (nomatch ·))
                  fun _ => by rw [hget]; exact (nomatch ·)⟩
            | cons => exact nomatch h
        | some e =>
            rw [hget] at h
            cases e with
            | folder =>
                obtain ⟨n, hn, hrest⟩ := ih h
                exact ⟨n, hn, .folder hname hget hrest⟩
            | file content =>
                dsimp only at h
                cases rest with
                | nil =>
                    obtain rfl := Except.ok.inj h
                    exact ⟨0, Nat.zero_le _, .last hname (by rw [hget]; exact (nomatch ·))
                      fun _ => by rw [hget]; exact (nomatch ·)⟩
                | cons => exact nomatch h
            | link target =>
                obtain ⟨n, hn, hboth⟩ := henter _ _ _ h
                obtain ⟨a, b, k, htarget, hrest, rfl⟩ := hboth.split
                exact ⟨a + b + 1, hn, .link hname hget htarget hrest⟩

/-- **WALKS FOLLOW NAMES.** -/
theorem walk_follows {links : Nat} {l m : Location} {names : List Text}
    (h : t.walk purpose links l names = .ok m) : ∃ n, Follows t l names n m := by
  have hbounded : ∀ links l names m, t.walk purpose links l names = .ok m →
      ∃ n, n ≤ links ∧ Follows t l names n m := by
    intro links
    induction links with
    | zero =>
        intro l names m h
        exact walkWith_follows (fun _ _ _ h => by cases h) h
    | succ links ih =>
        intro l names m h
        refine walkWith_follows (fun l names m h => ?_) h
        obtain ⟨n, hn, hfollows⟩ := ih l names m h
        exact ⟨n, Nat.lt_succ_of_le hn, hfollows⟩
  obtain ⟨n, -, hfollows⟩ := hbounded links l names m h
  exact ⟨n, hfollows⟩

end

end SketchMerge.Tree
