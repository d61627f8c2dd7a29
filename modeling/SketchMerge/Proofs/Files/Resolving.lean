import Mathlib.Data.List.Perm.Subperm
import SketchMerge.Files.Disk
import SketchMerge.Proofs.Files.Following

/-! # Paths without links

    A lenient walk keeps a written path where a strict walk keeps a location.  The
    two are in step: the location of the written path is where the strict walk is.
    So a path that leads somewhere leads, once its links are out, to the SAME
    location (`resolve_of_look`), and different resolved paths are different places.

    What has to be shown is that the lenient walk neither meets a link again while
    it follows it nor runs out of fuel.  Both rest on the COST of a link, the
    number of links that following it takes: links that are being followed inside
    each other have falling costs, so they are different entries of the tree. -/

namespace SketchMerge.Tree

variable {t : Tree} {here : Location}

-- ── Locations of written paths ──────────────────────────────────────────────

theorem plainLocation_concat (here : Location) (p : Path) {name : Text} (hname : Named name) :
    plainLocation here ⟨p.anchor, p.parts ++ [name]⟩ = plainLocation here p ++ [name] := by
  show List.foldl _ (if p.isAbsolute then [] else here) (p.parts ++ [name]) = _
  rw [List.foldl_append, List.foldl_cons, List.foldl_nil, if_neg hname.not_up]
  rfl

/-- Going up in a written path is going up in the tree. -/
theorem plainLocation_up (here : Location) (p : Path) :
    plainLocation here p.up = (plainLocation here p).dropLast := by
  have hdots : plainLocation here ⟨p.anchor, p.parts ++ [Path.dotDot]⟩
      = (plainLocation here p).dropLast := by
    show List.foldl _ (if p.isAbsolute then [] else here) (p.parts ++ [Path.dotDot]) = _
    rw [List.foldl_append, List.foldl_cons, List.foldl_nil, if_pos (beq_self_eq_true _)]
    rfl
  rw [Path.up]
  by_cases hroot : (p.parts.isEmpty && p.isAbsolute) = true
  · -- there is nothing above the root
    rw [if_pos hroot]
    rw [Bool.and_eq_true, List.isEmpty_iff] at hroot
    rw [plainLocation, hroot.1, hroot.2]
    rfl
  · rw [if_neg hroot]
    by_cases hstay : (p.parts.isEmpty || p.name == Path.dotDot) = true
    · rw [if_pos hstay, hdots]
    · rw [if_neg hstay]
      rw [Bool.or_eq_true, List.isEmpty_iff, beq_iff_eq, not_or] at hstay
      obtain ⟨hne, hlast⟩ := hstay
      obtain ⟨init, last, hparts⟩ : ∃ init last, p.parts = init ++ [last] :=
        ⟨p.parts.dropLast, p.parts.getLast hne, (List.dropLast_append_getLast hne).symm⟩
      rw [Path.name, hparts, List.getLast?_concat, Option.getD_some] at hlast
      have hlast' : ¬ (last == Path.dotDot) = true := fun h => hlast (beq_iff_eq.mp h)
      rw [plainLocation, plainLocation, Path.parent, hparts, List.dropLast_concat,
        List.foldl_append, List.foldl_cons, List.foldl_nil, if_neg hlast', List.dropLast_concat]
      rfl

theorem up_anchor (p : Path) : p.up.anchor = p.anchor := by
  rw [Path.up]
  split
  · rfl
  · split
    · rfl
    · rfl

-- ── Lenient walks ───────────────────────────────────────────────────────────

section

variable {enter : Path → Path → Text → Except Stuck Path}

theorem realWith_skip {name : Text} (hskip : (name.isEmpty || name == Path.dot) = true) (p : Path)
    (rest : List Text) :
    t.realWith here enter p (name :: rest) = t.realWith here enter p rest := by
  rw [realWith, if_pos hskip]

theorem realWith_up (p : Path) (rest : List Text) :
    t.realWith here enter p (Path.dotDot :: rest) = t.realWith here enter p.up rest := by
  rw [realWith, if_neg (by decide), if_pos (beq_self_eq_true _)]

theorem realWith_named {name : Text} (hname : Named name) (p : Path) (rest : List Text) :
    t.realWith here enter p (name :: rest) =
      match t.get? (plainLocation here p ++ [name]) with
      | some (.link target) =>
        match enter ⟨p.anchor, p.parts ++ [name]⟩ p target with
        | .ok found => t.realWith here enter found rest
        | .error stuck => .error (Path.joinWritten stuck (Text.joinWith "/" rest))
      | _ => t.realWith here enter ⟨p.anchor, p.parts ++ [name]⟩ rest := by
  rw [← plainLocation_concat here p hname]
  exact (if_neg hname.not_skipped).trans (if_neg hname.not_up)

/-- Empty names change nothing. -/
theorem realWith_insert_empty {names rest : List Text} {p q : Path}
    (h : t.realWith here enter p (names.filter (!·.isEmpty) ++ rest) = .ok q) :
    t.realWith here enter p (names ++ rest) = .ok q := by
  induction names generalizing p with
  | nil => exact h
  | cons name names ih =>
      rw [List.cons_append]
      by_cases hempty : name.isEmpty = true
      · rw [List.filter_cons_of_neg (by rw [hempty]; exact Bool.false_ne_true)] at h
        rw [realWith_skip (by rw [hempty]; rfl)]
        exact ih h
      rw [List.filter_cons_of_pos (by rw [Bool.not_eq_true] at hempty; rw [hempty]; rfl),
        List.cons_append] at h
      rcases name_cases name with hskip | rfl | hname
      · rw [realWith_skip hskip] at h ⊢
        exact ih h
      · rw [realWith_up] at h ⊢
        exact ih h
      · rw [realWith_named hname] at h ⊢
        cases hget : t.get? (plainLocation here p ++ [name]) with
        | none =>
            rw [hget] at h
            exact ih h
        | some e =>
            rw [hget] at h
            cases e with
            | folder => exact ih h
            | file content => exact ih h
            | link target =>
                dsimp only at h ⊢
                cases henter : enter ⟨p.anchor, p.parts ++ [name]⟩ p target with
                | ok found =>
                    rw [henter] at h
                    exact ih h
                | error stuck =>
                    rw [henter] at h
                    exact nomatch h

/-- The steps of a written path lead where all its names lead. -/
theorem realWith_of_steps {target : Text} {p q : Path}
    (h : t.realWith here enter p (Path.steps target) = .ok q) :
    t.realWith here enter p (Text.splitAtEach (· == Path.slash) target) = .ok q := by
  rw [Path.steps] at h
  have hlast := List.take_append_drop
    ((Text.splitAtEach (· == Path.slash) target).length - 1)
    (Text.splitAtEach (· == Path.slash) target)
  rw [← hlast]
  rw [List.dropLast_eq_take] at h
  exact realWith_insert_empty h

end

-- ── The cost of links ───────────────────────────────────────────────────────

/-- Following the link at a location takes a number of further links. -/
def LinkCost (t : Tree) (l : Location) (a : Nat) : Prop :=
  ∃ target k, t.get? l = some (.link target) ∧
    Follows t (linkStart l.dropLast target) (Path.steps target) a k

theorem LinkCost.unique {l : Location} {a b : Nat} (ha : LinkCost t l a) (hb : LinkCost t l b) :
    a = b := by
  obtain ⟨target, k, hget, hfollows⟩ := ha
  obtain ⟨target', k', hget', hfollows'⟩ := hb
  obtain rfl := Entry.link.inj (Option.some.inj (hget.symm.trans hget'))
  exact (hfollows.determinate hfollows').1

theorem LinkCost.mem {l : Location} {a : Nat} (h : LinkCost t l a) :
    l ∈ t.entries.map Prod.fst := by
  obtain ⟨target, k, hget, -⟩ := h
  have hne : l ≠ [] := by
    rintro rfl
    exact nomatch hget
  obtain ⟨e, he⟩ := (isSome_get? t hne).mp (by rw [hget]; rfl)
  exact List.mem_map.mpr ⟨_, he, rfl⟩

/-- The links that are being followed while names are followed that cost `n`: each of them
    costs at least that, and no two are at one location. -/
structure Following (t : Tree) (here : Location) (open_ : List Path) (n : Nat) : Prop where
  costly : ∀ q ∈ open_, ∃ a, LinkCost t (plainLocation here q) a ∧ n ≤ a
  apart : (open_.map (plainLocation here)).Nodup

theorem Following.mono {open_ : List Path} {n n' : Nat} (h : Following t here open_ n)
    (hn : n' ≤ n) : Following t here open_ n' := by
  refine ⟨fun q hq => ?_, h.apart⟩
  obtain ⟨a, hcost, ha⟩ := h.costly q hq
  exact ⟨a, hcost, Nat.le_trans hn ha⟩

/-- A cheaper link is none of those that are being followed. -/
theorem Following.fresh {open_ : List Path} {n a : Nat} {l : Location}
    (h : Following t here open_ n) (hcost : LinkCost t l a) (ha : a < n) :
    l ∉ open_.map (plainLocation here) := by
  intro hmem
  obtain ⟨q, hq, rfl⟩ := List.mem_map.mp hmem
  obtain ⟨b, hcost', hb⟩ := h.costly q hq
  have := hcost.unique hcost'
  omega

theorem Following.cons {open_ : List Path} {n a : Nat} {q : Path}
    (h : Following t here open_ n) (hcost : LinkCost t (plainLocation here q) a) (ha : a < n) :
    Following t here (q :: open_) a := by
  constructor
  · intro q' hq'
    rcases List.mem_cons.mp hq' with rfl | hq'
    · exact ⟨a, hcost, Nat.le_refl a⟩
    · exact (h.mono (Nat.le_of_lt ha)).costly q' hq'
  · rw [List.map_cons, List.nodup_cons]
    exact ⟨h.fresh hcost ha, h.apart⟩

/-- There are no more links to be followed than entries in the tree. -/
theorem Following.length_le {open_ : List Path} {n : Nat} (h : Following t here open_ n) :
    open_.length ≤ t.entries.length := by
  have hsub : open_.map (plainLocation here) ⊆ t.entries.map Prod.fst := by
    intro l hl
    obtain ⟨q, hq, rfl⟩ := List.mem_map.mp hl
    obtain ⟨a, hcost, -⟩ := h.costly q hq
    exact hcost.mem
  have := (h.apart.subperm hsub).length_le
  rwa [List.length_map, List.length_map] at this

/-- **LENIENT WALKS KEEP IN STEP**: where names lead, a lenient walk comes to a path with that
    location. -/
theorem realWith_of_follows (here : Location) {l m : Location} {names : List Text} {n : Nat}
    (h : Follows t l names n m) :
    ∀ (fuel : Nat) (open_ : List Path) (p : Path), Following t here open_ n →
      t.entries.length < fuel + open_.length → plainLocation here p = l →
      p.anchor ≠ .doubleRoot →
      ∃ q, t.realWith here (t.real here fuel open_) p names = .ok q ∧
        plainLocation here q = m ∧ q.anchor ≠ .doubleRoot := by
  induction h with
  | done l => exact fun fuel open_ p _ _ hp hanchor => ⟨p, rfl, hp, hanchor⟩
  | stay hskip _ ih =>
      intro fuel open_ p hopen hfuel hp hanchor
      rw [realWith_skip hskip]
      exact ih fuel open_ p hopen hfuel hp hanchor
  | up _ ih =>
      intro fuel open_ p hopen hfuel hp hanchor
      rw [realWith_up]
      exact ih fuel open_ p.up hopen hfuel (by rw [plainLocation_up, hp])
        (by rw [up_anchor]; exact hanchor)
  | @last l name hname hfolder hlink =>
      intro fuel open_ p hopen hfuel hp hanchor
      refine ⟨⟨p.anchor, p.parts ++ [name]⟩, ?_, by rw [plainLocation_concat here p hname, hp],
        hanchor⟩
      rw [realWith_named hname, hp]
      split
      next target hget => exact absurd hget (hlink target)
      next => rfl
  | @folder l m name rest n hname hget _ ih =>
      intro fuel open_ p hopen hfuel hp hanchor
      rw [realWith_named hname, hp, hget]
      exact ih fuel open_ _ hopen hfuel (by rw [plainLocation_concat here p hname, hp]) hanchor
  | @link l k m name target rest a b hname hget htarget _ ihTarget ihRest =>
      intro fuel open_ p hopen hfuel hp hanchor
      have hnext := plainLocation_concat here p hname
      rw [hp] at hnext
      have hcost : LinkCost t (plainLocation here ⟨p.anchor, p.parts ++ [name]⟩) a := by
        rw [hnext]
        exact ⟨target, k, hget, by rw [List.dropLast_concat]; exact htarget⟩
      have hinner := hopen.cons hcost (by omega)
      have hroom := hinner.length_le
      rw [List.length_cons] at hroom
      -- the tree has an entry more than there are open links, so there is fuel for this one
      obtain ⟨fuel', rfl⟩ := Nat.exists_eq_succ_of_ne_zero (show fuel ≠ 0 by omega)
      have hstart : plainLocation here
          (if Path.anchorOf target == .here then p else .absolute []) = linkStart l target := by
        rw [linkStart]
        split
        · exact hp
        · rfl
      have hstartAnchor :
          (if Path.anchorOf target == .here then p else Path.absolute []).anchor
            ≠ .doubleRoot := by
        split
        · exact hanchor
        · exact fun h => nomatch h
      obtain ⟨found, hfound, hlocation, hfoundAnchor⟩ := ihTarget fuel' _ _ hinner
        (by rw [List.length_cons]; omega) hstart hstartAnchor
      have hnew : ¬ open_.contains ⟨p.anchor, p.parts ++ [name]⟩ = true := by
        rw [List.contains_iff_mem]
        exact fun hmem => hopen.fresh hcost (by omega) (List.mem_map_of_mem hmem)
      have hreal : t.real here (fuel' + 1) open_ ⟨p.anchor, p.parts ++ [name]⟩ p target
          = .ok found := by
        rw [real, if_neg hnew]
        exact realWith_of_steps hfound
      rw [realWith_named hname, hp, hget]
      dsimp only
      rw [hreal]
      exact ihRest (fuel' + 1) open_ found (hopen.mono (by omega)) hfuel hlocation hfoundAnchor

end SketchMerge.Tree

namespace SketchMerge.Disk

variable {d : Disk}

/-- The path from the root to the location of a written path. -/
theorem absolutePath_eq (hhere : Path.dotDot ∉ d.here) {q : Path} (hq : q.anchor ≠ .doubleRoot) :
    d.absolutePath q = .absolute (Tree.plainLocation d.here q) := by
  have hfold : ∀ (parts kept : List Text),
      (parts.foldl (fun kept part => if part == Path.dotDot then kept.tail else part :: kept)
        kept).reverse
        = parts.foldl (fun l name => if name == Path.dotDot then l.dropLast else l ++ [name])
          kept.reverse := by
    intro parts
    induction parts with
    | nil => exact fun kept => rfl
    | cons part parts ih =>
        intro kept
        rw [List.foldl_cons, List.foldl_cons, ih]
        by_cases hup : (part == Path.dotDot) = true
        · rw [if_pos hup, if_pos hup, List.dropLast_reverse]
        · rw [if_neg hup, if_neg hup, List.reverse_cons]
  have hkept : ∀ (l start : List Text), Path.dotDot ∉ l →
      l.foldl (fun l name => if name == Path.dotDot then l.dropLast else l ++ [name]) start
        = start ++ l := by
    intro l
    induction l with
    | nil => exact fun start _ => (List.append_nil start).symm
    | cons name l ih =>
        intro start hl
        have hname : ¬ (name == Path.dotDot) = true :=
          fun h => hl (beq_iff_eq.mp h ▸ List.mem_cons_self ..)
        rw [List.foldl_cons, if_neg hname, ih _ (fun h => hl (List.mem_cons_of_mem _ h)),
          List.append_assoc]
        rfl
  rw [absolutePath, Path.absolute, Tree.plainLocation, hfold, List.reverse_nil]
  cases hanchor : q.anchor with
  | doubleRoot => exact absurd hanchor hq
  | root =>
      have habsolute : q.isAbsolute = true := by
        rw [Path.isAbsolute, hanchor]
        rfl
      rw [habsolute]
      rfl
  | here =>
      have hrelative : q.isAbsolute = false := by
        rw [Path.isAbsolute, hanchor]
        rfl
      rw [hrelative, if_neg Bool.false_ne_true, if_neg Bool.false_ne_true,
        if_neg Bool.false_ne_true, List.foldl_append, hkept d.here [] hhere, List.nil_append]

end SketchMerge.Disk
