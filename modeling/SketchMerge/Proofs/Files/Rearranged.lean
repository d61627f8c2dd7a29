import SketchMerge.Proofs.Files.Likeness

/-! # Trees in another order

    A tree lists the entries of a folder in some order, and two trees with the same
    entries in another order are REARRANGED.  They show the same at each location, so
    paths lead to the same places, the same is read there, and what is written keeps
    them rearranged.  Only the names in a folder come in another order. -/

namespace SketchMerge

namespace Tree

/-- The same entries in another order, no location twice. -/
structure Rearranged (t t' : Tree) : Prop where
  perm : t.entries.Perm t'.entries
  distinct : t.Distinct

theorem mem_of_lookup {es : List (Location × Entry)} (hdistinct : (es.map Prod.fst).Nodup)
    (l : Location) (e : Entry) : es.lookup l = some e ↔ (l, e) ∈ es := by
  induction es with
  | nil => exact ⟨(nomatch ·), (nomatch ·)⟩
  | cons x es ih =>
      obtain ⟨k, x⟩ := x
      obtain ⟨hk, hrest⟩ := List.nodup_cons.mp hdistinct
      by_cases hl : l = k
      · subst hl
        rw [List.lookup_cons_self, List.mem_cons]
        constructor
        · exact fun h => .inl (by rw [Option.some.inj h])
        · rintro (h | h)
          · rw [(Prod.mk.inj h).2]
          · exact absurd (List.mem_map_of_mem h) hk
      · rw [List.lookup_cons, beq_eq_false_iff_ne.mpr hl, ih hrest, List.mem_cons]
        exact ⟨.inr, fun h => h.resolve_left fun heq => hl (Prod.mk.inj heq).1⟩

variable {t t' : Tree}

namespace Rearranged

theorem lookup (h : Rearranged t t') (l : Location) :
    t.entries.lookup l = t'.entries.lookup l := by
  have hdistinct' : t'.Distinct := (h.perm.map Prod.fst).nodup_iff.mp h.distinct
  refine Option.ext fun e => ?_
  rw [mem_of_lookup h.distinct, mem_of_lookup hdistinct', h.perm.mem_iff]

/-- **THE ORDER OF ENTRIES DOES NOT SHOW.** -/
theorem get?_eq (h : Rearranged t t') : t.get? = t'.get? := by
  funext l
  rw [Tree.get?, Tree.get?, h.lookup]

theorem alike (h : Rearranged t t') : t.Alike t' :=
  fun l => .inl (congrFun h.get?_eq l)

theorem names (h : Rearranged t t') (folder : Location) : (t.names folder).Perm (t'.names folder) :=
  h.perm.filterMap _

-- ── Changes ─────────────────────────────────────────────────────────────────

theorem put (h : Rearranged t t') (l : Location) (e : Entry) :
    Rearranged (t.put l e) (t'.put l e) := by
  refine ⟨?_, h.distinct.put l e⟩
  rw [Tree.put, Tree.put, h.lookup]
  split
  · exact h.perm.map _
  · exact h.perm.append_right _

theorem filter (h : Rearranged t t') (keep : Location × Entry → Bool) :
    Rearranged ⟨t.entries.filter keep⟩ ⟨t'.entries.filter keep⟩ :=
  ⟨h.perm.filter keep, h.distinct.filter keep⟩

theorem prune (h : Rearranged t t') (l : Location) : Rearranged (t.prune l) (t'.prune l) :=
  h.filter _

theorem putFolder (h : Rearranged t t') (l : Location) :
    Rearranged (t.putFolder l) (t'.putFolder l) := by
  rw [Tree.putFolder, Tree.putFolder]
  generalize (List.range l.length).map (fun n => l.take (n + 1)) = ls
  induction ls generalizing t t' with
  | nil => exact h
  | cons l ls ih =>
      rw [List.foldl_cons, List.foldl_cons, h.get?_eq]
      split
      · exact ih h
      · exact ih (h.put l .folder)

end Rearranged

-- ── Following paths ─────────────────────────────────────────────────────────

theorem realWith_congr (h : t.get? = t'.get?) (here : Location)
    (enter : Path → Path → Text → Except Stuck Path) (p : Path) (names : List Text) :
    t.realWith here enter p names = t'.realWith here enter p names := by
  induction names generalizing p with
  | nil => rfl
  | cons name rest ih => simp only [realWith, h, ih]

theorem real_congr (h : t.get? = t'.get?) (here : Location) (fuel : Nat) :
    t.real here fuel = t'.real here fuel := by
  induction fuel with
  | zero => rfl
  | succ fuel ih =>
      funext opened link folder target
      rw [real, real, ih]
      split
      · rfl
      · exact realWith_congr h here _ _ _

end Tree

namespace Disk

/-- The disks differ in the order of entries only. -/
structure Rearranged (d d' : Disk) : Prop where
  tree : d.tree.Rearranged d'.tree
  here : d.here = d'.here
  home : d.home = d'.home

namespace Rearranged

variable {d d' : Disk}

theorem alike (h : Rearranged d d') : d.Alike d' :=
  ⟨h.tree.alike, h.here, h.home⟩

theorem put (h : Rearranged d d') (l : Location) (e : Entry) :
    Rearranged (d.put l e) (d'.put l e) :=
  ⟨h.tree.put l e, h.here, h.home⟩

theorem locate_eq (h : Rearranged d d') : d.locate = d'.locate := by
  funext purpose p
  exact locate_alike h.alike purpose p

theorem entryAt_eq (h : Rearranged d d') : d.entryAt = d'.entryAt := by
  funext l
  rw [entryAt, entryAt, h.tree.get?_eq]

theorem look_eq (h : Rearranged d d') : d.look = d'.look := by
  funext p
  rw [look, look, h.locate_eq, h.entryAt_eq]

theorem lookWritten_eq (h : Rearranged d d') : d.lookWritten = d'.lookWritten := by
  funext written
  rw [lookWritten, lookWritten, start, start, h.here, h.entryAt_eq, Tree.walk_alike h.tree.alike]

theorem check_eq (h : Rearranged d d') : d.check = d'.check := by
  funext p test
  rw [check, check, h.look_eq]

theorem isFile_eq (h : Rearranged d d') : d.isFile = d'.isFile := by
  funext p
  rw [isFile, isFile, h.check_eq]

theorem isFolder_eq (h : Rearranged d d') : d.isFolder = d'.isFolder := by
  funext p
  rw [isFolder, isFolder, h.check_eq]

theorem isThere_eq (h : Rearranged d d') : d.isThere = d'.isThere := by
  funext p
  rw [isThere, isThere, h.check_eq]

theorem expandHome_eq (h : Rearranged d d') : d.expandHome = d'.expandHome := by
  funext p
  rw [expandHome, expandHome, h.home]

theorem absolutePath_eq (h : Rearranged d d') : d.absolutePath = d'.absolutePath := by
  funext p
  rw [absolutePath, absolutePath, h.here]

theorem resolve_eq (h : Rearranged d d') : d.resolve = d'.resolve := by
  funext p
  rw [resolve, resolve, h.here, h.tree.perm.length_eq]
  dsimp only
  rw [Tree.real_congr h.tree.get?_eq, Tree.realWith_congr h.tree.get?_eq, h.absolutePath_eq,
    h.look_eq]

theorem read_eq (h : Rearranged d d') : d.read = d'.read := by
  funext p
  rw [read, read, h.look_eq]

theorem target_eq (h : Rearranged d d') : d.target = d'.target := by
  funext p
  rw [target, target, h.locate_eq, h.tree.get?_eq]

end Rearranged

end Disk

end SketchMerge
