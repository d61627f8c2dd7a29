import SketchMerge.Proofs.Files.Operations

/-! # Names and trees can be checked

    What is said of all locations of a tree need only be looked at where there is an
    entry.  So it can be DECIDED whether a tree is sound, whether there are links in a
    folder, and whether nothing is at a location or below. -/

namespace SketchMerge

theorem FileName.proper_iff {e : Text} : FileName.Proper e ↔
    e.head? = some (.char '.') ∧ e.tail ≠ [] ∧ .char '.' ∉ e.tail ∧ Path.slash ∉ e := by
  constructor
  · intro h
    obtain ⟨rest, rfl, hrest, hdot⟩ := h.dotted
    exact ⟨rfl, hrest, hdot, h.noSlash⟩
  · rintro ⟨hhead, hrest, hdot, hslash⟩
    refine ⟨⟨e.tail, ?_, hrest, hdot⟩, hslash⟩
    obtain ⟨rest, rfl⟩ := List.head?_eq_some_iff.mp hhead
    rfl

instance (e : Text) : Decidable (FileName.Proper e) :=
  decidable_of_iff _ FileName.proper_iff.symm

namespace Tree

variable {t : Tree}

instance (name : Text) : Decidable (Named name) :=
  decidable_of_iff (name ≠ [] ∧ name ≠ Path.dot ∧ name ≠ Path.dotDot)
    ⟨fun h => ⟨h.1, h.2.1, h.2.2⟩, fun h => ⟨h.notEmpty, h.notDot, h.notDotDot⟩⟩

instance (name : Text) : Decidable (Valid name) :=
  decidable_of_iff (Named name ∧ Path.slash ∉ name ∧ Files.barredText? name = none)
    ⟨fun h => ⟨⟨h.1, h.2.1⟩, h.2.2⟩, fun h => ⟨h.toNamed, h.noSlash, h.written⟩⟩

instance (t : Tree) : Decidable t.Distinct :=
  inferInstanceAs (Decidable (t.entries.map Prod.fst).Nodup)

/-- A tree shows something only where it has an entry. -/
theorem mem_entries_of_isSome {l : Location} {name : Text}
    (h : (t.get? (l ++ [name])).isSome) : ∃ e, (l ++ [name], e) ∈ t.entries :=
  (isSome_get? t (List.append_ne_nil_of_right_ne_nil _ (List.cons_ne_nil _ _))).mp h

/-- A tree is sound if each entry has a valid name and stands in a folder. -/
theorem sound_of_entries
    (h : ∀ x ∈ t.entries, ∀ name ∈ x.1.getLast?.toList,
      Valid name ∧ t.get? x.1.dropLast = some .folder) : t.Sound := by
  have hentry (l : Location) (name : Text) (hsome : (t.get? (l ++ [name])).isSome) :
      Valid name ∧ t.get? l = some .folder := by
    obtain ⟨e, he⟩ := mem_entries_of_isSome hsome
    have hat := h _ he name
    rw [List.getLast?_concat, List.dropLast_concat] at hat
    exact hat (List.mem_cons_self ..)
  exact ⟨fun l name hsome => (hentry l name hsome).1, fun l name hsome => (hentry l name hsome).2⟩

/-- There are no links in a folder if none of its entries is one. -/
theorem noLinks_of_entries {folder : Location}
    (h : ∀ x ∈ t.entries, x.1.dropLast = folder →
      t.get? x.1 = some .folder ∨ t.hasFile x.1 = true) : t.NoLinks folder := by
  intro name target hget
  have hsome : (t.get? (folder ++ [name])).isSome := by rw [hget]; rfl
  obtain ⟨e, he⟩ := mem_entries_of_isSome hsome
  rcases h _ he List.dropLast_concat with hfolder | hfile
  · exact nomatch hget.symm.trans hfolder
  · obtain ⟨content, hcontent⟩ := hasFile_iff.mp hfile
    exact nomatch hget.symm.trans hcontent

/-- Nothing is below a location if none of the entries is. -/
theorem get?_eq_none_of_entries {l m : Location} (hl : l ≠ [])
    (h : ∀ x ∈ t.entries, ¬ l <+: x.1) (hm : l <+: m) : t.get? m = none := by
  have hne : m ≠ [] := by
    rintro rfl
    exact hl (List.prefix_nil.mp hm)
  refine Option.not_isSome_iff_eq_none.mp fun hsome => ?_
  obtain ⟨e, he⟩ := (isSome_get? t hne).mp hsome
  exact h _ he hm

end Tree

/-- The files of the disk are as a system holds them: the tree is sound, no location comes
    twice, and the current folder is a folder. -/
structure Disk.Sound (d : Disk) : Prop where
  tree : d.tree.Sound
  distinct : d.tree.Distinct
  here : d.tree.get? d.here = some .folder

end SketchMerge
