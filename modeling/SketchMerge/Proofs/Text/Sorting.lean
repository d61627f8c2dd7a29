import SketchMerge.Text.Sort

/-! # What sorting does

    A sorted list has the elements of the list, in ascending order where the order is
    one.  Sorting is the library's merge sort; what is known of that holds of it. -/

namespace SketchMerge

variable {α β : Type} {le : α → α → Bool}

theorem insertBy_perm (le : α → α → Bool) (a : α) (xs : List α) :
    (insertBy le a xs).Perm (a :: xs) := by
  induction xs with
  | nil => exact .refl _
  | cons b rest ih =>
      rw [insertBy]
      split
      · exact .refl _
      · exact (ih.cons b).trans (.swap a b rest)

theorem sortBy_perm (le : α → α → Bool) (xs : List α) : (sortBy le xs).Perm xs := by
  induction xs with
  | nil => exact .refl _
  | cons a rest ih => exact (insertBy_perm le a _).trans (ih.cons a)

theorem mem_sortBy {xs : List α} {a : α} : a ∈ sortBy le xs ↔ a ∈ xs :=
  (sortBy_perm le xs).mem_iff

theorem insertBy_append {a : α} {before : List α} (h : ∀ b ∈ before, le a b = false)
    (rest : List α) : insertBy le a (before ++ rest) = before ++ insertBy le a rest := by
  induction before with
  | nil => rfl
  | cons b before ih =>
      rw [List.cons_append, insertBy, h b (List.mem_cons_self ..), if_neg Bool.false_ne_true,
        ih fun x hx => h x (List.mem_cons_of_mem _ hx), List.cons_append]

/-- **SORTING IS MERGE SORT**, in an order that is total and transitive. -/
theorem sortBy_eq_mergeSort (htrans : ∀ a b c, le a b = true → le b c = true → le a c = true)
    (htotal : ∀ a b, (le a b || le b a) = true) (xs : List α) :
    sortBy le xs = xs.mergeSort le := by
  induction xs with
  | nil => rw [sortBy, List.mergeSort_nil]
  | cons a rest ih =>
      obtain ⟨before, after, hwhole, hrest, hbefore⟩ := List.mergeSort_cons htrans htotal a rest
      have hsorted := List.pairwise_mergeSort htrans htotal (a :: rest)
      rw [hwhole] at hsorted
      rw [sortBy, ih, hrest, hwhole, insertBy_append fun b hb => by simpa using hbefore b hb]
      congr 1
      cases after with
      | nil => rfl
      | cons b after =>
          have hab := (List.pairwise_cons.mp (List.pairwise_append.mp hsorted).2.1).1 b
            (List.mem_cons_self ..)
          rw [insertBy, if_pos hab]

/-- A list is sorted to the same whatever its order, if the order tells its elements apart. -/
theorem sortBy_eq_of_perm (htrans : ∀ a b c, le a b = true → le b c = true → le a c = true)
    (htotal : ∀ a b, (le a b || le b a) = true) {xs ys : List α}
    (hantisymm : ∀ a ∈ xs, ∀ b ∈ xs, le a b = true → le b a = true → a = b) (h : xs.Perm ys) :
    sortBy le xs = sortBy le ys := by
  have hperm := ((sortBy_perm le xs).trans h).trans (sortBy_perm le ys).symm
  have hsorted (zs : List α) : (sortBy le zs).Pairwise (le · ·) := by
    rw [sortBy_eq_mergeSort htrans htotal]
    exact List.pairwise_mergeSort htrans htotal zs
  refine hperm.eq_of_pairwise (fun a b ha hb => ?_) (hsorted xs) (hsorted ys)
  exact hantisymm a (mem_sortBy.mp ha) b (h.mem_iff.mpr (mem_sortBy.mp hb))

-- ── Sorting by a key ────────────────────────────────────────────────────────

/-- A list sorted by a key: the same elements, in ascending order of the key, and those
    with the same key in the order in which they came. -/
structure StablySorted (key : α → Int) (xs sorted : List α) : Prop where
  perm : sorted.Perm xs
  ordered : sorted.Pairwise fun a b => key a ≤ key b
  stable : ∀ n, sorted.filter (key · == n) = xs.filter (key · == n)

/-- An element goes in front of those with the same key, and passes only others. -/
theorem filter_insertBy (key : α → Int) (n : Int) (a : α) (xs : List α) :
    (insertBy (fun a b => key a ≤ key b) a xs).filter (key · == n)
      = (a :: xs).filter (key · == n) := by
  induction xs with
  | nil => rfl
  | cons b xs ih =>
      rw [insertBy]
      split
      · rfl
      · rename_i hpassed
        have hlt : key b < key a := by simpa using hpassed
        rw [List.filter_cons, ih]
        by_cases ha : key a = n
        · have hb : key b ≠ n := by omega
          simp [ha, hb]
        · simp [List.filter_cons, ha]

/-- **SORTING BY A KEY IS STABLE.** -/
theorem sortBy_stable (key : α → Int) (xs : List α) :
    StablySorted key xs (sortBy (fun a b => key a ≤ key b) xs) where
  perm := sortBy_perm _ xs
  ordered := by
    have htrans : ∀ a b c, decide (key a ≤ key b) = true → decide (key b ≤ key c) = true →
        decide (key a ≤ key c) = true := by
      intro a b c hab hbc
      simp only [decide_eq_true_eq] at hab hbc ⊢
      omega
    have htotal : ∀ a b, (decide (key a ≤ key b) || decide (key b ≤ key a)) = true := by
      intro a b
      simp only [Bool.or_eq_true, decide_eq_true_eq]
      omega
    rw [sortBy_eq_mergeSort htrans htotal]
    exact (List.pairwise_mergeSort htrans htotal xs).imp of_decide_eq_true
  stable := by
    intro n
    induction xs with
    | nil => rfl
    | cons a xs ih =>
        rw [sortBy, filter_insertBy, List.filter_cons, List.filter_cons, ih]

namespace StablySorted

variable {key : α → Int} {xs ys sorted sorted' : List α}

theorem perm_of_perm (hxs : StablySorted key xs sorted) (hys : StablySorted key ys sorted')
    (h : xs.Perm ys) : sorted.Perm sorted' :=
  (hxs.perm.trans h).trans hys.perm.symm

/-- **ONE SEQUENCE OF KEYS**, in whatever order the list came. -/
theorem map_key_eq_of_perm (hxs : StablySorted key xs sorted) (hys : StablySorted key ys sorted')
    (h : xs.Perm ys) : sorted.map key = sorted'.map key := by
  have hsorted : (sorted.map key).Pairwise (· ≤ ·) := List.pairwise_map.mpr hxs.ordered
  have hsorted' : (sorted'.map key).Pairwise (· ≤ ·) := List.pairwise_map.mpr hys.ordered
  refine ((hxs.perm_of_perm hys h).map key).eq_of_pairwise ?_ hsorted hsorted'
  intro a b _ _ hab hba
  exact Int.le_antisymm hab hba

/-- The order in which a list came is seen only in elements with the same key. -/
theorem eq_of_perm (hxs : StablySorted key xs sorted) (hys : StablySorted key ys sorted')
    (h : xs.Perm ys) (hkeys : sorted.Pairwise fun a b => key a ≠ key b) : sorted = sorted' := by
  have hstrict : sorted.Pairwise fun a b => key a < key b :=
    hxs.ordered.imp₂ (fun _ _ hle hne => Int.lt_iff_le_and_ne.mpr ⟨hle, hne⟩) hkeys
  have hstrict' : sorted'.Pairwise fun a b => key a < key b := by
    rw [← List.pairwise_map (R := (· < ·)), ← hxs.map_key_eq_of_perm hys h, List.pairwise_map]
    exact hstrict
  refine (hxs.perm_of_perm hys h).eq_of_pairwise ?_ hstrict hstrict'
  intro a b _ _ hab hba
  omega

end StablySorted

end SketchMerge
