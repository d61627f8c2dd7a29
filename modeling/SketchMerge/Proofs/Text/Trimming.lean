import Mathlib.Data.List.TakeWhile
import SketchMerge.Text.Blank

/-! # What trimming leaves

    A text is some blanks, what trimming leaves of it, and some blanks again
    (`exists_around_trim`).  Blanks that are put around a text are lost again, so
    to trim twice is to trim once. -/

namespace SketchMerge.Text

variable {t blanks : Text}

theorem trim_blank_append (h : ∀ g ∈ blanks, g.isBlank = true) (t : Text) :
    trim (blanks ++ t) = trim t := by
  rw [trim, trim, trimStart, List.dropWhile_append_of_pos h, ← trimStart]

theorem dropEndWhile_append {p : Glyph → Bool} {s : Text} (h : ∀ g ∈ s, p g = true) (t : Text) :
    dropEndWhile p (t ++ s) = dropEndWhile p t := by
  have hs : ∀ g ∈ s.reverse, p g = true := fun g hg => h g (List.mem_reverse.mp hg)
  rw [dropEndWhile, dropEndWhile, List.reverse_append, List.dropWhile_append_of_pos hs]

theorem trim_append_blank (h : ∀ g ∈ blanks, g.isBlank = true) (t : Text) :
    trim (t ++ blanks) = trim t := by
  rw [trim, trim, trimStart, trimStart, List.dropWhile_append]
  split
  · -- nothing but blanks: there is no end to trim
    rename_i hnone
    rw [List.isEmpty_iff.mp hnone, List.dropWhile_eq_nil_iff.mpr h]
  · exact dropEndWhile_append h _

/-- **WHAT TRIMMING TAKES AWAY**: blanks in front and blanks behind. -/
theorem exists_around_trim (t : Text) :
    ∃ lead trail : Text, (∀ g ∈ lead, g.isBlank = true) ∧ (∀ g ∈ trail, g.isBlank = true) ∧
      t = lead ++ (trim t ++ trail) := by
  refine ⟨t.takeWhile Glyph.isBlank, ((trimStart t).reverse.takeWhile Glyph.isBlank).reverse,
    fun g hg => List.mem_takeWhile_imp hg,
    fun g hg => List.mem_takeWhile_imp (List.mem_reverse.mp hg), ?_⟩
  have hend : trim t ++ ((trimStart t).reverse.takeWhile Glyph.isBlank).reverse = trimStart t := by
    rw [trim, dropEndWhile, ← List.reverse_append, List.takeWhile_append_dropWhile,
      List.reverse_reverse]
  rw [hend, trimStart, List.takeWhile_append_dropWhile]

@[simp] theorem trim_trim (t : Text) : trim (trim t) = trim t := by
  obtain ⟨lead, trail, hlead, htrail, ht⟩ := exists_around_trim t
  calc trim (trim t) = trim (lead ++ (trim t ++ trail)) := by
        rw [trim_blank_append hlead, trim_append_blank htrail]
    _ = trim t := by rw [← ht]

theorem trim_subset (t : Text) : trim t ⊆ t := by
  obtain ⟨lead, trail, -, -, ht⟩ := exists_around_trim t
  intro g hg
  rw [ht]
  exact List.mem_append_right _ (List.mem_append_left _ hg)

/-- What is not blank stays. -/
theorem mem_trim {g : Glyph} (hg : g ∈ t) (hblank : g.isBlank = false) : g ∈ trim t := by
  obtain ⟨lead, trail, hlead, htrail, ht⟩ := exists_around_trim t
  rw [ht, List.mem_append, List.mem_append] at hg
  rcases hg with hg | hg | hg
  · exact absurd (hlead g hg) (by simp [hblank])
  · exact hg
  · exact absurd (htrail g hg) (by simp [hblank])

theorem length_trim_le (t : Text) : (trim t).length ≤ t.length := by
  obtain ⟨lead, trail, -, -, ht⟩ := exists_around_trim t
  have hlength := congrArg List.length ht
  simp only [List.length_append] at hlength
  omega

/-- A text is trimmed just when no blank stands at either end of it. -/
theorem trim_eq_self_iff : trim t = t ↔
    (∀ g, t.head? = some g → g.isBlank = false) ∧ ∀ g, t.getLast? = some g → g.isBlank = false := by
  constructor
  · intro h
    constructor
    · intro g hg
      obtain ⟨rest, rfl⟩ := List.head?_eq_some_iff.mp hg
      refine Bool.eq_false_iff.mpr fun hblank => ?_
      have hblanks : ∀ x ∈ [g], x.isBlank = true := List.forall_mem_singleton.mpr hblank
      have hshorter := length_trim_le rest
      rw [← trim_blank_append hblanks, List.singleton_append, h, List.length_cons] at hshorter
      omega
    · intro g hg
      obtain ⟨front, rfl⟩ := List.getLast?_eq_some_iff.mp hg
      refine Bool.eq_false_iff.mpr fun hblank => ?_
      have hblanks : ∀ x ∈ [g], x.isBlank = true := List.forall_mem_singleton.mpr hblank
      have hshorter := length_trim_le front
      rw [← trim_append_blank hblanks, h, List.length_append, List.length_singleton] at hshorter
      omega
  · rintro ⟨hhead, hlast⟩
    have hkept {s : Text} (hs : ∀ g, s.head? = some g → g.isBlank = false) :
        s.dropWhile Glyph.isBlank = s := by
      cases s with
      | nil => rfl
      | cons g s => exact List.dropWhile_cons_of_neg (by simp [hs g rfl])
    rw [trim, trimStart, hkept hhead, dropEndWhile,
      hkept (fun g hg => hlast g (List.head?_reverse ▸ hg)), List.reverse_reverse]

/-- Where there are no blanks there is nothing to trim. -/
theorem trim_of_no_blank (h : ∀ g ∈ t, g.isBlank = false) : trim t = t :=
  trim_eq_self_iff.mpr
    ⟨fun g hg => h g (List.mem_of_head? hg), fun g hg => h g (List.mem_of_getLast? hg)⟩

end SketchMerge.Text
