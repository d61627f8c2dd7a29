import SketchMerge.Proofs.Text.Matching

/-! # Laws of matching

    Matching tries the ways of a pattern in order and hands each place it reaches
    to what comes next.  So it depends on what comes next ONLY at the places the
    pattern leads to (`run_congr`), and the limit on the rounds of a repetition is
    never felt: a repetition is one more round and the repetition again, or else
    its end (`run_many_unfold`).

    Matching does not look back either.  Wherever a text is cut off in front of a
    place, the same glyphs are matched behind it (`run_moved`). -/

namespace SketchMerge.Pattern

-- ── What comes next counts where a pattern leads ────────────────────────────

theorem rounds_congr {q : Pattern}
    (ih : ∀ {next next' : Continuation} {p : Place},
      (∀ p', Leads q p p' → next p' = next' p') → q.run next p = q.run next' p)
    {next next' : Continuation} :
    ∀ (bound : Text) (p : Place), (∀ p', Leads (many q) p p' → next p' = next' p') →
      rounds q.run bound next p = rounds q.run bound next' p := by
  intro bound
  induction bound with
  | nil =>
      intro p h
      exact h p ⟨[], .done, .refl p⟩
  | cons b bound ihb =>
      intro p h
      have hround : q.run (rounds q.run bound next) p = q.run (rounds q.run bound next') p := by
        apply ih
        rintro p₁ ⟨v, hv, past⟩
        apply ihb
        rintro p₂ ⟨w, hw, past'⟩
        exact h p₂ ⟨v ++ w, .more hv hw, past.trans past'⟩
      rw [rounds_cons, rounds_cons, hround, h p ⟨[], .done, .refl p⟩]

/-- **WHAT COMES NEXT COUNTS ONLY WHERE A PATTERN LEADS.** -/
theorem run_congr {q : Pattern} :
    ∀ {next next' : Continuation} {p : Place}, (∀ p', Leads q p p' → next p' = next' p') →
      q.run next p = q.run next' p := by
  induction q with
  | empty =>
      intro next next' p h
      exact h p ⟨[], .empty, .refl p⟩
  | one accepts =>
      intro next next' p h
      obtain ⟨taken, left⟩ := p
      cases left with
      | nil => rfl
      | cons g rest =>
          rw [run_one_cons, run_one_cons]
          by_cases hg : accepts g = true
          · rw [if_pos hg, if_pos hg]
            exact h _ ⟨[g], .one hg, rfl, rfl⟩
          · rw [if_neg hg, if_neg hg]
  | seq q r ihq ihr =>
      intro next next' p h
      apply ihq
      rintro p₁ ⟨v, hv, past⟩
      apply ihr
      rintro p₂ ⟨w, hw, past'⟩
      exact h p₂ ⟨v ++ w, .seq hv hw, past.trans past'⟩
  | choice q r ihq ihr =>
      intro next next' p h
      have hq : q.run next p = q.run next' p := by
        apply ihq
        rintro p' ⟨w, hw, past⟩
        exact h p' ⟨w, .left hw, past⟩
      have hr : r.run next p = r.run next' p := by
        apply ihr
        rintro p' ⟨w, hw, past⟩
        exact h p' ⟨w, .right hw, past⟩
      rw [run_choice, run_choice, hq, hr]
  | many q ih =>
      intro next next' p h
      exact rounds_congr ih p.left p h

-- ── Repetitions unfold ──────────────────────────────────────────────────────

/-- A pattern that describes no empty text leads to where less is left. -/
theorem Leads.shorter {q : Pattern} (hq : ¬ q.Describes []) {p p' : Place} (h : Leads q p p') :
    p'.left.length < p.left.length := by
  obtain ⟨w, hw, past⟩ := h
  have hne : w ≠ [] := fun hnil => hq (hnil ▸ hw)
  have hpos := List.length_pos_iff.mpr hne
  rw [past.left, List.length_append]
  omega

theorem run_eq_none_at_end {q : Pattern} (hq : ¬ q.Describes []) {p : Place} (hp : p.left = [])
    (next : Continuation) : q.run next p = none := by
  cases h : q.run next p with
  | none => rfl
  | some stop =>
      obtain ⟨p', hlead, -⟩ := run_leads next p stop h
      have hshort := hlead.shorter hq
      rw [hp] at hshort
      exact absurd hshort (Nat.not_lt_zero _)

/-- More rounds than there are glyphs left change nothing. -/
theorem rounds_bound {q : Pattern} (hq : ¬ q.Describes []) (next : Continuation) :
    ∀ (bound bound' : Text) (p : Place), p.left.length ≤ bound.length →
      p.left.length ≤ bound'.length →
      rounds q.run bound next p = rounds q.run bound' next p := by
  have hend : ∀ (bound : Text) (p : Place), p.left = [] → rounds q.run bound next p = next p := by
    intro bound p hp
    cases bound with
    | nil => rfl
    | cons b bound => rw [rounds_cons, run_eq_none_at_end hq hp, Option.none_or]
  intro bound
  induction bound with
  | nil =>
      intro bound' p hb _
      have hp : p.left = [] := List.length_eq_zero_iff.mp (Nat.le_zero.mp hb)
      rw [hend [] p hp, hend bound' p hp]
  | cons b bound ih =>
      intro bound' p hb hb'
      cases bound' with
      | nil =>
          have hp : p.left = [] := List.length_eq_zero_iff.mp (Nat.le_zero.mp hb')
          rw [hend [] p hp, hend (b :: bound) p hp]
      | cons b' bound' =>
          rw [List.length_cons] at hb hb'
          have hround : q.run (rounds q.run bound next) p = q.run (rounds q.run bound' next) p := by
            apply run_congr
            intro p' hlead
            have hshort := hlead.shorter hq
            exact ih bound' p' (by omega) (by omega)
          rw [rounds_cons, rounds_cons, hround]

/-- **A REPETITION UNFOLDS**: one more round and the repetition again, or else its end. -/
theorem run_many_unfold {q : Pattern} (hq : ¬ q.Describes []) (next : Continuation) (p : Place) :
    (many q).run next p = (q.run ((many q).run next) p).or (next p) := by
  obtain ⟨taken, left⟩ := p
  cases left with
  | nil => rw [run_eq_none_at_end hq rfl, Option.none_or, run_many, rounds]
  | cons g rest =>
      rw [run_many, rounds_cons]
      congr 1
      apply run_congr
      intro p' hlead
      have hshort := hlead.shorter hq
      rw [List.length_cons] at hshort
      exact rounds_bound hq next rest p'.left p' (by omega) (Nat.le_refl _)

-- ── Runs of a class of glyphs ───────────────────────────────────────────────

/-- The place behind the glyphs of a class. -/
def Place.behind (accepts : Glyph → Bool) (p : Place) : Place :=
  ⟨p.taken + (p.left.takeWhile accepts).length, p.left.dropWhile accepts⟩

theorem Place.behind_cons_of_pos {accepts : Glyph → Bool} {g : Glyph} (hg : accepts g = true)
    (taken : Nat) (rest : Text) :
    Place.behind accepts ⟨taken, g :: rest⟩ = Place.behind accepts ⟨taken + 1, rest⟩ := by
  simp only [Place.behind, List.takeWhile_cons_of_pos hg, List.dropWhile_cons_of_pos hg,
    List.length_cons]
  congr 1
  omega

theorem Place.behind_cons_of_neg {accepts : Glyph → Bool} {g : Glyph} (hg : ¬ accepts g = true)
    (taken : Nat) (rest : Text) :
    Place.behind accepts ⟨taken, g :: rest⟩ = ⟨taken, g :: rest⟩ := by
  simp only [Place.behind, List.takeWhile_cons_of_neg hg, List.dropWhile_cons_of_neg hg,
    List.length_nil, Nat.add_zero]

theorem Place.past_behind (accepts : Glyph → Bool) (p : Place) :
    p.Past (p.left.takeWhile accepts) (p.behind accepts) :=
  ⟨List.takeWhile_append_dropWhile.symm, rfl⟩

/-- A run of a class is taken whole, if what comes next succeeds behind it or could not
    start with a glyph of the class. -/
theorem run_many_one {accepts : Glyph → Bool} {next : Continuation} (p : Place)
    (h : (next (p.behind accepts)).isSome = true
      ∨ ∀ p' : Place, (∃ g ∈ p'.left.head?, accepts g = true) → next p' = none) :
    (many (one accepts)).run next p = next (p.behind accepts) := by
  obtain ⟨taken, left⟩ := p
  induction left generalizing taken with
  | nil =>
      rw [run_many_unfold (not_describes_one_nil _),
        run_eq_none_at_end (not_describes_one_nil _) rfl, Option.none_or]
      rfl
  | cons g rest ih =>
      rw [run_many_unfold (not_describes_one_nil _), run_one_cons]
      by_cases hg : accepts g = true
      · rw [Place.behind_cons_of_pos hg] at h ⊢
        rw [if_pos hg, ih (taken + 1) h]
        rcases h with hsome | hfail
        · obtain ⟨stop, hstop⟩ := Option.isSome_iff_exists.mp hsome
          rw [hstop, Option.some_or]
        · rw [hfail ⟨taken, g :: rest⟩ ⟨g, rfl, hg⟩, Option.or_none]
      · rw [if_neg hg, Option.none_or, Place.behind_cons_of_neg hg]

-- ── Matching does not look back ─────────────────────────────────────────────

/-- The same place in a text with `n` more glyphs in front. -/
def Place.moved (n : Nat) (p : Place) : Place :=
  ⟨n + p.taken, p.left⟩

theorem rounds_moved {q : Pattern} {n : Nat}
    (ih : ∀ {next next' : Continuation}, (∀ p, next' (p.moved n) = (next p).map (Place.moved n)) →
      ∀ p, q.run next' (p.moved n) = (q.run next p).map (Place.moved n))
    {next next' : Continuation} (h : ∀ p, next' (p.moved n) = (next p).map (Place.moved n)) :
    ∀ (bound : Text) (p : Place),
      rounds q.run bound next' (p.moved n) = (rounds q.run bound next p).map (Place.moved n) := by
  intro bound
  induction bound with
  | nil => exact h
  | cons b bound ihb =>
      intro p
      rw [rounds_cons, rounds_cons, ih ihb p, h p, Option.map_or]

/-- **MATCHING DOES NOT LOOK BACK**: in a text with more glyphs in front, the same is
    matched, so many places further on. -/
theorem run_moved {q : Pattern} {n : Nat} :
    ∀ {next next' : Continuation}, (∀ p, next' (p.moved n) = (next p).map (Place.moved n)) →
      ∀ p, q.run next' (p.moved n) = (q.run next p).map (Place.moved n) := by
  induction q with
  | empty => exact fun h => h
  | one accepts =>
      intro next next' h p
      obtain ⟨taken, left⟩ := p
      cases left with
      | nil => rfl
      | cons g rest =>
          rw [Place.moved, run_one_cons, run_one_cons]
          by_cases hg : accepts g = true
          · rw [if_pos hg, if_pos hg]
            exact h ⟨taken + 1, rest⟩
          · rw [if_neg hg, if_neg hg]
            rfl
  | seq q r ihq ihr => exact fun h => ihq (ihr h)
  | choice q r ihq ihr =>
      intro next next' h p
      rw [run_choice, run_choice, ihq h p, ihr h p, Option.map_or]
  | many q ih =>
      intro next next' h p
      exact rounds_moved ih h p.left p

theorem stop?_moved (q : Pattern) (n : Nat) (p : Place) :
    q.stop? (p.moved n) = (q.stop? p).map (Place.moved n) :=
  run_moved (fun _ => rfl) p

end SketchMerge.Pattern
