import SketchMerge.Proofs.Sketch.ForwardScan

/-! # The tiles of a text

    The leading trivia are tiled from left to right, and at each place the longest
    tile is taken.  Since no tile is empty, there are never more tiles than glyphs:
    the tiling comes to its end by itself, and there no kind of trivia fits
    (`stop?_locate`).

    What is tiled behind a place depends on nothing in front of it.  So a text that
    is cut off between two tiles has the tiles that were left, moved to its start
    (`spans_behind`). -/

namespace SketchMerge.Trivia

open Pattern

-- ── The longest tile ────────────────────────────────────────────────────────

/-- No kind of trivia is empty. -/
theorem not_describes_pattern_nil (kind : Trivia) : ¬ kind.pattern.Describes [] := by
  intro h
  cases kind with
  | directive =>
      generalize hw : ([] : Text) = w at h
      cases h with
      | seq _ ht =>
          rw [(List.append_eq_nil_iff.mp hw.symm).2] at ht
          exact not_describes_seq_one_nil _ _ ht
  | lineComment => exact not_describes_seq_one_nil _ _ h
  | blockComment => exact not_describes_seq_one_nil _ _ h
  | whitespace => exact not_describes_seq_one_nil _ _ h

/-- So every match is a tile. -/
theorem tile?_eq_stop? (kind : Trivia) (p : Place) : kind.tile? p = kind.pattern.stop? p := by
  rw [tile?]
  cases h : kind.pattern.stop? p with
  | none => rfl
  | some q =>
      obtain ⟨w, hw, past⟩ := stop?_leads h
      have hne : w ≠ [] := fun hnil => not_describes_pattern_nil kind (hnil ▸ hw)
      have hpos := List.length_pos_iff.mpr hne
      have htaken := past.taken
      rw [Option.filter_some, if_pos (decide_eq_true (by omega))]

theorem longer_max {a b : Option (Trivia × Place)} {x y : Trivia × Place}
    (h : longer a b = some x) (hy : a = some y ∨ b = some y) : y.2.taken ≤ x.2.taken := by
  cases a with
  | none =>
      rcases hy with hy | hy
      · exact absurd hy.symm (Option.some_ne_none y)
      · subst hy
        obtain rfl : y = x := Option.some.inj h
        exact Nat.le_refl _
  | some c =>
      cases b with
      | none =>
          rcases hy with hy | hy
          · obtain rfl : c = x := Option.some.inj h
            obtain rfl : c = y := Option.some.inj hy
            exact Nat.le_refl _
          · exact absurd hy.symm (Option.some_ne_none y)
      | some d =>
          rw [longer] at h
          rcases hy with hy | hy
          · obtain rfl := Option.some.inj hy
            split at h
            · obtain rfl := Option.some.inj h
              omega
            · obtain rfl := Option.some.inj h
              exact Nat.le_refl _
          · obtain rfl := Option.some.inj hy
            split at h
            · obtain rfl := Option.some.inj h
              exact Nat.le_refl _
            · obtain rfl := Option.some.inj h
              omega

theorem foldl_longer_max {x : Trivia × Place} :
    ∀ (tiles : List (Option (Trivia × Place))) {y : Trivia × Place}
      (first : Option (Trivia × Place)), tiles.foldl longer first = some x →
      first = some y ∨ some y ∈ tiles → y.2.taken ≤ x.2.taken := by
  intro tiles
  induction tiles with
  | nil =>
      intro y first h hy
      rcases hy with hy | hy
      · obtain rfl : y = x := Option.some.inj (hy.symm.trans h)
        exact Nat.le_refl _
      · exact absurd hy List.not_mem_nil
  | cons tile tiles ih =>
      intro y first h hy
      by_cases hrest : some y ∈ tiles
      · exact ih _ h (.inr hrest)
      · have hy : first = some y ∨ tile = some y := by
          rcases hy with hy | hy
          · exact .inl hy
          · rcases List.mem_cons.mp hy with hy | hy
            · exact .inr hy.symm
            · exact absurd hy hrest
        cases hz : longer first tile with
        | none =>
            obtain ⟨hfirst, htile⟩ := longer_eq_none hz
            rw [hfirst, htile] at hy
            rcases hy with hy | hy
            · exact absurd hy.symm (Option.some_ne_none y)
            · exact absurd hy.symm (Option.some_ne_none y)
        | some z => exact Nat.le_trans (longer_max hz hy) (ih _ h (.inl hz))

theorem mem_all (kind : Trivia) : kind ∈ all := by
  cases kind <;> decide

/-- **THE TILE THAT IS TAKEN IS THE LONGEST**: no kind has a longer one. -/
theorem longest?_max {p q q' : Place} {kind kind' : Trivia} (h : longest? p = some (kind, q))
    (h' : kind'.tile? p = some q') : q'.taken ≤ q.taken := by
  refine foldl_longer_max (y := (kind', q')) _ none h (.inr ?_)
  refine List.mem_map.mpr ⟨kind', mem_all kind', ?_⟩
  rw [h']
  rfl

/-- Behind a run of blanks there is no blank. -/
theorem whitespace_tile_once {p q : Place} (h : Trivia.whitespace.tile? p = some q) :
    Trivia.whitespace.tile? q = none := by
  rw [tile?_eq_stop?, stop?_eq_forward?] at h ⊢
  have hq : q = p.behind Glyph.isBlank := by
    rw [forward?] at h
    split at h
    · exact (Option.some.inj (Option.ite_none_right_eq_some.mp h).2).symm
    · exact absurd h.symm (Option.some_ne_none q)
  rw [forward?]
  cases hleft : q.left with
  | nil => rfl
  | cons g rest =>
      have hg : g.isBlank = false := by
        have hhead := List.head?_dropWhile_not Glyph.isBlank p.left
        rw [hq, Place.behind] at hleft
        dsimp only at hleft
        rw [hleft] at hhead
        exact hhead
      dsimp only
      rw [hg, if_neg Bool.false_ne_true]

-- ── Tiling does not look back ───────────────────────────────────────────────

/-- The same stretch in a text with `n` more glyphs in front. -/
def Span.moved (n : Nat) (s : Span) : Span :=
  ⟨s.kind, n + s.start, n + s.stop⟩

theorem tile?_moved (kind : Trivia) (n : Nat) (p : Place) :
    kind.tile? (p.moved n) = (kind.tile? p).map (Place.moved n) := by
  rw [tile?_eq_stop?, tile?_eq_stop?, stop?_moved]

/-- The choice between two tiles does not depend on where they start. -/
theorem longer_moved (n : Nat) (a b : Option (Trivia × Place)) :
    longer (a.map fun x => (x.1, x.2.moved n)) (b.map fun x => (x.1, x.2.moved n))
      = (longer a b).map fun x => (x.1, x.2.moved n) := by
  cases a with
  | none => rfl
  | some x =>
      cases b with
      | none => rfl
      | some y =>
          simp only [Option.map_some, longer, Place.moved, Nat.add_lt_add_iff_left]
          split
          · rfl
          · rfl

theorem longest?_moved (n : Nat) (p : Place) :
    longest? (p.moved n) = (longest? p).map fun x => (x.1, x.2.moved n) := by
  have htiles : (all.map fun kind => (kind.tile? (p.moved n)).map (kind, ·))
      = (all.map fun kind => (kind.tile? p).map (kind, ·)).map
          (Option.map fun x => (x.1, x.2.moved n)) := by
    rw [List.map_map]
    refine List.map_congr_left fun kind _ => ?_
    simp only [tile?_moved, Function.comp, Option.map_map]
    rfl
  have hfold : ∀ (tiles : List (Option (Trivia × Place))) (first : Option (Trivia × Place)),
      (tiles.map (Option.map fun x => (x.1, x.2.moved n))).foldl longer
          (first.map fun x => (x.1, x.2.moved n))
        = (tiles.foldl longer first).map fun x => (x.1, x.2.moved n) := by
    intro tiles
    induction tiles with
    | nil => exact fun first => rfl
    | cons tile tiles ih =>
        intro first
        rw [List.map_cons, List.foldl_cons, List.foldl_cons, longer_moved, ih]
  rw [longest?, htiles]
  exact hfold _ none

theorem spansFrom_moved (n : Nat) :
    ∀ (fuel : Nat) (p : Place),
      spansFrom fuel (p.moved n) = (spansFrom fuel p).map (Span.moved n) := by
  intro fuel
  induction fuel with
  | zero => exact fun p => rfl
  | succ fuel ih =>
      intro p
      have hmoved := longest?_moved n p
      cases h : longest? p with
      | none =>
          rw [h] at hmoved
          rw [spansFrom_of_none h, spansFrom_of_none hmoved]
          rfl
      | some x =>
          obtain ⟨kind, q⟩ := x
          rw [h] at hmoved
          rw [spansFrom_of_some h, spansFrom_of_some hmoved, ih q]
          rfl

-- ── Where the tiles stand ───────────────────────────────────────────────────

/-- A tile leaves less of the text. -/
theorem longest?_shorter {p q : Place} {kind : Trivia} (h : longest? p = some (kind, q)) :
    q.left.length < p.left.length := by
  obtain ⟨w, hne, past, -⟩ := tile?_spec (longest?_tile h)
  have hpos := List.length_pos_iff.mpr hne
  rw [past.left, List.length_append]
  omega

theorem longest?_eq_none_at_end {p : Place} (hp : p.left.length ≤ 0) : longest? p = none := by
  cases h : longest? p with
  | none => rfl
  | some x =>
      obtain ⟨kind, q⟩ := x
      have := longest?_shorter h
      omega

/-- More rounds than there are glyphs left make no further tile. -/
theorem spansFrom_enough :
    ∀ (fuel fuel' : Nat) (p : Place), p.left.length ≤ fuel → p.left.length ≤ fuel' →
      spansFrom fuel p = spansFrom fuel' p := by
  intro fuel
  induction fuel with
  | zero =>
      intro fuel' p hp _
      cases fuel' with
      | zero => rfl
      | succ fuel' => rw [spansFrom_of_none (longest?_eq_none_at_end hp), spansFrom]
  | succ fuel ih =>
      intro fuel' p hp hp'
      cases h : longest? p with
      | none =>
          rw [spansFrom_of_none h]
          cases fuel' with
          | zero => rfl
          | succ fuel' => rw [spansFrom_of_none h]
      | some x =>
          obtain ⟨kind, q⟩ := x
          have hshort := longest?_shorter h
          cases fuel' with
          | zero => omega
          | succ fuel' =>
              rw [spansFrom_of_some h, spansFrom_of_some h, ih fuel' q (by omega) (by omega)]

/-- The position at which spans end that start at `n`. -/
def endFrom (n : Nat) (ss : List Span) : Nat :=
  (ss.getLast?.map Span.stop).getD n

theorem endFrom_cons (n : Nat) (s : Span) (ss : List Span) :
    endFrom n (s :: ss) = endFrom s.stop ss := by
  cases ss with
  | nil => rfl
  | cons s' ss => simp [endFrom, List.getLast?_cons]

theorem locate_eq_endFrom (t : Text) : locate t = endFrom 0 (spans t) := by
  rw [locate, endFrom]
  cases (spans t).getLast? with
  | none => rfl
  | some last => rfl

theorem Within.eq {t : Text} {p : Place} (h : Within t p) : p = ⟨p.taken, t.drop p.taken⟩ := by
  obtain ⟨taken, left⟩ := p
  have hleft : left = t.drop taken := h.2
  rw [hleft]

/-- What remains of the tiles is what is tiled from the place where the others end. -/
theorem spansFrom_split {t : Text} :
    ∀ (before : List Span) {after : List Span} {fuel : Nat} {p : Place}, Within t p →
      p.left.length ≤ fuel → spansFrom fuel p = before ++ after →
      ∃ fuel' q, Within t q ∧ q.left.length ≤ fuel' ∧ after = spansFrom fuel' q
        ∧ q.taken = endFrom p.taken before := by
  intro before
  induction before with
  | nil =>
      intro after fuel p hp hfuel h
      exact ⟨fuel, p, hp, hfuel, h.symm, rfl⟩
  | cons s before ih =>
      intro after fuel p hp hfuel h
      cases hl : longest? p with
      | none =>
          cases fuel with
          | zero => exact absurd h.symm (List.cons_ne_nil _ _)
          | succ fuel =>
              rw [spansFrom_of_none hl] at h
              exact absurd h.symm (List.cons_ne_nil _ _)
      | some x =>
          obtain ⟨kind, q⟩ := x
          have hshort := longest?_shorter hl
          cases fuel with
          | zero => omega
          | succ fuel =>
              rw [spansFrom_of_some hl, List.cons_append] at h
              obtain ⟨hs, hrest⟩ := List.cons.inj h
              obtain ⟨w, -, past, -⟩ := tile?_spec (longest?_tile hl)
              obtain ⟨fuel', r, hr, hfuel', hafter, htaken⟩ :=
                ih (hp.past past).1 (by omega) hrest
              refine ⟨fuel', r, hr, hfuel', hafter, ?_⟩
              rw [endFrom_cons, htaken, ← hs]

/-- A tile among others: the place where it starts, and what follows it. -/
theorem spans_around {t : Text} (before : List Span) {after : List Span} {s : Span}
    (h : spans t = before ++ s :: after) :
    ∃ fuel q, Within t q ∧ s.start = endFrom 0 before
      ∧ longest? ⟨s.start, t.drop s.start⟩ = some (s.kind, q) ∧ q.taken = s.stop
      ∧ after = spansFrom fuel q := by
  obtain ⟨fuel, p, hp, hfuel, hafter, htaken⟩ :=
    spansFrom_split before (within_start t) (Nat.le_refl t.length) h
  cases hl : longest? p with
  | none =>
      cases fuel with
      | zero => exact absurd hafter (List.cons_ne_nil _ _)
      | succ fuel =>
          rw [spansFrom_of_none hl] at hafter
          exact absurd hafter (List.cons_ne_nil _ _)
  | some x =>
      obtain ⟨kind, q⟩ := x
      cases fuel with
      | zero => exact absurd hafter (List.cons_ne_nil _ _)
      | succ fuel =>
          rw [spansFrom_of_some hl] at hafter
          obtain ⟨rfl, hrest⟩ := List.cons.inj hafter
          obtain ⟨w, -, past, -⟩ := tile?_spec (longest?_tile hl)
          refine ⟨fuel, q, (hp.past past).1, htaken, ?_, rfl, hrest⟩
          rw [← hp.eq]
          exact hl

/-- The spans follow each other from `a` up to `b` without a gap, and none is empty. -/
def Follow : Nat → List Span → Nat → Prop
  | a, [], b => a = b
  | a, s :: rest, b => s.start = a ∧ s.start < s.stop ∧ Follow s.stop rest b

theorem spansFrom_follow :
    ∀ (fuel : Nat) (p : Place),
      Follow p.taken (spansFrom fuel p) (endFrom p.taken (spansFrom fuel p)) := by
  intro fuel
  induction fuel with
  | zero => exact fun p => rfl
  | succ fuel ih =>
      intro p
      cases h : longest? p with
      | none =>
          rw [spansFrom_of_none h]
          rfl
      | some x =>
          obtain ⟨kind, q⟩ := x
          obtain ⟨w, hne, past, -⟩ := tile?_spec (longest?_tile h)
          have hpos := List.length_pos_iff.mpr hne
          have htaken := past.taken
          rw [spansFrom_of_some h, endFrom_cons]
          exact ⟨rfl, show p.taken < q.taken by omega, ih q⟩

/-- At the insertion point no kind of trivia fits. -/
theorem stop?_locate (t : Text) (kind : Trivia) :
    kind.pattern.stop? ⟨locate t, t.drop (locate t)⟩ = none := by
  have hnone := tile?_eq_none (longest?_insertionPlace t) kind
  rw [(within_insertionPlace t).eq, ← locate_eq_taken, tile?_eq_stop?] at hnone
  exact hnone

/-- The tiles of the rest of a text, from a place between two tiles on. -/
theorem spans_behind {t : Text} {before after : List Span} (h : spans t = before ++ after) :
    after = (spans (t.drop (endFrom 0 before))).map (Span.moved (endFrom 0 before)) := by
  obtain ⟨fuel, q, hq, hfuel, hafter, htaken⟩ :=
    spansFrom_split before (within_start t) (Nat.le_refl t.length) h
  have hleft : q.left = t.drop (endFrom 0 before) := by
    rw [hq.2, htaken]
  have hmoved : q = Place.moved (endFrom 0 before) ⟨0, t.drop (endFrom 0 before)⟩ := by
    rw [hq.eq, htaken]
    rfl
  rw [hafter, spansFrom_enough fuel q.left.length q hfuel (Nat.le_refl _), hleft, hmoved,
    spansFrom_moved]
  rfl

/-- **THE LEADING TRIVIA ARE TILED.**  The tiling of a text comes to its end by itself.  Its
    spans start at 0, follow each other without a gap, none of them empty, and end at the
    insertion point.  Each of them is what its kind matches where it starts, and no kind
    matches more there; no two neighbours are both blanks.  At the insertion point nothing
    matches.  And cut off in front of any span, or behind the last one, the text has the
    spans that were left. -/
theorem spans_tile (t : Text) :
    (∀ fuel, t.length ≤ fuel → spansFrom fuel ⟨0, t⟩ = spans t)
    ∧ Follow 0 (spans t) (locate t)
    ∧ (∀ s ∈ spans t,
        s.kind.pattern.stop? ⟨s.start, t.drop s.start⟩ = some ⟨s.stop, t.drop s.stop⟩
        ∧ ∀ (kind : Trivia) (q : Place),
            kind.pattern.stop? ⟨s.start, t.drop s.start⟩ = some q → q.taken ≤ s.stop)
    ∧ (∀ before s s' after, spans t = before ++ s :: s' :: after →
        ¬ (s.kind = .whitespace ∧ s'.kind = .whitespace))
    ∧ (∀ kind : Trivia, kind.pattern.stop? ⟨locate t, t.drop (locate t)⟩ = none)
    ∧ (∀ before after, spans t = before ++ after →
        after = (spans (t.drop (endFrom 0 before))).map (Span.moved (endFrom 0 before)))
    ∧ locate (t.drop (locate t)) = 0 := by
  refine ⟨?_, ?_, ?_, ?_, stop?_locate t, fun before after => spans_behind, ?_⟩
  · intro fuel hfuel
    exact spansFrom_enough fuel t.length ⟨0, t⟩ hfuel (Nat.le_refl _)
  · rw [locate_eq_endFrom]
    exact spansFrom_follow t.length ⟨0, t⟩
  · intro s hs
    obtain ⟨before, after, hsplit⟩ := List.append_of_mem hs
    obtain ⟨-, q, hq, -, hlongest, hstop, -⟩ := spans_around before hsplit
    have htile := longest?_tile hlongest
    rw [tile?_eq_stop?] at htile
    rw [hq.eq, hstop] at htile
    refine ⟨htile, fun kind q' hq' => ?_⟩
    rw [← tile?_eq_stop?] at hq'
    rw [← hstop]
    exact longest?_max hlongest hq'
  · rintro before s s' after hsplit ⟨hs, hs'⟩
    obtain ⟨fuel, q, hq, -, hlongest, hstop, hafter⟩ := spans_around before hsplit
    obtain ⟨-, q', -, hstart, hlongest', -, -⟩ :=
      spans_around (before ++ [s]) (hsplit.trans (List.append_cons before s _))
    -- the second one would start where the first one ends
    have hnext : s'.start = q.taken := by
      rw [hstart, hstop, endFrom, List.getLast?_concat]
      rfl
    have htile := longest?_tile hlongest
    have htile' := longest?_tile hlongest'
    rw [hnext, ← hq.eq] at htile'
    rw [hs] at htile
    rw [hs', whitespace_tile_once htile] at htile'
    exact absurd htile'.symm (Option.some_ne_none q')
  · have hnil := spans_behind (List.append_nil (spans t)).symm
    rw [← locate_eq_endFrom] at hnil
    rw [locate, List.map_eq_nil_iff.mp hnil.symm]
    rfl

end SketchMerge.Trivia
