import SketchMerge.Proofs.Sketch.Tiling
import SketchMerge.Proofs.Text.Splitting
import SketchMerge.Sketch.Compose

/-! # Where sources lie in a unified text

    A unified text is the pieces of its sources one after the other, and a piece
    is a marker, if markers are wanted, and the closed content.  A position that
    lies in no marker lies in the content of one source (`exists_source_of_clear`),
    and the number of its line is then counted from the start of that content
    (`lineNumberAt_marked`), or from the start of the text where there are no
    markers (`lineNumberAt_unmarked`). -/

namespace SketchMerge

namespace Text

/-- The text is empty or ends in a newline. -/
def Closed (t : Text) : Prop :=
  t = [] ∨ ∃ s, t = s ++ [Glyph.newline]

theorem closed_closeLine (t : Text) : (closeLine t).Closed := by
  rw [closeLine]
  by_cases h : (t.isEmpty || t.getLast? == some Glyph.newline) = true
  · rw [if_pos h]
    rcases Bool.or_eq_true _ _ ▸ h with hnil | hlast
    · exact .inl (List.isEmpty_iff.mp hnil)
    · obtain ⟨s, hs⟩ := List.getLast?_eq_some_iff.mp (beq_iff_eq.mp hlast)
      exact .inr ⟨s, hs⟩
  · rw [if_neg h]
    exact .inr ⟨t, rfl⟩

theorem Closed.append {s t : Text} (hs : s.Closed) (ht : t.Closed) : (s ++ t).Closed := by
  rcases ht with rfl | ⟨u, rfl⟩
  · rw [List.append_nil]
    exact hs
  · exact .inr ⟨s ++ u, (List.append_assoc ..).symm⟩

theorem Closed.lastLine {t : Text} (h : t.Closed) : t.lastLine = [] := by
  rcases h with rfl | ⟨s, rfl⟩
  · rfl
  · exact lastLine_newline s

/-- A closed line is over before the content ends. -/
theorem Closed.exists_newline {u v : Text} (h : (u ++ v).Closed) (hv : v ≠ []) :
    Glyph.newline ∈ v := by
  rcases h with hnil | ⟨s, hs⟩
  · exact absurd (List.append_eq_nil_iff.mp hnil).2 hv
  · have hlast := congrArg List.getLast? hs
    rw [List.getLast?_append, List.getLast?_eq_some_getLast hv, Option.some_or,
      List.getLast?_concat] at hlast
    exact Option.some.inj hlast ▸ List.getLast_mem hv

end Text

namespace Buffer

/-- The line of a marker without its line end. -/
def markerLine (name : Text) : Text :=
  "#line 1 \"" ++ name ++ "\""

theorem markerFor_eq (name : Text) : markerFor name = markerLine name ++ [Glyph.newline] := by
  rw [markerFor, markerLine, List.append_assoc, List.append_assoc, List.append_assoc]
  rfl

/-- The line of a marker is cut by no tile. -/
theorem markerLine_bar {name : Text} (hslash : Path.slash ∉ name)
    (hnewline : Glyph.newline ∉ name) : Trivia.Bar (markerLine name) := by
  refine ⟨rfl, ?_, ?_⟩
  · intro h
    rcases List.mem_append.mp h with h | h
    · rcases List.mem_append.mp h with h | h
      · exact absurd h (by decide)
      · exact hslash h
    · exact absurd h (by decide)
  · intro h
    rcases List.mem_append.mp h with h | h
    · rcases List.mem_append.mp h with h | h
      · exact absurd h (by decide)
      · exact hnewline h
    · exact absurd h (by decide)

theorem pieceOf_marked (s : Source) :
    pieceOf true s = markerFor s.name ++ Text.closeLine s.content := rfl

theorem unify_text (markers : Bool) (sources : List Source) :
    (unify markers sources).text = sources.flatMap (pieceOf markers) := rfl

/-- The text around one source. -/
theorem unify_text_split (markers : Bool) (before : List Source) (s : Source)
    (after : List Source) :
    (unify markers (before ++ s :: after)).text
      = before.flatMap (pieceOf markers)
        ++ (pieceOf markers s ++ after.flatMap (pieceOf markers)) := by
  rw [unify_text, List.flatMap_append, List.flatMap_cons]

/-- The position lies in no marker of the sources that are joined from 0 on. -/
def ClearOfMarkers (sources : List Source) (o : Nat) : Prop :=
  ∀ before s after, sources = before ++ s :: after →
    o < (before.flatMap (pieceOf true)).length
      ∨ (before.flatMap (pieceOf true)).length + (markerFor s.name).length ≤ o

/-- **A POSITION OUTSIDE OF THE MARKERS LIES IN THE CONTENT OF A SOURCE**, and at its
    end only if no further source follows. -/
theorem exists_source_of_clear :
    ∀ (sources : List Source) (o : Nat), sources ≠ [] →
      o ≤ (sources.flatMap (pieceOf true)).length → ClearOfMarkers sources o →
      ∃ before s after u v, sources = before ++ s :: after ∧ Text.closeLine s.content = u ++ v
        ∧ o = (before.flatMap (pieceOf true) ++ markerFor s.name ++ u).length
        ∧ (v = [] → after = []) := by
  intro sources
  induction sources with
  | nil => exact fun o hne => absurd rfl hne
  | cons s rest ih =>
      intro o _ hle hclear
      have hmarker : (markerFor s.name).length ≤ o := by
        rcases hclear [] s rest rfl with h | h
        · exact absurd h (Nat.not_lt_zero o)
        · rw [List.flatMap_nil, List.length_nil, Nat.zero_add] at h
          exact h
      generalize hc : Text.closeLine s.content = c
      rw [List.flatMap_cons, pieceOf_marked, hc, List.length_append, List.length_append] at hle
      rcases Nat.lt_or_ge (o - (markerFor s.name).length) c.length with hlt | hge
      · -- the position lies inside of the first content
        refine ⟨[], s, rest, c.take (o - (markerFor s.name).length),
          c.drop (o - (markerFor s.name).length), rfl, ?_, ?_, ?_⟩
        · rw [hc, List.take_append_drop]
        · rw [List.flatMap_nil, List.nil_append, List.length_append,
            List.length_take_of_le (Nat.le_of_lt hlt)]
          omega
        · intro hnil
          have := List.length_drop (l := c) (i := o - (markerFor s.name).length)
          rw [hnil, List.length_nil] at this
          omega
      · cases rest with
        | nil =>
            rw [List.flatMap_nil, List.length_nil] at hle
            refine ⟨[], s, [], c, [], rfl, ?_, ?_, fun _ => rfl⟩
            · rw [hc, List.append_nil]
            · rw [List.flatMap_nil, List.nil_append, List.length_append]
              omega
        | cons s' rest =>
            -- the position lies behind the first piece, so the others hold it
            have hpiece : (pieceOf true s).length = (markerFor s.name).length + c.length := by
              rw [pieceOf_marked, hc, List.length_append]
            obtain ⟨before, t, after, u, v, hsplit, hcontent, ho, hend⟩ :=
              ih (o - (pieceOf true s).length) (List.cons_ne_nil _ _) (by omega) (by
                intro before t after hsplit
                have := hclear (s :: before) t after (by rw [hsplit]; rfl)
                rw [List.flatMap_cons, List.length_append] at this
                omega)
            refine ⟨s :: before, t, after, u, v, by rw [hsplit]; rfl, hcontent, ?_, hend⟩
            rw [List.flatMap_cons, List.append_assoc, List.append_assoc, List.length_append,
              ← List.append_assoc, ← ho]
            omega

/-- The insertion point lies in no marker. -/
theorem locate_clear {sources : List Source}
    (h : ∀ s ∈ sources, Path.slash ∉ s.name ∧ Glyph.newline ∉ s.name) :
    ClearOfMarkers sources (Trivia.locate (unify true sources).text) := by
  rintro before s after rfl
  obtain ⟨hslash, hnewline⟩ := h s (List.mem_append_right _ (List.mem_cons_self ..))
  have hsplit : (unify true (before ++ s :: after)).text
      = before.flatMap (pieceOf true) ++ markerLine s.name
        ++ Glyph.newline :: (Text.closeLine s.content ++ after.flatMap (pieceOf true)) := by
    rw [unify_text_split, pieceOf_marked, markerFor_eq]
    simp only [List.append_assoc, List.cons_append, List.nil_append]
  rw [hsplit, markerFor_eq, List.length_append]
  rcases Trivia.locate_avoids_line (markerLine_bar hslash hnewline) with hlt | hgt
  · exact .inl hlt
  · exact .inr hgt

-- ── Segments ────────────────────────────────────────────────────────────────

/-- The number of lines that sources take, each marker being one. -/
def linesTaken (markers : Bool) : List Source → Nat
  | [] => 0
  | s :: sources =>
    (if markers then 1 else 0) + (Text.closeLine s.content).newlines + linesTaken markers sources

theorem length_pieceOf (markers : Bool) (s : Source) :
    (pieceOf markers s).length
      = (if markers then (markerFor s.name).length else 0)
        + (Text.closeLine s.content).length := by
  rw [pieceOf, List.length_append]
  cases markers with
  | false => rfl
  | true => rfl

theorem length_segmentsFrom (markers : Bool) (sources : List Source) :
    ∀ offset line : Nat, (segmentsFrom markers offset line sources).length = sources.length := by
  induction sources with
  | nil => exact fun _ _ => rfl
  | cons s sources ih =>
      intro offset line
      rw [segmentsFrom, List.length_cons, List.length_cons, ih]

/-- The segments of sources behind others continue their positions and lines. -/
theorem segmentsFrom_append (markers : Bool) (xs ys : List Source) :
    ∀ offset line : Nat, segmentsFrom markers offset line (xs ++ ys)
      = segmentsFrom markers offset line xs
        ++ segmentsFrom markers (offset + (xs.flatMap (pieceOf markers)).length)
          (line + linesTaken markers xs) ys := by
  induction xs with
  | nil => exact fun offset line => rfl
  | cons s xs ih =>
      intro offset line
      rw [List.cons_append, segmentsFrom, ih, segmentsFrom, List.cons_append, List.flatMap_cons,
        List.length_append, length_pieceOf, linesTaken]
      cases markers with
      | false => simp only [Bool.false_eq_true, if_false, Nat.zero_add, Nat.add_assoc]
      | true => simp only [if_true, Nat.add_assoc]

/-- No segment has its content behind the text of its sources. -/
theorem content_le_of_mem {markers : Bool} {xs : List Source} :
    ∀ {offset line : Nat} {seg : Segment}, seg ∈ segmentsFrom markers offset line xs →
      seg.content ≤ (offset + (xs.flatMap (pieceOf markers)).length : Nat) := by
  induction xs with
  | nil => exact fun h => nomatch h
  | cons s xs ih =>
      intro offset line seg h
      rw [segmentsFrom] at h
      rw [List.flatMap_cons, List.length_append, pieceOf, List.length_append]
      rcases List.mem_cons.mp h with rfl | h
      · cases markers with
        | false =>
            show ((offset : Nat) : Int) ≤ _
            omega
        | true =>
            show ((offset + (markerFor s.name).length : Nat) : Int)
              ≤ (offset + ((markerFor s.name).length + _ + _) : Nat)
            omega
      · have := ih h
        cases markers with
        | false =>
            refine Int.le_trans this ?_
            show ((offset + _ + _ : Nat) : Int) ≤ (offset + (0 + _ + _) : Nat)
            omega
        | true =>
            refine Int.le_trans this ?_
            show ((offset + (markerFor s.name).length + _ + _ : Nat) : Int)
              ≤ (offset + ((markerFor s.name).length + _ + _) : Nat)
            omega

/-- No segment starts on a line before those of its sources. -/
theorem line_le_of_mem {markers : Bool} {xs : List Source} :
    ∀ {offset line : Nat} {seg : Segment}, seg ∈ segmentsFrom markers offset line xs →
      (line : Int) ≤ seg.firstLine := by
  induction xs with
  | nil => exact fun h => nomatch h
  | cons s xs ih =>
      intro offset line seg h
      rw [segmentsFrom] at h
      have hfirst : line ≤ if markers then line + 1 else line := by split <;> omega
      rcases List.mem_cons.mp h with rfl | h
      · exact Int.ofNat_le.mpr hfirst
      · exact Int.le_trans (Int.ofNat_le.mpr (Nat.le_trans hfirst (Nat.le_add_right ..))) (ih h)

/-- A line counts for no more in its file than in the unified text. -/
theorem origin_le {markers : Bool} {sources : List Source} {line inFile : Int} {name : Text}
    (h : (unify markers sources).origin line = some (name, inFile)) :
    1 ≤ inFile ∧ inFile ≤ line := by
  obtain ⟨seg, hfind, heq⟩ := Option.map_eq_some_iff.mp h
  obtain ⟨-, rfl⟩ := Prod.mk.inj heq
  have hfirst : (1 : Nat) ≤ seg.firstLine := line_le_of_mem (List.mem_of_find?_eq_some hfind)
  have hrange := List.find?_some hfind
  rw [Bool.and_eq_true, decide_eq_true_eq, decide_eq_true_eq] at hrange
  omega

/-- The segment whose content holds a position is found. -/
theorem segmentHolding_marked (before : List Source) {after : List Source} {s : Source} {u v : Text}
    (hcontent : Text.closeLine s.content = u ++ v) (hend : v = [] → after = []) :
    ∃ seg, (unify true (before ++ s :: after)).segmentHolding
        (before.flatMap (pieceOf true) ++ markerFor s.name ++ u).length = some seg
      ∧ (unify true (before ++ s :: after)).segments[before.length]? = some seg
      ∧ seg.marker.isSome = true
      ∧ seg.content = (before.flatMap (pieceOf true) ++ markerFor s.name).length
      ∧ seg.lineCount = (Text.closeLine s.content).newlines := by
  have hsegments := segmentsFrom_append true before (s :: after) 0 1
  rw [Nat.zero_add] at hsegments
  have hle : ∀ x ∈ segmentsFrom true 0 1 before,
      x.content ≤ ((before.flatMap (pieceOf true)).length : Int) := by
    intro x hx
    have := content_le_of_mem hx
    rw [Nat.zero_add] at this
    exact this
  have hlen := congrArg List.length hcontent
  rw [List.length_append] at hlen
  rw [segmentsFrom] at hsegments
  rw [List.length_append, List.length_append]
  generalize (before.flatMap (pieceOf true)).length = a at hsegments hle
  generalize hseg : Segment.mk s.name _ _ _ _ = seg at hsegments
  have hstart : seg.content = (a + (markerFor s.name).length : Nat) := by
    rw [← hseg]
    rfl
  have hat : (segmentsFrom true 0 1 (before ++ s :: after))[before.length]? = some seg := by
    rw [hsegments, List.getElem?_append_right (Nat.le_of_eq (length_segmentsFrom ..)),
      length_segmentsFrom, Nat.sub_self]
    rfl
  refine ⟨seg, ?_, hat, by rw [← hseg]; rfl, hstart, by rw [← hseg]⟩
  generalize hn : a + (markerFor s.name).length + u.length = n
  have hbefore : ∀ x ∈ segmentsFrom true 0 1 before, decide (x.content ≤ (n : Int)) = true := by
    intro x hx
    have := hle x hx
    exact decide_eq_true (by omega)
  have hhere : decide (seg.content ≤ (n : Int)) = true :=
    decide_eq_true (by rw [hstart]; omega)
  show (List.takeWhile (fun x : Segment => decide (x.content ≤ (n : Int)))
    (segmentsFrom true 0 1 (before ++ s :: after))).getLast? = _
  rw [hsegments, List.takeWhile_append_of_pos hbefore,
    List.takeWhile_cons_of_pos (p := fun x : Segment => decide (x.content ≤ (n : Int))) hhere]
  cases after with
  | nil => rw [segmentsFrom, List.takeWhile_nil, List.getLast?_concat]
  | cons t after =>
      -- the next content starts behind the marker that follows
      have hv : v ≠ [] := fun h => nomatch hend h
      have hpos := List.length_pos_iff.mpr hv
      rw [segmentsFrom, List.takeWhile_cons_of_neg, List.getLast?_concat]
      rw [decide_eq_true_eq]
      show ¬ ((a + (markerFor s.name).length + (Text.closeLine s.content).length
        + (markerFor t.name).length : Nat) : Int) ≤ _
      omega

theorem clampPosition_of_le {length n : Nat} (h : n ≤ length) :
    Text.clampPosition length (n : Int) = n := by
  rw [Text.clampPosition, if_neg (by omega), Int.toNat_natCast, Nat.min_eq_left h]

/-- The newlines between two positions are those of the text between them. -/
theorem newlinesBetween_split (a u v : Text) :
    (a ++ u ++ v).newlinesBetween a.length (a ++ u).length = u.newlines := by
  rw [Text.newlinesBetween, clampPosition_of_le (by simp), clampPosition_of_le (by simp),
    Text.slice, List.take_left, List.drop_left]

/-- **THE LINE NUMBER BEHIND A MARKER** is counted from the start of the content. -/
theorem lineNumberAt_marked (before : List Source) {after : List Source} {s : Source} {u v : Text}
    (hcontent : Text.closeLine s.content = u ++ v) (hend : v = [] → after = []) :
    (unify true (before ++ s :: after)).lineNumberAt
      (before.flatMap (pieceOf true) ++ markerFor s.name ++ u).length = (u.newlines + 1 : Nat) := by
  obtain ⟨seg, hseg, -, hmarker, hstart, -⟩ := segmentHolding_marked before hcontent hend
  have htext : (unify true (before ++ s :: after)).text
      = before.flatMap (pieceOf true) ++ markerFor s.name ++ u
        ++ (v ++ after.flatMap (pieceOf true)) := by
    rw [unify_text_split, pieceOf_marked, hcontent]
    simp only [List.append_assoc]
  rw [lineNumberAt, hseg]
  dsimp only
  rw [if_pos hmarker, hstart, htext, newlinesBetween_split]
  rfl

/-- Without markers no segment has one. -/
theorem marker_eq_none {xs : List Source} :
    ∀ {offset line : Nat} {seg : Segment}, seg ∈ segmentsFrom false offset line xs →
      seg.marker = none := by
  induction xs with
  | nil => exact fun h => nomatch h
  | cons s xs ih =>
      intro offset line seg h
      rw [segmentsFrom] at h
      rcases List.mem_cons.mp h with rfl | h
      · rfl
      · exact ih h

theorem markerCount_unmarked (sources : List Source) (o : Int) :
    (unify false sources).markerCount o = 0 := by
  have hnone : (unify false sources).segments.filterMap Segment.marker = [] := by
    rw [List.filterMap_eq_nil_iff]
    exact fun seg hseg => marker_eq_none hseg
  rw [markerCount, hnone]
  show bisect #[] o 0 0 = 0
  rw [bisect, if_neg (Nat.lt_irrefl 0)]

/-- **THE LINE NUMBER WITHOUT MARKERS** is counted from the start of the text. -/
theorem lineNumberAt_unmarked (sources : List Source) {u v : Text}
    (h : (unify false sources).text = u ++ v) :
    (unify false sources).lineNumberAt u.length = (u.newlines + 1 : Nat) := by
  have hcount : (unify false sources).text.newlinesBetween 0 u.length = u.newlines := by
    rw [h]
    exact newlinesBetween_split [] u v
  rw [lineNumberAt, hcount, markerCount_unmarked]
  cases hseg : (unify false sources).segmentHolding u.length with
  | none =>
      dsimp only
      omega
  | some seg =>
      have hmem : seg ∈ (unify false sources).segments :=
        List.takeWhile_subset _ (List.mem_of_getLast? hseg)
      dsimp only
      rw [marker_eq_none hmem, Option.isSome_none, if_neg Bool.false_ne_true]
      omega

end Buffer

end SketchMerge
