import SketchMerge.Proofs.Sketch.Origins

/-! # The insertion point lies in a content

    A comment may open in one file and close in the next, and a directive may go on
    over the end of its file, so tiles of trivia run over markers.  None of them ends
    inside of one, for a marker is a line that starts with a number sign and holds no
    slash (`locate_clear`).  Nor is the insertion point in front of a marker, which
    would be one more tile.  So it lies in the content of one source, and behind it
    only if that source is the last one (`locate_in_content`). -/

namespace SketchMerge.Buffer

/-- The markers are avoided, as the segments give them. -/
theorem ClearOfMarkers.segments {sources : List Source} {o : Nat} (h : ClearOfMarkers sources o)
    (hnames : ∀ s ∈ sources, Glyph.newline ∉ s.name) :
    ∀ seg ∈ (unify true sources).segments, ∃ m, seg.marker = some m
      ∧ ¬ (m ≤ (o : Int) ∧ (o : Int) < seg.content) := by
  intro seg hseg
  obtain ⟨before, s, after, hsplit, rfl⟩ := (mem_segments_iff hnames seg).mp hseg
  refine ⟨_, rfl, ?_⟩
  rintro ⟨hle, hlt⟩
  simp only [segmentOf, leadOf, if_true, List.length_append] at hlt
  rcases h before s after hsplit with hbefore | hbehind
  · omega
  · omega

/-- A position in the content of a source is held by its segment, and its line is one of
    the source's lines, or the one behind them. -/
theorem held_in_content (before : List Source) {after : List Source} {s : Source} {u v : Text}
    (hcontent : Text.closeLine s.content = u ++ v) (hend : v = [] → after = []) :
    let b := unify true (before ++ s :: after)
    let o := (before.flatMap (pieceOf true) ++ markerFor s.name ++ u).length
    ∃ seg, b.segmentHolding o = some seg ∧ b.segments[before.length]? = some seg
      ∧ seg.content ≤ o ∧ (o : Int) ≤ seg.content + (Text.closeLine s.content).length
      ∧ ((o : Int) = seg.content + (Text.closeLine s.content).length → after = [])
      ∧ 1 ≤ b.lineNumberAt o ∧ b.lineNumberAt o ≤ seg.lineCount + 1 := by
  intro b o
  obtain ⟨seg, hholding, hat, -, hstart, hcount⟩ := segmentHolding_marked before hcontent hend
  have hlength : (Text.closeLine s.content).length = u.length + v.length := by
    rw [hcontent, List.length_append]
  have hnewlines : (Text.closeLine s.content).newlines = u.newlines + v.newlines := by
    rw [hcontent, Text.newlines_append]
  have ho : (o : Int) = seg.content + u.length := by
    rw [hstart]
    simp only [o, List.length_append]
    omega
  have hline : b.lineNumberAt o = (u.newlines + 1 : Nat) :=
    lineNumberAt_marked before hcontent hend
  refine ⟨seg, hholding, hat, by omega, by omega, ?_, by omega, by omega⟩
  intro hbehind
  exact hend (List.length_eq_zero_iff.mp (by omega))

/-- **THE INSERTION POINT LIES IN A CONTENT.**  Sources whose names hold no slash and no
    newline, and whatever they contain, are merged with markers.  The insertion point lies
    in no marker.  It lies in the content of a source, or at the end of the last one; that
    source's segment is the one that holds it, and the number of its line is one of that
    source, or the number behind them. -/
theorem locate_in_content (sources : List Source) (hsome : sources ≠ [])
    (hnames : ∀ s ∈ sources, Path.slash ∉ s.name ∧ Glyph.newline ∉ s.name) :
    let b := unify true sources
    let o : Int := Trivia.locate b.text
    (∀ seg ∈ b.segments, ∃ m, seg.marker = some m ∧ ¬ (m ≤ o ∧ o < seg.content))
    ∧ ∃ (i : Nat) (s : Source) (seg : Segment), sources[i]? = some s
        ∧ b.segments[i]? = some seg ∧ b.segmentHolding o = some seg
        ∧ seg.content ≤ o ∧ o ≤ seg.content + (Text.closeLine s.content).length
        ∧ (o = seg.content + (Text.closeLine s.content).length → i + 1 = sources.length)
        ∧ 1 ≤ b.lineNumberAt o ∧ b.lineNumberAt o ≤ seg.lineCount + 1 := by
  intro b o
  have hclear := locate_clear hnames
  refine ⟨hclear.segments fun s hs => (hnames s hs).2, ?_⟩
  obtain ⟨before, s, after, u, v, rfl, hcontent, hpoint, hend⟩ :=
    exists_source_of_clear sources _ hsome (Trivia.locate_le_length _) hclear
  obtain ⟨seg, hholding, hat, hstart, hstop, hlast, hline⟩ := held_in_content before hcontent hend
  rw [← hpoint] at hholding hstart hstop hlast hline
  refine ⟨before.length, s, seg, getElem?_around before s after, hat, hholding, hstart, hstop, ?_,
    hline⟩
  intro hbehind
  rw [hlast hbehind, List.length_append, List.length_singleton]

/-- A directive that goes on over the end of its file, a comment that runs over a marker
    and one that is never closed, in a row. -/
theorem locate_in_content_run_on :
    let b := unify true [⟨"a.ino", "#define A \\"⟩, ⟨"b.ino", "/* b"⟩, ⟨"c.ino", "c */ /* c"⟩]
    ∃ seg, b.segmentHolding 70 = some seg ∧ seg.content ≤ 70
      ∧ 1 ≤ b.lineNumberAt 70 ∧ b.lineNumberAt 70 ≤ seg.lineCount + 1 := by
  intro b
  have ho : Trivia.locate b.text = 70 := by decide +kernel
  obtain ⟨-, i, s, seg, -, -, hholding, hstart, -, -, hline⟩ :=
    locate_in_content [⟨"a.ino", "#define A \\"⟩, ⟨"b.ino", "/* b"⟩, ⟨"c.ino", "c */ /* c"⟩]
      (by decide) (by decide)
  rw [ho] at hholding hstart hline
  exact ⟨seg, hholding, hstart, hline⟩

end SketchMerge.Buffer
