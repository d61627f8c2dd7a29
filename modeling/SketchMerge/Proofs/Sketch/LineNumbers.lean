import SketchMerge.Proofs.Sketch.Presumed
import SketchMerge.Proofs.Sketch.Unified

/-! # Line numbers survive composing

    The declarations are put into the middle of a merged sketch, often into the
    middle of a line, and still every glyph of the sketch keeps the place where a
    compiler presumes it to stand.

    The block of declarations ends in a directive that gives the next line the
    number of the line it was put into (`readAll_block`).  Three things could
    spoil this.  The start of that line together with the first declaration could
    look like a directive; it does not, since a blank or a slash stands in front
    of the insertion point.  The rest of the line could look like a directive; it
    does not, since no number sign stands at the insertion point.  And the
    insertion point could lie in a marker; it never does. -/

namespace SketchMerge

namespace Text

instance (t : Text) : Decidable t.Plain :=
  inferInstanceAs (Decidable (∀ line ∈ t.linesOf, line.startsWith LineDirective.word = false))

theorem linesOf_newline (t : Text) : linesOf (t ++ [Glyph.newline]) = linesOf t ++ [[]] :=
  splitAtEach_append_cut (p := (· == Glyph.newline)) (beq_self_eq_true _) t []

/-- Closing the last line adds at most an empty line. -/
theorem Plain.closeLine {t : Text} (h : t.Plain) : t.closeLine.Plain := by
  rw [Text.closeLine]
  by_cases hclosed : (t.isEmpty || t.getLast? == some Glyph.newline) = true
  · rw [if_pos hclosed]
    exact h
  · rw [if_neg hclosed, Plain, linesOf_newline]
    intro line hline
    rcases List.mem_append.mp hline with hline | hline
    · exact h line hline
    · rw [List.mem_singleton.mp hline]
      rfl

/-- Behind a closed text the lines of another start afresh. -/
theorem Plain.append {s t : Text} (hclosed : s.Closed) (hs : s.Plain) (ht : t.Plain) :
    (s ++ t).Plain := by
  rcases hclosed with rfl | ⟨u, rfl⟩
  · exact ht
  · rw [Plain, linesOf_newline] at hs
    intro line hline
    rw [List.append_assoc, List.singleton_append, linesOf,
      splitAtEach_append_cut (p := (· == Glyph.newline)) (beq_self_eq_true _)] at hline
    rcases List.mem_append.mp hline with hline | hline
    · exact hs line (List.mem_append_left _ hline)
    · exact ht line hline

/-- The start of a line of a plain text does not start like a directive. -/
theorem Plain.lastLine {u v : Text} (h : (u ++ v).Plain) {s : Text} (hs : Glyph.newline ∉ s)
    (hpre : s ++ [Glyph.newline] <+: v) :
    (u.lastLine ++ s).startsWith LineDirective.word = false := by
  obtain ⟨rest, rfl⟩ := hpre
  refine h _ ?_
  rw [← lastLine_append u hs, List.append_assoc, ← List.append_assoc, List.singleton_append]
  exact lastLine_mem (u ++ s) rest

end Text

namespace Buffer

-- ── The sources of a merged sketch ──────────────────────────────────────────

theorem closed_pieceOf (markers : Bool) (s : Source) : (pieceOf markers s).Closed := by
  rw [pieceOf]
  refine Text.Closed.append ?_ (Text.closed_closeLine s.content)
  cases markers with
  | false => exact .inl rfl
  | true => exact .inr ⟨markerLine s.name, markerFor_eq s.name⟩

theorem closed_flatMap (markers : Bool) (sources : List Source) :
    Text.Closed (sources.flatMap (pieceOf markers)) := by
  induction sources with
  | nil => exact .inl rfl
  | cons s sources ih =>
      rw [List.flatMap_cons]
      exact (closed_pieceOf markers s).append ih

/-- Without markers the whole text is plain if the contents are. -/
theorem plain_unmarked {sources : List Source} (h : ∀ s ∈ sources, s.content.Plain) :
    Text.Plain (sources.flatMap (pieceOf false)) := by
  induction sources with
  | nil =>
      intro line hline
      rw [List.mem_singleton.mp hline]
      rfl
  | cons s sources ih =>
      rw [List.flatMap_cons]
      exact Text.Plain.append (closed_pieceOf false s) (h s (List.mem_cons_self ..)).closeLine
        (ih fun x hx => h x (List.mem_cons_of_mem _ hx))

/-- Behind the marker of a source its first line is presumed to begin. -/
theorem readAll_marker (before : List Source) {name : Text} (h : Glyph.newline ∉ name) :
    Reader.start.readAll (before.flatMap (pieceOf true) ++ markerFor name)
      = ⟨⟨some name, 1⟩, []⟩ := by
  have hline : (Reader.start.readAll (before.flatMap (pieceOf true))).line = [] := by
    rw [Reader.readAll_line]
    exact (closed_flatMap true before).lastLine
  have hfree : Glyph.newline ∉ markerLine name := by
    intro hmem
    rcases List.mem_append.mp hmem with hmem | hmem
    · rcases List.mem_append.mp hmem with hmem | hmem
      · exact absurd hmem (by decide)
      · exact h hmem
    · exact absurd hmem (by decide)
  rw [Reader.readAll_append]
  generalize Reader.start.readAll (before.flatMap (pieceOf true)) = r at hline
  obtain ⟨place, line⟩ := r
  cases hline
  have hread : LineDirective.read? (markerLine name) = some ⟨1, some name⟩ :=
    LineDirective.read?_marker name
  rw [markerFor_eq, Reader.readAll_line_end place [] hfree, List.nil_append,
    Presumed.after_of_some hread]
  rfl

-- ── Reading the block ───────────────────────────────────────────────────────

theorem joinWith_newline (first : Text) (rest : List Text) :
    Text.joinWith "\n" (first :: rest) ++ "\n"
      = (first :: rest).flatMap (· ++ [Glyph.newline]) := by
  induction rest generalizing first with
  | nil =>
      rw [Text.joinWith, List.flatMap_cons]
      simp only [List.intersperse, List.flatten_cons, List.flatten_nil, List.append_nil,
        List.flatMap_nil]
      rfl
  | cons second rest ih =>
      rw [List.flatMap_cons, ← ih second, Text.joinWith, Text.joinWith]
      simp only [List.intersperse, List.flatten_cons, List.append_assoc]
      rfl

theorem correctionFor_natCast (n : Nat) :
    correctionFor n = ("#line " ++ Text.ofNat n) ++ [Glyph.newline] := rfl

theorem newline_not_mem_correction (n : Nat) :
    Glyph.newline ∉ ("#line " ++ Text.ofNat n : Text) := by
  intro h
  rcases List.mem_append.mp h with h | h
  · exact absurd h (by decide)
  · exact absurd (Text.isAsciiDigit_of_mem_ofNat h) (by decide)

/-- **THE BLOCK RESTORES THE LINE NUMBER**, if what was read of the line does not turn
    the first declaration into a directive. -/
theorem readAll_block (b : Buffer) (o : Int) {n : Nat} (hn : b.lineNumberAt o = n)
    {prototypes : List Text} (hsome : prototypes ≠ [])
    (hfree : ∀ p ∈ prototypes, Glyph.newline ∉ p ∧ p.head? ≠ some (.char '#'))
    (q : Presumed) (l : Text)
    (hl : ∀ p ∈ prototypes, (l ++ p).startsWith LineDirective.word = false) :
    (Reader.mk q l).readAll (b.block true o prototypes) = ⟨⟨q.file, n⟩, []⟩ := by
  obtain ⟨first, rest, rfl⟩ := List.exists_cons_of_ne_nil hsome
  have hrest : ∀ p ∈ rest, Glyph.newline ∉ p ∧ LineDirective.read? p = none := by
    intro p hp
    obtain ⟨hnewline, hsign⟩ := hfree p (List.mem_cons_of_mem _ hp)
    exact ⟨hnewline, LineDirective.read?_eq_none (LineDirective.not_startsWith_word hsign)⟩
  have hfirst := hfree first (List.mem_cons_self ..)
  have hnone := LineDirective.read?_eq_none (hl first (List.mem_cons_self ..))
  rw [block, if_neg (by simp), if_pos rfl, hn, joinWith_newline, List.flatMap_cons,
    Reader.readAll_append, Reader.readAll_append, Reader.readAll_line_end q l hfirst.1,
    Presumed.after_of_none hnone, Reader.readAll_lines _ rest hrest, correctionFor_natCast,
    Reader.readAll_line_end _ [] (newline_not_mem_correction n), List.nil_append,
    Presumed.after_of_some (LineDirective.read?_number n)]
  rfl

-- ── The cut at the insertion point ──────────────────────────────────────────

/-- The insertion point of a text, in the middle of plain content that the reader
    enters at the start of a line: `a` stands before the content, `u` and `v` are its
    two halves, and `z` stands behind it. -/
structure Cut (a u v z : Text) (p : Presumed) : Prop where
  enter : Reader.start.readAll a = ⟨p, []⟩
  plain : (u ++ v).Plain
  closed : (u ++ v).Closed
  last : v = [] → z = []
  point : Trivia.locate (a ++ u ++ (v ++ z)) = (a ++ u).length

namespace Cut

variable {a u v z : Text} {p : Presumed}

/-- The state of the reader at the insertion point. -/
theorem readAll (cut : Cut a u v z p) :
    Reader.start.readAll (a ++ u) = ⟨p.plus u.newlines, u.lastLine⟩ := by
  rw [Reader.readAll_append, cut.enter, Reader.readAll_plain p u v cut.plain]

/-- A line that ends behind the insertion point ends within the content. -/
theorem line_in_content (cut : Cut a u v z p) {s : Text} (hs : Glyph.newline ∉ s)
    (hpre : s ++ [Glyph.newline] <+: v ++ z) : s ++ [Glyph.newline] <+: v := by
  have hv : v ≠ [] := by
    intro hv
    rw [hv, cut.last hv, List.append_nil] at hpre
    exact absurd (List.prefix_nil.mp hpre) (by simp)
  rcases List.prefix_or_prefix_of_prefix hpre (List.prefix_append v z) with h | h
  · exact h
  · rcases List.prefix_concat_iff.mp h with heq | hin
    · exact heq ▸ List.prefix_refl _
    · -- the content would lie within the line, but it holds a newline
      exact absurd (hin.subset (cut.closed.exists_newline hv)) hs

/-- The text ends at the insertion point, or a line is over behind it. -/
theorem exists_line (cut : Cut a u v z p) (hv : v ≠ []) :
    ∃ s, Glyph.newline ∉ s ∧ s ++ [Glyph.newline] <+: v := by
  obtain ⟨s, rest, hsplit, hs⟩ := List.eq_append_cons_of_mem (cut.closed.exists_newline hv)
  exact ⟨s, hs, ⟨rest, by rw [hsplit, List.append_assoc]; rfl⟩⟩

/-- What was read of the line ends in a blank or a slash. -/
theorem lastLine_settled (cut : Cut a u v z p) (hv : v ≠ []) :
    ∀ g ∈ u.lastLine.getLast?, g.isBlank = true ∨ g = .char '/' := by
  intro g hg
  obtain ⟨y, hy⟩ := Text.lastLine_suffix u
  have hpos := List.length_pos_iff.mpr hv
  have hlast : (a ++ u).getLast? = some g := by
    rw [← hy, List.getLast?_append, List.getLast?_append, hg]
    rfl
  have hne : a ++ u ≠ [] := by
    intro h
    rw [h] at hlast
    exact nomatch hlast
  have hlen := List.length_pos_iff.mpr hne
  have hbound : Trivia.locate (a ++ u ++ (v ++ z)) < (a ++ u ++ (v ++ z)).length := by
    rw [cut.point]
    simp only [List.length_append]
    omega
  rcases Trivia.locate_settled _ hbound with hzero | ⟨x, hx, hkind⟩
  · rw [cut.point] at hzero
    omega
  · rw [cut.point, List.getElem?_append_left (by omega), ← List.getLast?_eq_getElem?, hlast] at hx
    rw [Option.some.inj hx]
    exact hkind

/-- What was read of the line does not turn a declaration into a directive. -/
theorem not_directive_before (cut : Cut a u v z p) {t : Text}
    (ht : t.head? ≠ some (.char '#')) :
    (u.lastLine ++ t).startsWith LineDirective.word = false := by
  by_cases hline : u.lastLine = []
  · rw [hline]
    exact LineDirective.not_startsWith_word ht
  · have hv : v ≠ [] := by
      intro hv
      have hu := cut.closed
      rw [hv, List.append_nil] at hu
      exact hline hu.lastLine
    obtain ⟨s, hs, hpre⟩ := cut.exists_line hv
    have hwhole := cut.plain.lastLine hs hpre
    rw [← Bool.not_eq_true]
    intro hword
    rcases List.prefix_or_prefix_of_prefix (List.isPrefixOf_iff_prefix.mp hword)
      (List.prefix_append u.lastLine t) with h | h
    · -- then the line of the sketch would start like a directive
      rw [Text.startsWith, List.isPrefixOf_iff_prefix.mpr (h.trans (List.prefix_append _ s))]
        at hwhole
      cases hwhole
    · -- then the line was broken off inside of the word, at no blank and no slash
      have hlast := cut.lastLine_settled hv _ (List.getLast?_eq_some_getLast hline)
      have hmem : u.lastLine.getLast hline ∈ LineDirective.word :=
        h.subset (List.getLast_mem hline)
      have hletters : ∀ g ∈ LineDirective.word, ¬ (g.isBlank = true ∨ g = .char '/') := by
        decide
      exact hletters _ hmem hlast

/-- The rest of the line, taken alone, is no directive. -/
theorem not_directive_behind (cut : Cut a u v z p) {s : Text}
    (hpre : s ++ [Glyph.newline] <+: v ++ z) :
    s.startsWith LineDirective.word = false := by
  refine LineDirective.not_startsWith_word ?_
  intro hsign
  obtain ⟨rest, hrest⟩ := hpre
  have hat : (a ++ u ++ (v ++ z))[(a ++ u).length]? = some (.char '#') := by
    rw [List.getElem?_append_right (Nat.le_refl _), Nat.sub_self, ← hrest,
      ← List.head?_eq_getElem?, List.append_assoc, List.head?_append, hsign]
    rfl
  have hnot := Trivia.locate_not_trivia (a ++ u ++ (v ++ z))
  rw [cut.point] at hnot
  exact (hnot _ hat).2 rfl

/-- **PUTTING IN A BLOCK KEEPS THE PLACES BEHIND IT**, if the block leads the reader
    back to the place where it was. -/
theorem place_behind (cut : Cut a u v z p) {block : Text}
    (hblock : (Reader.mk (p.plus u.newlines) u.lastLine).readAll block
      = ⟨p.plus u.newlines, []⟩) (k : Nat) :
    (Reader.start.readAll (a ++ u ++ block ++ (v ++ z).take k)).place
      = (Reader.start.readAll (a ++ u ++ (v ++ z).take k)).place := by
  rw [Reader.readAll_append, Reader.readAll_append, Reader.readAll_append (t := (v ++ z).take k),
    cut.readAll, hblock]
  refine Reader.readAll_place_agree _ _ _ _ ?_
  intro s hs hpre
  have hpre := hpre.trans (List.take_prefix k (v ++ z))
  have halone := LineDirective.read?_eq_none (cut.not_directive_behind hpre)
  have hwhole := LineDirective.read?_eq_none
    (cut.plain.lastLine hs (cut.line_in_content hs hpre))
  rw [List.nil_append, Presumed.after_of_none halone, Presumed.after_of_none hwhole]

end Cut

-- ── The whole way ───────────────────────────────────────────────────────────

/-- Without markers the whole text is one plain content, cut at the insertion point. -/
theorem exists_cut_unmarked {sources : List Source} (hcontents : ∀ s ∈ sources, s.content.Plain) :
    ∃ u v, Cut [] u v [] .start ∧ (unify false sources).text = u ++ v
      ∧ (unify false sources).lineNumberAt u.length = (Presumed.start.plus u.newlines).line := by
  generalize ho : Trivia.locate (unify false sources).text = o
  have hle := Trivia.locate_le_length (unify false sources).text
  rw [ho] at hle
  have hsplit := List.take_append_drop o (unify false sources).text
  refine ⟨(unify false sources).text.take o, (unify false sources).text.drop o,
    ⟨rfl, ?_, ?_, fun _ => rfl, ?_⟩, hsplit.symm, ?_⟩
  · rw [hsplit]
    exact plain_unmarked hcontents
  · rw [hsplit]
    exact closed_flatMap false sources
  · rw [List.nil_append, List.append_nil, hsplit, ho, List.length_take_of_le hle]
  · rw [lineNumberAt_unmarked sources hsplit.symm, Nat.add_comm]
    rfl

/-- With markers the insertion point cuts the content of one source. -/
theorem exists_cut_marked {sources : List Source} (hsome : sources ≠ [])
    (hnames : ∀ s ∈ sources, Path.slash ∉ s.name ∧ Glyph.newline ∉ s.name)
    (hcontents : ∀ s ∈ sources, s.content.Plain) :
    ∃ a u v z p, Cut a u v z p ∧ (unify true sources).text = a ++ u ++ (v ++ z)
      ∧ (unify true sources).lineNumberAt (a ++ u).length = (p.plus u.newlines).line := by
  obtain ⟨before, s, after, u, v, rfl, hcontent, hpoint, hend⟩ :=
    exists_source_of_clear sources _ hsome (Trivia.locate_le_length _) (locate_clear hnames)
  have hs : s ∈ before ++ s :: after := List.mem_append_right _ (List.mem_cons_self ..)
  have htext : (unify true (before ++ s :: after)).text
      = before.flatMap (pieceOf true) ++ markerFor s.name ++ u
        ++ (v ++ after.flatMap (pieceOf true)) := by
    rw [unify_text_split, pieceOf_marked, hcontent]
    simp only [List.append_assoc]
  refine ⟨before.flatMap (pieceOf true) ++ markerFor s.name, u, v,
    after.flatMap (pieceOf true), ⟨some s.name, 1⟩,
    ⟨readAll_marker before (hnames s hs).2, ?_, ?_, ?_, ?_⟩, htext, ?_⟩
  · rw [← hcontent]
    exact (hcontents s hs).closeLine
  · rw [← hcontent]
    exact Text.closed_closeLine s.content
  · intro hv
    rw [hend hv]
    rfl
  · rw [← htext]
    exact hpoint
  · rw [lineNumberAt_marked before hcontent hend, Nat.add_comm]
    rfl

/-- The insertion point of a unified text is a cut, and the number of its line is the
    one that the reader has there. -/
theorem exists_cut (markers : Bool) {sources : List Source}
    (hnames : ∀ s ∈ sources, Path.slash ∉ s.name ∧ Glyph.newline ∉ s.name)
    (hcontents : ∀ s ∈ sources, s.content.Plain) :
    ∃ a u v z p, Cut a u v z p ∧ (unify markers sources).text = a ++ u ++ (v ++ z)
      ∧ (unify markers sources).lineNumberAt (a ++ u).length = (p.plus u.newlines).line := by
  by_cases hmarked : markers = true ∧ sources ≠ []
  · obtain ⟨rfl, hsome⟩ := hmarked
    exact exists_cut_marked hsome hnames hcontents
  · -- there are no markers, be it that there are no sources
    have hsame : unify markers sources = unify false sources := by
      cases markers with
      | false => rfl
      | true =>
          cases sources with
          | nil => rfl
          | cons s rest => exact absurd ⟨rfl, List.cons_ne_nil s rest⟩ hmarked
    obtain ⟨u, v, cut, htext, hnumber⟩ := exists_cut_unmarked hcontents
    rw [hsame]
    refine ⟨[], u, v, [], .start, cut, ?_, hnumber⟩
    rw [htext, List.nil_append, List.append_nil]

theorem take_append_add (s t : Text) (n : Nat) : (s ++ t).take (s.length + n) = s ++ t.take n := by
  rw [List.take_append, List.take_of_length_le (Nat.le_add_right _ _), Nat.add_sub_cancel_left]

/-- With markers a glyph of a source is presumed to stand in its file, on its line
    there. -/
theorem presumed_marked (before : List Source) (s : Source) (after : List Source)
    (hname : Glyph.newline ∉ s.name) (hcontent : s.content.Plain) {j : Nat}
    (hj : j < (Text.closeLine s.content).length) :
    (unify true (before ++ s :: after)).text[
        (before.flatMap (pieceOf true) ++ markerFor s.name).length + j]?
      = (Text.closeLine s.content)[j]?
    ∧ Presumed.at (unify true (before ++ s :: after)).text
        ((before.flatMap (pieceOf true) ++ markerFor s.name).length + j)
      = ⟨some s.name, Text.newlines ((Text.closeLine s.content).take j) + 1⟩ := by
  have htext : (unify true (before ++ s :: after)).text
      = before.flatMap (pieceOf true) ++ markerFor s.name
        ++ (Text.closeLine s.content ++ after.flatMap (pieceOf true)) := by
    rw [unify_text_split, pieceOf_marked]
    simp only [List.append_assoc]
  have hread := Reader.readAll_plain ⟨some s.name, 1⟩ ((Text.closeLine s.content).take j)
    ((Text.closeLine s.content).drop j)
    (by rw [List.take_append_drop]; exact hcontent.closeLine)
  refine ⟨?_, ?_⟩
  · rw [htext, List.getElem?_append_right (Nat.le_add_right _ _), Nat.add_sub_cancel_left,
      List.getElem?_append_left hj]
  · rw [Presumed.at, htext, take_append_add, Reader.readAll_append, readAll_marker before hname,
      List.take_append_of_le_length (Nat.le_of_lt hj), hread, Nat.add_comm]
    rfl

/-- A composition of a fresh buffer puts the block in. -/
theorem compose_fresh (b : Buffer) (hfresh : b.composed = false) {correction : Bool} {o : Nat}
    (ho : o ≤ b.text.length) {prototypes : List Text} (hsome : prototypes ≠ []) :
    b.compose correction o prototypes
      = .ok { b with
          text := b.text.take o ++ b.block correction o prototypes ++ b.text.drop o
          composed := true } := by
  have hblock : (b.block correction o prototypes).isEmpty = false := by
    rw [block, if_neg (fun h => hsome (List.isEmpty_iff.mp h)), List.isEmpty_eq_false_iff]
    simp [Text.ofString]
  have hin : (decide (0 ≤ (o : Int)) && decide ((o : Int) ≤ b.text.length)) = true := by
    rw [decide_eq_true (by omega), decide_eq_true (by omega)]
    rfl
  rw [compose, hblock, if_neg Bool.false_ne_true, insert, hfresh, if_neg Bool.false_ne_true,
    if_pos hin, Int.toNat_natCast]

/-- **COMPOSING KEEPS EVERY PRESUMED PLACE.**  Sources whose names hold no slash and no
    newline, and whose lines do not start like a line directive, are merged with or
    without markers, and declarations of one line each are put in at the insertion
    point.  Then every glyph of the merged text is presumed to stand where it was
    presumed to stand before.  With markers that is the file it comes from and its
    line in that file. -/
theorem compose_keeps_places (markers : Bool) (sources : List Source) (prototypes : List Text)
    (hnames : ∀ s ∈ sources, Path.slash ∉ s.name ∧ Glyph.newline ∉ s.name)
    (hcontents : ∀ s ∈ sources, ∀ line ∈ s.content.linesOf, line.startsWith "#line" = false)
    (hsome : prototypes ≠ [])
    (hprototypes : ∀ p ∈ prototypes, Glyph.newline ∉ p ∧ p.head? ≠ some (.char '#')) :
    let b := unify markers sources
    let o := Trivia.locate b.text
    let block := b.block true o prototypes
    ∃ c, b.compose true o prototypes = .ok c
      ∧ c.text = b.text.take o ++ block ++ b.text.drop o
      ∧ (∀ i < b.text.length,
          Presumed.at c.text (if i < o then i else i + block.length) = Presumed.at b.text i)
      ∧ (markers = true → ∀ before s after, sources = before ++ s :: after →
          ∀ j < (Text.closeLine s.content).length,
            let i := (before.flatMap (pieceOf true) ++ markerFor s.name).length + j
            b.text[i]? = (Text.closeLine s.content)[j]?
              ∧ Presumed.at b.text i
                = ⟨some s.name, Text.newlines ((Text.closeLine s.content).take j) + 1⟩) := by
  intro b o block
  have hle : o ≤ b.text.length := Trivia.locate_le_length b.text
  refine ⟨_, compose_fresh b rfl hle hsome, rfl, ?_, ?_⟩
  · intro i hi
    obtain ⟨a, u, v, z, p, cut, htext, hnumber⟩ := exists_cut markers hnames hcontents
    have ho : o = (a ++ u).length := (congrArg Trivia.locate htext).trans cut.point
    have htake : b.text.take o = a ++ u := by
      rw [show b.text = _ from htext, ho, List.take_left]
    have hdrop : b.text.drop o = v ++ z := by
      rw [show b.text = _ from htext, ho, List.drop_left]
    have hback : (Reader.mk (p.plus u.newlines) u.lastLine).readAll block
        = ⟨p.plus u.newlines, []⟩ := by
      refine readAll_block b o (n := (p.plus u.newlines).line) ?_ hsome hprototypes _ _ ?_
      · rw [ho]
        exact hnumber
      · exact fun t ht => cut.not_directive_before (hprototypes t ht).2
    show (Reader.start.readAll ((b.text.take o ++ block ++ b.text.drop o).take _)).place
      = (Reader.start.readAll (b.text.take i)).place
    by_cases hio : i < o
    · -- in front of the block nothing has changed
      have hlen : (b.text.take o).length = o := List.length_take_of_le hle
      rw [if_pos hio, List.append_assoc, List.take_append_of_le_length (by omega),
        List.take_take, Nat.min_eq_left (by omega)]
    · obtain ⟨k, hk⟩ := Nat.exists_eq_add_of_le (Nat.le_of_not_lt hio)
      have hfixed : i = (a ++ u).length + k := by omega
      have hmoved : i + block.length = (a ++ u ++ block).length + k := by
        rw [List.length_append]
        omega
      rw [if_neg hio, htake, hdrop, hmoved, take_append_add, cut.place_behind hback,
        show b.text = _ from htext, hfixed, take_append_add]
  · rintro rfl before s after rfl j hj
    have hs : s ∈ before ++ s :: after := List.mem_append_right _ (List.mem_cons_self ..)
    exact presumed_marked before s after (hnames s hs).2 (hcontents s hs) hj

/-- A comment that runs over the end of a file and over the marker behind it: the
    declaration goes into the middle of the first line of the second file, and what
    follows it is still presumed to stand there. -/
theorem compose_keeps_places_behind_comment :
    ∃ c, (unify true [⟨"Blink.ino", "/* led"⟩, ⟨"util.ino", "*/ int x;"⟩]).compose true 49
        ["void f();"] = .ok c
      ∧ c.text.drop 67 = "int x;\n"
      ∧ Presumed.at c.text 67 = ⟨some "util.ino", 1⟩ := by
  have ho : Trivia.locate
      (unify true [⟨"Blink.ino", "/* led"⟩, ⟨"util.ino", "*/ int x;"⟩]).text = 49 := by
    decide +kernel
  obtain ⟨c, hc, htext, hplaces, hfiles⟩ := compose_keeps_places true
    [⟨"Blink.ino", "/* led"⟩, ⟨"util.ino", "*/ int x;"⟩] ["void f();"]
    (by decide) (by decide) (by decide) (by decide)
  have hmoved := hplaces 49 (by decide +kernel)
  have hfile := (hfiles rfl [⟨"Blink.ino", "/* led"⟩] ⟨"util.ino", "*/ int x;"⟩ [] rfl 3
    (by decide)).2
  rw [ho] at hc htext hmoved
  refine ⟨c, hc, ?_, hmoved.trans hfile⟩
  rw [htext]
  decide +kernel

end Buffer

end SketchMerge
