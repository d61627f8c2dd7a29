import SketchMerge.Proofs.Sketch.Origins

/-! # Looking up segments by position

    The markers before a position are counted by halving the list of markers, and
    the segment of a position is looked for only up to the first segment behind it.
    Both are right on a list in which what lies before the position comes first
    (`split_of_prefix`), and the segments of a unified text are such a list for every
    position, for they stand in ascending order (`ascending_segmentsFrom`).

    So the number of a line can be counted in two ways.  Behind a marker it is counted
    from the start of the content, and with the lines of the sources before it this is
    the number that is counted over the whole text without the marker lines, which is
    the number of the line where there are no markers (`lookup_counts`). -/

namespace SketchMerge

-- ── Lists that are split by a condition ─────────────────────────────────────

/-- Where a condition holds of all that comes before whatever meets it, those that meet
    it come first. -/
theorem split_of_prefix {α : Type} {p : α → Bool} {xs : List α}
    (h : xs.Pairwise fun a b => p b = true → p a = true) :
    xs = xs.filter p ++ xs.filter fun a => !p a := by
  induction xs with
  | nil => rfl
  | cons a xs ih =>
      obtain ⟨hfirst, hrest⟩ := List.pairwise_cons.mp h
      by_cases ha : p a = true
      · rw [List.filter_cons_of_pos ha, List.filter_cons_of_neg (by rw [ha]; decide),
          List.cons_append, ← ih hrest]
      · -- nothing behind `a` meets the condition
        have hnone : xs.filter p = [] :=
          List.filter_eq_nil_iff.mpr fun b hb hpb => ha (hfirst b hb hpb)
        have hall : xs = xs.filter fun a => !p a := by
          have := ih hrest
          rw [hnone, List.nil_append] at this
          exact this
        rw [List.filter_cons_of_neg ha, hnone, List.nil_append,
          List.filter_cons_of_pos (by simpa using ha), ← hall]

/-- Then to stop at the first that does not meet the condition misses none. -/
theorem takeWhile_eq_filter {α : Type} {p : α → Bool} {xs : List α}
    (h : xs.Pairwise fun a b => p b = true → p a = true) : xs.takeWhile p = xs.filter p := by
  have hnone : (xs.filter fun a => !p a).takeWhile p = [] := by
    rw [List.takeWhile_eq_nil_iff]
    intro hpos
    have hfails := (List.mem_filter.mp (List.get_mem (xs.filter fun a => !p a) ⟨0, hpos⟩)).2
    exact Bool.eq_false_iff.mp ((Bool.not_eq_true' _).mp hfails)
  calc xs.takeWhile p
      = (xs.filter p ++ xs.filter fun a => !p a).takeWhile p := by rw [← split_of_prefix h]
    _ = xs.filter p ++ (xs.filter fun a => !p a).takeWhile p :=
        List.takeWhile_append_of_pos fun a ha => (List.mem_filter.mp ha).2
    _ = xs.filter p := by rw [hnone, List.append_nil]

namespace Buffer

/-- An entry of a list in two halves lies below `x` if it is one of the first half. -/
theorem entry_lt_iff {below above : List Int} {x : Int} (hbelow : ∀ y ∈ below, y < x)
    (habove : ∀ y ∈ above, x ≤ y) {i : Nat} (hi : i < (below ++ above).length) :
    (below ++ above).toArray.getD i 0 < x ↔ i < below.length := by
  have hentry : (below ++ above).toArray.getD i 0 = (below ++ above)[i] := dif_pos hi
  rw [hentry]
  constructor
  · intro hlt
    refine Nat.lt_of_not_le fun hle => ?_
    have hrest : i - below.length < above.length := by
      rw [List.length_append] at hi
      omega
    rw [List.getElem_append_right hle] at hlt
    have := habove _ (List.getElem_mem hrest)
    omega
  · intro hlt
    rw [List.getElem_append_left hlt]
    exact hbelow _ (List.getElem_mem hlt)

/-- **HALVING FINDS WHERE THE HALVES MEET**, if it starts around that place. -/
theorem bisect_append {below above : List Int} {x : Int} (hbelow : ∀ y ∈ below, y < x)
    (habove : ∀ y ∈ above, x ≤ y) {lo hi : Nat} (hlo : lo ≤ below.length)
    (hhi : below.length ≤ hi) (hsize : hi ≤ (below ++ above).length) :
    bisect (below ++ above).toArray x lo hi = below.length := by
  fun_induction bisect (below ++ above).toArray x lo hi with
  | case1 lo hi hlt mid hentry ih =>
      have hmid : mid < below.length :=
        (entry_lt_iff hbelow habove (by omega)).mp hentry
      exact ih hmid hhi hsize
  | case2 lo hi hlt mid hentry ih =>
      have hmid : ¬ mid < below.length :=
        fun h => hentry ((entry_lt_iff hbelow habove (by omega)).mpr h)
      exact ih hlo (by omega) (by omega)
  | case3 lo hi hdone => omega

/-- In an ascending list halving counts the entries below `x`. -/
theorem bisect_ascending {xs : List Int} (h : xs.Pairwise (· ≤ ·)) (x : Int) :
    bisect xs.toArray x 0 xs.length = xs.countP (· < x) := by
  have hprefix : xs.Pairwise fun a b => decide (b < x) = true → decide (a < x) = true :=
    h.imp fun hle hlt => decide_eq_true (Int.lt_of_le_of_lt hle (of_decide_eq_true hlt))
  have hsplit := split_of_prefix hprefix
  rw [List.countP_eq_length_filter]
  generalize hbelow : xs.filter (fun a => decide (a < x)) = below at hsplit
  generalize habove : xs.filter (fun a => !decide (a < x)) = above at hsplit
  rw [hsplit]
  refine bisect_append ?_ ?_ (Nat.zero_le _) ?_ (Nat.le_refl _)
  · intro y hy
    rw [← hbelow] at hy
    exact of_decide_eq_true (List.mem_filter.mp hy).2
  · intro y hy
    rw [← habove] at hy
    have := (List.mem_filter.mp hy).2
    rw [Bool.not_eq_true', decide_eq_false_iff_not] at this
    omega
  · rw [List.length_append]
    omega

-- ── Segments in ascending order ─────────────────────────────────────────────

/-- The marker of a segment, if it has one, and its content do not come behind those of
    another. -/
def Precedes (seg next : Segment) : Prop :=
  seg.content ≤ next.content ∧ ∀ m ∈ seg.marker, ∀ n ∈ next.marker, m ≤ n

/-- No segment lies before the place from which the sources are joined. -/
theorem le_of_mem_segmentsFrom {markers : Bool} {sources : List Source} :
    ∀ {offset first : Nat} {seg : Segment}, seg ∈ segmentsFrom markers offset first sources →
      (offset : Int) ≤ seg.content ∧ ∀ m ∈ seg.marker, (offset : Int) ≤ m := by
  induction sources with
  | nil =>
      intro offset first seg h
      cases h
  | cons s sources ih =>
      intro offset first seg h
      rw [segmentsFrom] at h
      have hstart : offset ≤ if markers then offset + (markerFor s.name).length else offset := by
        split <;> omega
      rcases List.mem_cons.mp h with rfl | h
      · refine ⟨Int.ofNat_le.mpr hstart, ?_⟩
        intro m hm
        cases markers with
        | false => cases hm
        | true =>
            obtain rfl := Option.some.inj hm
            exact Int.le_refl _
      · obtain ⟨hcontent, hmarker⟩ := ih h
        refine ⟨by omega, ?_⟩
        intro m hm
        have := hmarker m hm
        omega

/-- **SEGMENTS ASCEND.**  Contents that are empty and have no marker share their place
    with the next one. -/
theorem ascending_segmentsFrom (markers : Bool) (sources : List Source) :
    ∀ offset first : Nat, (segmentsFrom markers offset first sources).Pairwise Precedes := by
  induction sources with
  | nil => exact fun offset first => .nil
  | cons s sources ih =>
      intro offset first
      rw [segmentsFrom]
      refine List.pairwise_cons.mpr ⟨?_, ih _ _⟩
      intro next hnext
      obtain ⟨hcontent, hmarker⟩ := le_of_mem_segmentsFrom hnext
      refine ⟨Int.le_trans (Int.ofNat_le.mpr (Nat.le_add_right ..)) hcontent, ?_⟩
      intro m hm n hn
      cases markers with
      | false => cases hm
      | true =>
          obtain rfl := Option.some.inj hm
          refine Int.le_trans (Int.ofNat_le.mpr ?_) (hmarker n hn)
          rw [if_pos rfl]
          omega

/-- **THE MARKERS BEFORE A POSITION** are counted. -/
theorem markerCount_eq (markers : Bool) (sources : List Source) (offset : Int) :
    (unify markers sources).markerCount offset
      = (unify markers sources).segments.countP fun seg => seg.marker.any (· < offset) := by
  have hstarts : ((unify markers sources).segments.filterMap Segment.marker).Pairwise (· ≤ ·) :=
    List.pairwise_filterMap.mpr
      ((ascending_segmentsFrom markers sources 0 1).imp fun h m hm n hn => h.2 m hm n hn)
  rw [markerCount, List.size_toArray, bisect_ascending hstarts, List.countP_filterMap]
  refine List.countP_congr fun seg _ => ?_
  cases seg.marker with
  | none => exact Iff.rfl
  | some m => exact Iff.rfl

/-- **THE SEGMENT OF A POSITION** is the last one whose content starts there or before. -/
theorem segmentHolding_eq (markers : Bool) (sources : List Source) (offset : Int) :
    (unify markers sources).segmentHolding offset
      = ((unify markers sources).segments.filter (·.content ≤ offset)).getLast? := by
  rw [segmentHolding, takeWhile_eq_filter]
  exact (ascending_segmentsFrom markers sources 0 1).imp fun h hle =>
    decide_eq_true (Int.le_trans h.1 (of_decide_eq_true hle))

-- ── Line numbers with and without markers ───────────────────────────────────

/-- The number of lines of some segments. -/
def lineTotal : List Segment → Int
  | [] => 0
  | seg :: segments => seg.lineCount + lineTotal segments

theorem lineTotal_segmentsFrom (markers : Bool) (sources : List Source) :
    ∀ offset first : Nat,
      lineTotal (segmentsFrom markers offset first sources) = linesTaken false sources := by
  induction sources with
  | nil => exact fun _ _ => rfl
  | cons s sources ih =>
      intro offset first
      rw [segmentsFrom, lineTotal, ih, linesTaken]
      simp only [Bool.false_eq_true, if_false]
      omega

/-- The segments before that of a source are those of the sources before it. -/
theorem lineTotal_take (markers : Bool) (before rest : List Source) :
    lineTotal ((unify markers (before ++ rest)).segments.take before.length)
      = linesTaken false before := by
  show lineTotal ((segmentsFrom markers 0 1 (before ++ rest)).take _) = _
  rw [segmentsFrom_append, ← length_segmentsFrom markers before 0 1, List.take_left,
    lineTotal_segmentsFrom]

/-- Markers take one line for each source. -/
theorem linesTaken_marked (sources : List Source) :
    linesTaken true sources = sources.length + linesTaken false sources := by
  induction sources with
  | nil => rfl
  | cons s sources ih =>
      rw [linesTaken, linesTaken, ih, List.length_cons]
      simp only [Bool.false_eq_true, if_false, if_true]
      omega

theorem length_markerFor_pos (name : Text) : 0 < (markerFor name).length := by
  rw [markerFor_eq, List.length_append]
  exact Nat.succ_pos _

/-- With markers every segment has one, and it starts before the content. -/
theorem exists_marker_of_mem {sources : List Source} :
    ∀ {offset first : Nat} {seg : Segment}, seg ∈ segmentsFrom true offset first sources →
      ∃ m, seg.marker = some m ∧ m < seg.content := by
  induction sources with
  | nil =>
      intro offset first seg h
      cases h
  | cons s sources ih =>
      intro offset first seg h
      rw [segmentsFrom] at h
      rcases List.mem_cons.mp h with rfl | h
      · refine ⟨_, rfl, ?_⟩
        have hpos := length_markerFor_pos s.name
        show (offset : Int) < (offset + (markerFor s.name).length : Nat)
        omega
      · exact ih h

/-- In the content of a source its own marker and those of the sources before it are
    counted. -/
theorem markerCount_in_content (before : List Source) (s : Source) (after : List Source) {d : Nat}
    (hd : d < (Text.closeLine s.content).length) :
    (unify true (before ++ s :: after)).markerCount ((leadOf true before s).length + d : Nat)
      = before.length + 1 := by
  have hlead : (leadOf true before s).length
      = (before.flatMap (pieceOf true)).length + (markerFor s.name).length := by
    rw [leadOf, if_pos rfl, List.length_append]
  have hpos := length_markerFor_pos s.name
  rw [markerCount_eq, hlead]
  show List.countP _ (segmentsFrom true 0 1 (before ++ s :: after)) = _
  rw [segmentsFrom_append, List.countP_append, segmentsFrom, if_pos rfl, if_pos rfl, if_pos rfl,
    List.countP_cons_of_pos, List.countP_eq_length.mpr, List.countP_eq_zero.mpr,
    length_segmentsFrom]
  · -- the markers behind start where the content ends, or later
    intro seg hseg hlt
    obtain ⟨m, hm, -⟩ := exists_marker_of_mem hseg
    have hge := (le_of_mem_segmentsFrom hseg).2 m hm
    rw [hm] at hlt
    have := of_decide_eq_true hlt
    omega
  · -- those before start in front of the source's own
    intro seg hseg
    obtain ⟨m, hm, hlt⟩ := exists_marker_of_mem hseg
    have hle := content_le_of_mem hseg
    rw [hm]
    exact decide_eq_true (by omega)
  · exact decide_eq_true (by omega)

/-- The text up to a glyph of a content. -/
theorem unify_text_take (markers : Bool) (before : List Source) (s : Source) (after : List Source)
    (d : Nat) :
    (unify markers (before ++ s :: after)).text
      = leadOf markers before s ++ (Text.closeLine s.content).take d
        ++ ((Text.closeLine s.content).drop d ++ after.flatMap (pieceOf markers)) := by
  rw [unify_text_around, List.append_assoc _ (List.take ..), ← List.append_assoc (List.take ..),
    List.take_append_drop, List.append_assoc]

section

variable {before : List Source} {s : Source} {after : List Source}
  (hnames : ∀ x ∈ before ++ s :: after, Glyph.newline ∉ x.name)
  {d : Nat} (hd : d < (Text.closeLine s.content).length)

include hd

theorem length_lead_take (markers : Bool) :
    (leadOf markers before s ++ (Text.closeLine s.content).take d).length
      = (leadOf markers before s).length + d := by
  rw [List.length_append, List.length_take_of_le (Nat.le_of_lt hd)]

/-- The text has the glyphs of a content where its segment says. -/
theorem glyph_in_content (markers : Bool) :
    (unify markers (before ++ s :: after)).text[(leadOf markers before s).length + d]?
      = (Text.closeLine s.content)[d]? := by
  rw [unify_text_around, List.append_assoc, List.getElem?_append_right (Nat.le_add_right ..),
    Nat.add_sub_cancel_left, List.getElem?_append_left hd]

/-- Behind its marker a source has its own numbers of lines. -/
theorem lineNumberAt_in_content :
    (unify true (before ++ s :: after)).lineNumberAt ((leadOf true before s).length + d : Nat)
      = (Text.newlines ((Text.closeLine s.content).take d) + 1 : Nat) := by
  rw [← length_lead_take hd]
  refine lineNumberAt_marked before (List.take_append_drop d _).symm fun hnil => ?_
  rw [List.drop_eq_nil_iff] at hnil
  omega

include hnames

/-- Counted over the whole text without the marker lines, the lines of the sources before
    come first. -/
theorem running_line_in_content :
    ((unify true (before ++ s :: after)).text.newlinesBetween 0
          ((leadOf true before s).length + d : Nat) : Int)
        - (unify true (before ++ s :: after)).markerCount
          ((leadOf true before s).length + d : Nat) + 1
      = (linesTaken false before + Text.newlines ((Text.closeLine s.content).take d)
          + 1 : Nat) := by
  have hlead : (leadOf true before s).newlines = before.length + linesTaken false before + 1 := by
    rw [newlines_leadOf_marked before (hnames s (List.mem_append_right _ (List.mem_cons_self ..))),
      ← linesTaken_eq true fun x hx => hnames x (List.mem_append_left _ hx), linesTaken_marked]
  have hcount : (unify true (before ++ s :: after)).text.newlinesBetween 0
        ((leadOf true before s).length + d : Nat)
      = (leadOf true before s).newlines + Text.newlines ((Text.closeLine s.content).take d) := by
    rw [← length_lead_take hd, unify_text_take true before s after d, ← Text.newlines_append]
    exact newlinesBetween_split [] _ _
  rw [markerCount_in_content before s after hd, hcount, hlead]
  omega

/-- So they do where there are no markers. -/
theorem lineNumberAt_in_plain_content :
    (unify false (before ++ s :: after)).lineNumberAt ((leadOf false before s).length + d : Nat)
      = (linesTaken false before + Text.newlines ((Text.closeLine s.content).take d)
          + 1 : Nat) := by
  have hlead : (leadOf false before s).newlines = linesTaken false before := by
    rw [linesTaken_eq false fun x hx => hnames x (List.mem_append_left _ hx)]
    exact congrArg Text.newlines (List.append_nil _)
  rw [← length_lead_take hd, lineNumberAt_unmarked _ (unify_text_take false before s after d),
    Text.newlines_append, hlead]

end

/-- **LOOKING UP IS COUNTING.**  Sources whose names hold no newline are merged with or
    without markers.  For every position, inside of the text or not, the markers before it
    are as many as there are segments with a marker that starts before it, and the segment
    that holds it is the last one whose content starts there or before.  At a glyph of the
    content of a source with markers, the newlines before it less the markers before it
    number its line as if there were no markers: it is the line in its source behind the
    lines of all sources before, and it is the line of the same glyph in the text that is
    merged without markers. -/
theorem lookup_counts (markers : Bool) (sources : List Source)
    (hnames : ∀ s ∈ sources, Glyph.newline ∉ s.name) :
    let b := unify markers sources
    let marked := unify true sources
    let plain := unify false sources
    (∀ offset : Int, b.markerCount offset
        = b.segments.countP fun seg => seg.marker.any (· < offset))
    ∧ (∀ offset : Int, b.segmentHolding offset
        = (b.segments.filter (·.content ≤ offset)).getLast?)
    ∧ ∀ (i : Nat) (s : Source), sources[i]? = some s →
        ∃ seg seg', marked.segments[i]? = some seg ∧ plain.segments[i]? = some seg' ∧
          ∀ offset : Int, seg.content ≤ offset →
            offset < seg.content + (Text.closeLine s.content).length →
            let number : Int := marked.text.newlinesBetween 0 offset - marked.markerCount offset + 1
            let offset' := seg'.content + (offset - seg.content)
            number = marked.lineNumberAt offset + lineTotal (marked.segments.take i)
            ∧ number = plain.lineNumberAt offset'
            ∧ ∃ g, marked.text[offset.toNat]? = some g ∧ plain.text[offset'.toNat]? = some g := by
  intro b marked plain
  refine ⟨markerCount_eq markers sources, segmentHolding_eq markers sources, ?_⟩
  intro i s hs
  obtain ⟨before, after, hsplit, rfl⟩ := exists_around hs
  subst hsplit
  refine ⟨segmentOf true before s, segmentOf false before s, segments_at true before s after hnames,
    segments_at false before s after hnames, ?_⟩
  intro offset hstart hstop number offset'
  have hcontent : (segmentOf true before s).content = (leadOf true before s).length := rfl
  have hcontent' : (segmentOf false before s).content = (leadOf false before s).length := rfl
  -- the position by its distance from the start of the content
  obtain ⟨d, hd⟩ := Int.eq_ofNat_of_zero_le (Int.sub_nonneg_of_le hstart)
  have hoffset : offset = ((leadOf true before s).length + d : Nat) := by omega
  have hoffset' : offset' = ((leadOf false before s).length + d : Nat) := by
    simp only [offset', hd]
    omega
  have hlt : d < (Text.closeLine s.content).length := by omega
  have hnumber : number
      = (linesTaken false before + Text.newlines ((Text.closeLine s.content).take d)
          + 1 : Nat) := by
    simp only [number, hoffset]
    exact running_line_in_content hnames hlt
  refine ⟨?_, ?_, (Text.closeLine s.content)[d], ?_, ?_⟩
  · rw [hnumber, hoffset, lineNumberAt_in_content hlt, lineTotal_take]
    omega
  · rw [hnumber, hoffset', lineNumberAt_in_plain_content hnames hlt]
  · rw [hoffset, Int.toNat_natCast, glyph_in_content hlt true, List.getElem?_eq_getElem hlt]
  · rw [hoffset', Int.toNat_natCast, glyph_in_content hlt false, List.getElem?_eq_getElem hlt]

/-- Without markers an empty file starts where the next one does, and the next one is
    found; with markers its marker is counted, and no line. -/
theorem lookup_counts_empty_file :
    let sources : List Source :=
      [⟨"a.ino", "int a;"⟩, ⟨"b.ino", ""⟩, ⟨"c.ino", "int c;\nint d;"⟩]
    (unify false sources).segmentHolding 7 = some ⟨"c.ino", none, 7, 2, 2⟩
    ∧ (unify true sources).markerCount 62 = 3
    ∧ (unify true sources).lineNumberAt 62 + 1 = (unify false sources).lineNumberAt 14 := by
  intro sources
  obtain ⟨-, hholding, -⟩ := lookup_counts false sources (by decide)
  obtain ⟨hcount, -, hlines⟩ := lookup_counts true sources (by decide)
  obtain ⟨seg, seg', hseg, hseg', hnumber⟩ := hlines 2 _ rfl
  obtain rfl := Option.some.inj hseg
  obtain rfl := Option.some.inj hseg'
  obtain ⟨hmarked, hplain, -⟩ := hnumber 62 (by decide) (by decide)
  exact ⟨(hholding 7).trans (by decide), (hcount 62).trans (by decide), hmarked.symm.trans hplain⟩

end Buffer

end SketchMerge
