import SketchMerge.Proofs.Sketch.LineNumbers

/-! # Where the lines of a unified text come from

    A line of a text is known by the position at which it starts (`LineStart`).  In a
    unified text every line starts in the marker of a source or in its content, and
    the segments say which lines are which: their ranges of lines follow each other
    and leave out the marker lines only.  So the first segment whose range holds a
    line is the only one, and looking a line up gives the file and the line in it that
    stand there (`origin_eq_some_iff`), or nothing for a marker line and for a number
    that no line has (`origin_eq_none_iff`). -/

namespace SketchMerge

-- ── Lines by their starts ───────────────────────────────────────────────────

namespace Text

theorem newlines_append (s t : Text) : newlines (s ++ t) = s.newlines + t.newlines :=
  List.count_append

theorem newlines_eq_zero {t : Text} (h : Glyph.newline ∉ t) : t.newlines = 0 :=
  List.count_eq_zero.mpr h

/-- Line `n` of the text, the first one being line 1, starts behind `p` glyphs. -/
def LineStart (t : Text) (n : Int) (p : Nat) : Prop :=
  p < t.length ∧ Closed (t.take p) ∧ n = newlines (t.take p) + 1

/-- A line keeps its place behind a closed text. -/
theorem LineStart.append {a t : Text} {n : Int} {p : Nat} (ha : a.Closed) (h : t.LineStart n p)
    (z : Text) : LineStart (a ++ t ++ z) (a.newlines + n) (a.length + p) := by
  obtain ⟨hlt, hclosed, hn⟩ := h
  have htake : (a ++ t ++ z).take (a.length + p) = a ++ t.take p := by
    rw [List.append_assoc, Buffer.take_append_add, List.take_append_of_le_length (Nat.le_of_lt hlt)]
  refine ⟨?_, ?_, ?_⟩
  · simp only [List.length_append]
    omega
  · rw [htake]
    exact ha.append hclosed
  · rw [htake, newlines_append, hn]
    omega

/-- The number of a line of a closed text. -/
theorem LineStart.bounds {t : Text} {n : Int} {p : Nat} (ht : t.Closed) (h : t.LineStart n p) :
    1 ≤ n ∧ n ≤ t.newlines := by
  obtain ⟨hlt, -, hn⟩ := h
  have hsplit := List.take_append_drop p t
  have hrest : t.drop p ≠ [] := by
    intro hnil
    have := List.length_drop (i := p) (l := t)
    rw [hnil, List.length_nil] at this
    omega
  -- the line is over before the text is, so there is a newline from its start on
  have hmem : Glyph.newline ∈ t.drop p := (hsplit.symm ▸ ht).exists_newline hrest
  have hpos : 0 < newlines (t.drop p) := List.count_pos_iff.mpr hmem
  have hcount := newlines_append (t.take p) (t.drop p)
  rw [hsplit] at hcount
  omega

/-- Every line that is over starts somewhere. -/
theorem exists_lineStart {k : Nat} :
    ∀ {t : Text}, k < t.newlines → ∃ p, t.LineStart (k + 1 : Nat) p := by
  induction k with
  | zero =>
      intro t ht
      refine ⟨0, ?_, .inl (List.take_zero ..), ?_⟩
      · exact List.length_pos_of_mem (List.count_pos_iff.mp ht)
      · rw [List.take_zero]
        rfl
  | succ k ih =>
      intro t ht
      have hmem : Glyph.newline ∈ t := List.count_pos_iff.mp (Nat.lt_of_le_of_lt (Nat.zero_le _) ht)
      obtain ⟨l, rest, rfl, hl⟩ := List.eq_append_cons_of_mem hmem
      have hfirst : newlines (l ++ [Glyph.newline]) = 1 := by
        rw [newlines_append, newlines_eq_zero hl]
        rfl
      have hsplit : l ++ Glyph.newline :: rest = l ++ [Glyph.newline] ++ rest ++ [] := by
        simp only [List.append_assoc, List.singleton_append, List.append_nil]
      rw [hsplit, newlines_append, newlines_append, hfirst] at ht
      have hrest : k < newlines rest := by
        have hnil : newlines [] = 0 := rfl
        omega
      obtain ⟨p, hp⟩ := ih hrest
      refine ⟨(l ++ [Glyph.newline]).length + p, ?_⟩
      rw [hsplit]
      have hmoved := hp.append (.inr ⟨l, rfl⟩) []
      rw [hfirst] at hmoved
      rw [show ((k + 1 + 1 : Nat) : Int) = ((1 : Nat) : Int) + ((k + 1 : Nat) : Int) by omega]
      exact hmoved

/-- The start of a line gives its number. -/
theorem LineStart.unique {t : Text} {n n' : Int} {p : Nat} (h : t.LineStart n p)
    (h' : t.LineStart n' p) : n = n' :=
  h.2.2.trans h'.2.2.symm

/-- The lines of a closed text between others, by number and by start. -/
theorem lineStart_between_iff {a c : Text} (ha : a.Closed) (hc : c.Closed) (z : Text) (n k : Int) :
    (∃ q, c.LineStart k q ∧ LineStart (a ++ c ++ z) n (a.length + q)) ↔
      n = a.newlines + k ∧ 1 ≤ k ∧ k ≤ c.newlines := by
  constructor
  · rintro ⟨q, hk, hn⟩
    exact ⟨hn.unique (hk.append ha z), hk.bounds hc⟩
  · rintro ⟨rfl, hpos, hle⟩
    obtain ⟨j, hj⟩ := Int.eq_ofNat_of_zero_le (show 0 ≤ k - 1 by omega)
    have hlt : j < c.newlines := by omega
    obtain ⟨q, hq⟩ := exists_lineStart hlt
    rw [show ((j + 1 : Nat) : Int) = k by omega] at hq
    exact ⟨q, hq, hq.append ha z⟩

end Text

namespace Buffer

-- ── Segments in full ────────────────────────────────────────────────────────

/-- All that stands in front of the content of a source. -/
def leadOf (markers : Bool) (before : List Source) (s : Source) : Text :=
  before.flatMap (pieceOf markers) ++ if markers then markerFor s.name else []

/-- The segment of a source, read off the text in front of its content. -/
def segmentOf (markers : Bool) (before : List Source) (s : Source) : Segment :=
  { name := s.name
    marker := if markers then some ((before.flatMap (pieceOf markers)).length : Int) else none
    content := (leadOf markers before s).length
    firstLine := (leadOf markers before s).newlines + 1
    lineCount := (Text.closeLine s.content).newlines }

theorem unify_text_around (markers : Bool) (before : List Source) (s : Source)
    (after : List Source) :
    (unify markers (before ++ s :: after)).text
      = leadOf markers before s ++ Text.closeLine s.content
        ++ after.flatMap (pieceOf markers) := by
  rw [unify_text_split, leadOf, pieceOf]
  simp only [List.append_assoc]

theorem closed_leadOf (markers : Bool) (before : List Source) (s : Source) :
    (leadOf markers before s).Closed := by
  refine (closed_flatMap markers before).append ?_
  cases markers with
  | false => exact .inl rfl
  | true => exact .inr ⟨markerLine s.name, markerFor_eq s.name⟩

theorem newlines_markerFor {name : Text} (h : Glyph.newline ∉ name) :
    (markerFor name).newlines = 1 := by
  have hopen : Text.newlines "#line 1 \"" = 0 := by decide
  have hclose : Text.newlines "\"\n" = 1 := by decide
  rw [markerFor, Text.newlines_append, Text.newlines_append, Text.newlines_eq_zero h, hopen, hclose]

/-- A name without a newline makes its marker one line. -/
theorem newlines_pieceOf (markers : Bool) {s : Source} (h : Glyph.newline ∉ s.name) :
    (pieceOf markers s).newlines
      = (if markers then 1 else 0) + (Text.closeLine s.content).newlines := by
  rw [pieceOf, Text.newlines_append]
  cases markers with
  | false => rfl
  | true =>
      simp only [if_true]
      rw [newlines_markerFor h]

/-- The line of a marker is the last one in front of the content. -/
theorem newlines_leadOf_marked (before : List Source) {s : Source} (h : Glyph.newline ∉ s.name) :
    (leadOf true before s).newlines = Text.newlines (before.flatMap (pieceOf true)) + 1 := by
  rw [leadOf, if_pos rfl, Text.newlines_append, newlines_markerFor h]

theorem linesTaken_eq (markers : Bool) {sources : List Source}
    (h : ∀ s ∈ sources, Glyph.newline ∉ s.name) :
    linesTaken markers sources = Text.newlines (sources.flatMap (pieceOf markers)) := by
  induction sources with
  | nil => rfl
  | cons s sources ih =>
      rw [linesTaken, List.flatMap_cons, Text.newlines_append,
        newlines_pieceOf markers (h s (List.mem_cons_self ..)),
        ih fun x hx => h x (List.mem_cons_of_mem _ hx)]

/-- **WHERE A SOURCE LIES** is what its segment says. -/
theorem segments_at (markers : Bool) (before : List Source) (s : Source) (after : List Source)
    (h : ∀ x ∈ before ++ s :: after, Glyph.newline ∉ x.name) :
    (unify markers (before ++ s :: after)).segments[before.length]?
      = some (segmentOf markers before s) := by
  have hbefore : ∀ x ∈ before, Glyph.newline ∉ x.name :=
    fun x hx => h x (List.mem_append_left _ hx)
  have hs : Glyph.newline ∉ s.name := h s (List.mem_append_right _ (List.mem_cons_self ..))
  show (segmentsFrom markers 0 1 (before ++ s :: after))[before.length]? = _
  rw [segmentsFrom_append, List.getElem?_append_right (Nat.le_of_eq (length_segmentsFrom ..)),
    length_segmentsFrom, Nat.sub_self, segmentsFrom, linesTaken_eq markers hbefore, segmentOf,
    leadOf]
  refine congrArg some ?_
  cases markers with
  | false =>
      simp only [Bool.false_eq_true, if_false, List.append_nil, Nat.zero_add]
      congr 1
      omega
  | true =>
      simp only [if_true, List.length_append, Text.newlines_append, newlines_markerFor hs,
        Nat.zero_add]
      congr 1
      omega

/-- Every segment is the segment of a source. -/
theorem mem_segments_iff {markers : Bool} {sources : List Source}
    (h : ∀ x ∈ sources, Glyph.newline ∉ x.name) (seg : Segment) :
    seg ∈ (unify markers sources).segments ↔
      ∃ before s after, sources = before ++ s :: after ∧ seg = segmentOf markers before s := by
  constructor
  · intro hseg
    obtain ⟨i, hi⟩ := List.mem_iff_getElem?.mp hseg
    have hlt : i < sources.length := by
      rw [← length_segmentsFrom markers sources 0 1]
      exact (List.getElem?_eq_some_iff.mp hi).1
    obtain ⟨before, after, hsplit, rfl⟩ := exists_around (List.getElem?_eq_getElem hlt)
    generalize sources[before.length] = s at hsplit
    subst hsplit
    rw [segments_at markers before s after h] at hi
    exact ⟨before, s, after, rfl, (Option.some.inj hi).symm⟩
  · rintro ⟨before, s, after, rfl, rfl⟩
    exact List.mem_of_getElem? (segments_at markers before s after h)

-- ── Ranges of lines ─────────────────────────────────────────────────────────

/-- Line `n` of the unified text is line `k` of a source with others before it, by the
    numbers of lines. -/
def InRange (markers : Bool) (before : List Source) (s : Source) (n k : Int) : Prop :=
  n = (leadOf markers before s).newlines + k ∧ 1 ≤ k ∧ k ≤ (Text.closeLine s.content).newlines

/-- A segment's range of lines, in numbers. -/
theorem segmentOf_range_iff (markers : Bool) (before : List Source) (s : Source) (n : Int) :
    (segmentOf markers before s).firstLine ≤ n
        ∧ n < (segmentOf markers before s).firstLine + (segmentOf markers before s).lineCount
      ↔ InRange markers before s n (n - (segmentOf markers before s).firstLine + 1) := by
  simp only [segmentOf, InRange]
  omega

theorem newlines_le_of_append (markers : Bool) (before mid : List Source) (s : Source) :
    (leadOf markers before s).newlines + (Text.closeLine s.content).newlines
      ≤ Text.newlines ((before ++ s :: mid).flatMap (pieceOf markers)) := by
  rw [← unify_text, unify_text_around, Text.newlines_append, Text.newlines_append]
  omega

theorem newlines_le_leadOf (markers : Bool) (before : List Source) (s : Source) :
    Text.newlines (before.flatMap (pieceOf markers)) ≤ (leadOf markers before s).newlines := by
  rw [leadOf, Text.newlines_append]
  omega

/-- The ranges of two sources have no line in common. -/
theorem InRange.unique {markers : Bool} {before before' after after' : List Source}
    {s s' : Source} {n k k' : Int} (hsplit : before ++ s :: after = before' ++ s' :: after')
    (h : InRange markers before s n k) (h' : InRange markers before' s' n k') :
    before = before' ∧ s = s' ∧ k = k' := by
  obtain ⟨hn, hpos, hle⟩ := h
  obtain ⟨hn', hpos', hle'⟩ := h'
  rcases around_order hsplit with ⟨rfl, rfl, -⟩ | ⟨mid, rfl⟩ | ⟨mid, rfl⟩
  · exact ⟨rfl, rfl, by omega⟩
  · have h₁ := newlines_le_of_append markers before mid s
    have h₂ := newlines_le_leadOf markers (before ++ s :: mid) s'
    omega
  · have h₁ := newlines_le_of_append markers before' mid s'
    have h₂ := newlines_le_leadOf markers (before' ++ s' :: mid) s
    omega

/-- The line of a marker is in no range. -/
theorem InRange.ne_marker {before before' after after' : List Source} {s s' : Source} {n k : Int}
    (hnames : ∀ x ∈ before ++ s :: after, Glyph.newline ∉ x.name)
    (hsplit : before ++ s :: after = before' ++ s' :: after') (h : InRange true before s n k) :
    n ≠ Text.newlines (before'.flatMap (pieceOf true)) + 1 := by
  intro hmarker
  obtain ⟨hn, hpos, hle⟩ := h
  have hlead := newlines_leadOf_marked before
    (hnames s (List.mem_append_right _ (List.mem_cons_self ..)))
  have hlead' := newlines_leadOf_marked before'
    (hnames s' (hsplit ▸ List.mem_append_right _ (List.mem_cons_self ..)))
  rcases around_order hsplit with ⟨rfl, -, -⟩ | ⟨mid, rfl⟩ | ⟨mid, rfl⟩
  · omega
  · have := newlines_le_of_append true before mid s
    omega
  · have := newlines_le_of_append true before' mid s'
    omega

/-- A line of the text stands in the piece of one source. -/
theorem exists_piece (markers : Bool) (sources : List Source) :
    ∀ n : Nat, 0 < n → n ≤ Text.newlines (sources.flatMap (pieceOf markers)) →
      ∃ before s after, sources = before ++ s :: after
        ∧ Text.newlines (before.flatMap (pieceOf markers)) < n
        ∧ n ≤ (leadOf markers before s).newlines + (Text.closeLine s.content).newlines := by
  induction sources with
  | nil =>
      intro n hpos hle
      exact absurd hle (Nat.not_le.mpr hpos)
  | cons s sources ih =>
      intro n hpos hle
      rw [List.flatMap_cons, Text.newlines_append] at hle
      have hpiece : (leadOf markers [] s).newlines + (Text.closeLine s.content).newlines
          = (pieceOf markers s).newlines := by
        rw [leadOf, List.flatMap_nil, List.nil_append, pieceOf, Text.newlines_append]
      rcases Nat.lt_or_ge (pieceOf markers s).newlines n with hlt | hge
      · obtain ⟨before, t, after, hsplit, hbefore, hin⟩ :=
          ih (n - (pieceOf markers s).newlines) (by omega) (by omega)
        have hcons : (leadOf markers (s :: before) t).newlines
            = (pieceOf markers s).newlines + (leadOf markers before t).newlines := by
          rw [leadOf, leadOf, List.flatMap_cons, List.append_assoc, Text.newlines_append]
        refine ⟨s :: before, t, after, by rw [hsplit]; rfl, ?_, by omega⟩
        rw [List.flatMap_cons, Text.newlines_append]
        omega
      · exact ⟨[], s, sources, rfl, hpos, by omega⟩

-- ── Looking a line up ───────────────────────────────────────────────────────

section

variable (markers : Bool) {sources : List Source}

/-- **LOOKING A LINE UP** finds the one source in whose range it is. -/
theorem origin_eq_some_iff (h : ∀ s ∈ sources, Glyph.newline ∉ s.name) (n : Int) (name : Text)
    (k : Int) :
    (unify markers sources).origin n = some (name, k) ↔
      ∃ before s after, sources = before ++ s :: after ∧ s.name = name
        ∧ InRange markers before s n k := by
  rw [origin, Option.map_eq_some_iff]
  constructor
  · rintro ⟨seg, hfind, heq⟩
    obtain ⟨before, s, after, hsplit, rfl⟩ := (mem_segments_iff h seg).mp (List.mem_of_find?_eq_some hfind)
    obtain ⟨hname, hk⟩ := Prod.mk.inj heq
    have hrange := List.find?_some hfind
    rw [Bool.and_eq_true, decide_eq_true_eq, decide_eq_true_eq, segmentOf_range_iff, hk] at hrange
    exact ⟨before, s, after, hsplit, hname, hrange⟩
  · rintro ⟨before, s, after, hsplit, rfl, hrange⟩
    have hk : k = n - (segmentOf markers before s).firstLine + 1 := by
      have := hrange.1
      simp only [segmentOf]
      omega
    have hmem : segmentOf markers before s ∈ (unify markers sources).segments :=
      (mem_segments_iff h _).mpr ⟨before, s, after, hsplit, rfl⟩
    -- some segment is found, and a range that holds the line is the only one
    cases hfind : (unify markers sources).segments.find?
        fun seg => seg.firstLine ≤ n && n < seg.firstLine + seg.lineCount with
    | none =>
        have hnot := List.find?_eq_none.mp hfind _ hmem
        rw [Bool.and_eq_true, decide_eq_true_eq, decide_eq_true_eq, segmentOf_range_iff, ← hk]
          at hnot
        exact absurd hrange hnot
    | some seg =>
        obtain ⟨before', s', after', hsplit', rfl⟩ :=
          (mem_segments_iff h seg).mp (List.mem_of_find?_eq_some hfind)
        have hrange' := List.find?_some hfind
        rw [Bool.and_eq_true, decide_eq_true_eq, decide_eq_true_eq, segmentOf_range_iff] at hrange'
        obtain ⟨rfl, rfl, -⟩ := hrange.unique (hsplit.symm.trans hsplit') hrange'
        exact ⟨_, rfl, by rw [hk]; rfl⟩

/-- The line at a marker is the one before the first line of the content. -/
theorem lineStart_marker (before : List Source) (s : Source) (after : List Source) (n : Int) :
    (unify true (before ++ s :: after)).text.LineStart n (before.flatMap (pieceOf true)).length
      ↔ n = Text.newlines (before.flatMap (pieceOf true)) + 1 := by
  rw [unify_text_split, Text.LineStart, List.take_left]
  constructor
  · rintro ⟨-, -, hn⟩
    exact hn
  · intro hn
    refine ⟨?_, closed_flatMap true before, hn⟩
    rw [List.length_append, List.length_append, pieceOf_marked, markerFor_eq, List.length_append,
      List.length_append, List.length_singleton]
    omega

/-- **A LINE COMES FROM NO FILE** if it is the line of a marker, or no line at all. -/
theorem origin_eq_none_iff (h : ∀ s ∈ sources, Glyph.newline ∉ s.name) (n : Int) :
    (unify markers sources).origin n = none ↔
      (∃ before s after, sources = before ++ s :: after ∧ markers = true
        ∧ n = Text.newlines (before.flatMap (pieceOf true)) + 1)
      ∨ n < 1 ∨ (unify markers sources).text.newlines < n := by
  constructor
  · intro hnone
    by_cases hin : 1 ≤ n ∧ n ≤ (unify markers sources).text.newlines
    case neg => exact .inr (by omega)
    obtain ⟨m, rfl⟩ := Int.eq_ofNat_of_zero_le (show 0 ≤ n by omega)
    rw [unify_text] at hin
    obtain ⟨before, s, after, hsplit, hbefore, hle⟩ :=
      exists_piece markers sources m (by omega) (by omega)
    by_cases hlead : (leadOf markers before s).newlines < m
    · -- the line stands in the content and would be found
      have hfound := (origin_eq_some_iff markers h m s.name
        (m - (leadOf markers before s).newlines)).mpr
        ⟨before, s, after, hsplit, rfl, by omega, by omega, by omega⟩
      cases hnone.symm.trans hfound
    · have hs : Glyph.newline ∉ s.name :=
        h s (hsplit ▸ List.mem_append_right _ (List.mem_cons_self ..))
      cases markers with
      | false =>
          rw [leadOf, if_neg Bool.false_ne_true, List.append_nil] at hlead
          omega
      | true =>
          rw [newlines_leadOf_marked before hs] at hlead
          exact .inl ⟨before, s, after, hsplit, rfl, by omega⟩
  · intro hn
    cases hfound : (unify markers sources).origin n with
    | none => rfl
    | some found =>
        exfalso
        obtain ⟨before, s, after, hsplit, -, hrange⟩ := (origin_eq_some_iff markers h n found.1 found.2).mp hfound
        obtain ⟨hk, hpos, hle⟩ := hrange
        have hbound := newlines_le_of_append markers before after s
        rcases hn with ⟨before', s', after', hsplit', rfl, hn⟩ | hlow | hhigh
        · exact InRange.ne_marker (hsplit ▸ h) (hsplit.symm.trans hsplit') ⟨hk, hpos, hle⟩ hn
        · omega
        · rw [unify_text, hsplit] at hhigh
          omega

end

-- ── The whole account ───────────────────────────────────────────────────────

/-- Line `n` of the unified text is line `k` of the source with index `i`: both start at
    the same glyph. -/
def IsLineOf (markers : Bool) (sources : List Source) (i : Nat) (n k : Int) : Prop :=
  ∃ s seg, ∃ p q : Nat, sources[i]? = some s ∧ (unify markers sources).segments[i]? = some seg
    ∧ seg.content = p ∧ (Text.closeLine s.content).LineStart k q
    ∧ (unify markers sources).text.LineStart n (p + q)

/-- The lines of a source are those in its range. -/
theorem isLineOf_iff (markers : Bool) {sources : List Source}
    (h : ∀ s ∈ sources, Glyph.newline ∉ s.name) (i : Nat) (n k : Int) :
    IsLineOf markers sources i n k ↔ ∃ before s after, sources = before ++ s :: after
      ∧ before.length = i ∧ InRange markers before s n k := by
  have hline : ∀ before s after, sources = before ++ s :: after →
      (InRange markers before s n k ↔ ∃ q, (Text.closeLine s.content).LineStart k q
        ∧ (unify markers sources).text.LineStart n ((leadOf markers before s).length + q)) := by
    rintro before s after rfl
    rw [InRange, ← Text.lineStart_between_iff (closed_leadOf markers before s)
      (Text.closed_closeLine s.content) (after.flatMap (pieceOf markers)), ← unify_text_around]
  constructor
  · rintro ⟨s, seg, p, q, hs, hseg, hp, hk, hn⟩
    obtain ⟨before, after, hsplit, rfl⟩ := exists_around hs
    refine ⟨before, s, after, hsplit, rfl, (hline before s after hsplit).mpr ⟨q, hk, ?_⟩⟩
    subst hsplit
    rw [segments_at markers before s after h] at hseg
    obtain rfl := Option.some.inj hseg
    obtain rfl := Int.ofNat_inj.mp hp
    exact hn
  · rintro ⟨before, s, after, hsplit, rfl, hrange⟩
    obtain ⟨q, hk, hn⟩ := (hline before s after hsplit).mp hrange
    subst hsplit
    exact ⟨s, segmentOf markers before s, _, q, getElem?_around before s after,
      segments_at markers before s after h, rfl, hk, hn⟩

/-- The segment of a source says where its content stands in the text, on which line it
    starts and how many lines it has. -/
structure Locates (t : Text) (markers : Bool) (s : Source) (seg : Segment) (p : Nat) : Prop where
  name : seg.name = s.name
  marker : seg.marker = if markers then some (p - (markerFor s.name).length : Int) else none
  content : seg.content = p
  bound : p + (Text.closeLine s.content).length ≤ t.length
  slice : (t.drop p).take (Text.closeLine s.content).length = Text.closeLine s.content
  firstLine : seg.firstLine = Text.newlines (t.take p) + 1
  lineCount : seg.lineCount = (Text.closeLine s.content).newlines

theorem locates_segmentOf (markers : Bool) (before : List Source) (s : Source)
    (after : List Source) :
    Locates (unify markers (before ++ s :: after)).text markers s (segmentOf markers before s)
      (leadOf markers before s).length := by
  rw [unify_text_around, List.append_assoc]
  refine ⟨rfl, ?_, rfl, ?_, ?_, ?_, rfl⟩
  · cases markers with
    | false => rfl
    | true =>
        simp only [segmentOf, leadOf, if_true, List.length_append]
        congr 1
        omega
  · simp only [List.length_append]
    omega
  · rw [List.drop_left, List.take_left]
  · rw [List.take_left]
    rfl

section

variable (markers : Bool) {sources : List Source} (hnames : ∀ s ∈ sources, Glyph.newline ∉ s.name)

include hnames

theorem origin_iff_isLineOf (n : Int) (name : Text) (k : Int) :
    (unify markers sources).origin n = some (name, k) ↔
      ∃ (i : Nat) (s : Source), sources[i]? = some s ∧ s.name = name
        ∧ IsLineOf markers sources i n k := by
  rw [origin_eq_some_iff markers hnames]
  constructor
  · rintro ⟨before, s, after, hsplit, hname, hrange⟩
    exact ⟨before.length, s, hsplit ▸ getElem?_around before s after, hname,
      (isLineOf_iff markers hnames _ n k).mpr ⟨before, s, after, hsplit, rfl, hrange⟩⟩
  · rintro ⟨i, s, hs, hname, hline⟩
    obtain ⟨before, s', after, hsplit, rfl, hrange⟩ := (isLineOf_iff markers hnames i n k).mp hline
    rw [hsplit, getElem?_around] at hs
    obtain rfl := Option.some.inj hs
    exact ⟨before, s', after, hsplit, hname, hrange⟩

/-- The lines of markers, by the positions that the segments give. -/
theorem markerLine_iff (n : Int) :
    (∃ before s after, sources = before ++ s :: after ∧ markers = true
        ∧ n = Text.newlines (before.flatMap (pieceOf true)) + 1)
      ↔ ∃ seg ∈ (unify markers sources).segments, ∃ p : Nat, seg.marker = some (p : Int)
        ∧ (unify markers sources).text.LineStart n p := by
  constructor
  · rintro ⟨before, s, after, hsplit, rfl, hn⟩
    refine ⟨segmentOf true before s,
      (mem_segments_iff hnames _).mpr ⟨before, s, after, hsplit, rfl⟩, _, rfl, ?_⟩
    rw [hsplit]
    exact (lineStart_marker before s after n).mpr hn
  · rintro ⟨seg, hseg, p, hp, hline⟩
    obtain ⟨before, s, after, hsplit, rfl⟩ := (mem_segments_iff hnames seg).mp hseg
    cases markers with
    | false => cases hp
    | true =>
        obtain rfl := Int.ofNat_inj.mp (Option.some.inj hp)
        refine ⟨before, s, after, hsplit, rfl, (lineStart_marker before s after n).mp ?_⟩
        rw [← hsplit]
        exact hline

/-- A line of a source is one line of the text. -/
theorem exists_isLineOf {i : Nat} {s : Source} (hs : sources[i]? = some s) {k : Int} (hpos : 1 ≤ k)
    (hle : k ≤ (Text.closeLine s.content).newlines) :
    ∃ n, IsLineOf markers sources i n k ∧ ∀ n', IsLineOf markers sources i n' k → n' = n := by
  obtain ⟨before, after, hsplit, rfl⟩ := exists_around hs
  refine ⟨(leadOf markers before s).newlines + k,
    (isLineOf_iff markers hnames _ _ k).mpr ⟨before, s, after, hsplit, rfl, rfl, hpos, hle⟩, ?_⟩
  intro n' hline
  obtain ⟨before', s', after', hsplit', hlength, hrange⟩ :=
    (isLineOf_iff markers hnames _ n' k).mp hline
  obtain ⟨rfl, hcons⟩ := List.append_inj (hsplit.symm.trans hsplit') hlength.symm
  obtain ⟨rfl, -⟩ := List.cons.inj hcons
  exact hrange.1

/-- A line of the text is a line of one source at most. -/
theorem isLineOf_unique {i i' : Nat} {n k k' : Int} (hline : IsLineOf markers sources i n k)
    (hline' : IsLineOf markers sources i' n k') : i = i' ∧ k = k' := by
  obtain ⟨before, s, after, hsplit, rfl, hrange⟩ := (isLineOf_iff markers hnames i n k).mp hline
  obtain ⟨before', s', after', hsplit', rfl, hrange'⟩ :=
    (isLineOf_iff markers hnames i' n k').mp hline'
  obtain ⟨rfl, -, hk⟩ := hrange.unique (hsplit.symm.trans hsplit') hrange'
  exact ⟨rfl, hk⟩

end

/-- **THE SEGMENTS AND THE LOOK-UP OF LINES ARE EXACT.**  Sources whose names hold no
    newline are merged with or without markers.  There is one segment for each source, in
    order; the text is the closed contents, each behind its marker if markers are wanted;
    and a segment says where the content stands, on which line it starts and how many
    lines it has.  A line is traced back to a file and a line in it exactly if it is that
    line of that file, and to nothing exactly if it is the line of a marker or there is no
    such line.  So every line of every content is one line of the text, and no line of the
    text is more than one of them. -/
theorem unify_exact (markers : Bool) (sources : List Source)
    (hnames : ∀ s ∈ sources, Glyph.newline ∉ s.name) :
    let b := unify markers sources
    b.segments.length = sources.length
    ∧ b.text = (sources.map fun s =>
        (if markers then markerFor s.name else []) ++ Text.closeLine s.content).flatten
    ∧ (∀ (i : Nat) (s : Source), sources[i]? = some s →
        ∃ seg p, b.segments[i]? = some seg ∧ Locates b.text markers s seg p)
    ∧ (∀ n name k, b.origin n = some (name, k) ↔
        ∃ (i : Nat) (s : Source), sources[i]? = some s ∧ s.name = name
          ∧ IsLineOf markers sources i n k)
    ∧ (∀ n, b.origin n = none ↔
        (∃ seg ∈ b.segments, ∃ p : Nat, seg.marker = some (p : Int) ∧ b.text.LineStart n p)
        ∨ n < 1 ∨ b.text.newlines < n)
    ∧ (∀ (i : Nat) (s : Source), sources[i]? = some s →
        ∀ k : Int, 1 ≤ k → k ≤ (Text.closeLine s.content).newlines →
          ∃ n, IsLineOf markers sources i n k ∧ ∀ n', IsLineOf markers sources i n' k → n' = n)
    ∧ (∀ i i' n k k', IsLineOf markers sources i n k → IsLineOf markers sources i' n k' →
        i = i' ∧ k = k') := by
  intro b
  refine ⟨length_segmentsFrom markers sources 0 1, List.flatMap_def, ?_,
    origin_iff_isLineOf markers hnames, ?_, ?_, ?_⟩
  · intro i s hs
    obtain ⟨before, after, hsplit, rfl⟩ := exists_around hs
    have hseg := segments_at markers before s after (hsplit ▸ hnames)
    have hlocates := locates_segmentOf markers before s after
    rw [← hsplit] at hseg hlocates
    exact ⟨_, _, hseg, hlocates⟩
  · intro n
    rw [origin_eq_none_iff markers hnames, markerLine_iff markers hnames]
  · intro i s hs k hpos hle
    exact exists_isLineOf markers hnames hs hpos hle
  · intro i i' n k k' hline hline'
    exact isLineOf_unique markers hnames hline hline'

/-- An empty file without markers shares its position and its first line with the next
    file, and still the first line is traced back to the file that has it. -/
theorem unify_exact_empty_file :
    ∃ n, IsLineOf false [⟨"a.ino", ""⟩, ⟨"b.ino", "int b;"⟩] 1 n 1
      ∧ (unify false [⟨"a.ino", ""⟩, ⟨"b.ino", "int b;"⟩]).origin n = some (Text.ofString "b.ino", 1) := by
  obtain ⟨-, -, -, horigin, -, hlines, -⟩ :=
    unify_exact false [⟨"a.ino", ""⟩, ⟨"b.ino", "int b;"⟩] (by decide)
  obtain ⟨n, hline, -⟩ := hlines 1 ⟨"b.ino", "int b;"⟩ rfl 1 (by decide) (by decide)
  exact ⟨n, hline, (horigin n "b.ino" 1).mpr ⟨1, _, rfl, rfl, hline⟩⟩

end Buffer

end SketchMerge
