import SketchMerge.Proofs.Prototype.Pieces

/-! # What the counts find in any text

    A declaration may come with brackets that do not match, and the counts go on all
    the same: below nothing and back again.  What they find is still said by counting.
    A text is cut at the commas in front of which AS MANY brackets are closed as
    opened, and its parameter list ends where the first parenthesis is made up for,
    at the FIRST place where as many are closed as opened. -/

namespace SketchMerge.Parameters

-- ── Counts as differences ───────────────────────────────────────────────────

/-- How many brackets open in a text. -/
def opened (t : Text) : Nat :=
  t.count (.char '(') + t.count (.char '[') + t.count (.char '\x7b')

/-- How many brackets close in a text. -/
def closed (t : Text) : Nat :=
  t.count (.char ')') + t.count (.char ']') + t.count (.char '\x7d')

/-- How far a text leads into brackets is what it opens without what it closes. -/
theorem rise_depthChange (t : Text) : rise depthChange t = opened t - closed t := by
  induction t with
  | nil => rfl
  | cons g t ih =>
      have hglyph : depthChange g = opened [g] - closed [g] := by
        simp only [depthChange, isOpener, isCloser, Bool.or_eq_true, Glyph.is_iff]
        by_cases hopen : (g = .char '(' ∨ g = .char '[') ∨ g = .char '\x7b'
        · rcases hopen with (rfl | rfl) | rfl <;> rfl
        · rw [if_neg hopen]
          by_cases hclose : (g = .char ')' ∨ g = .char ']') ∨ g = .char '\x7d'
          · rcases hclose with (rfl | rfl) | rfl <;> rfl
          · simp only [not_or] at hopen hclose
            simp [opened, closed, hopen, hclose]
      rw [rise_cons, ih, hglyph]
      simp only [opened, closed, List.count_cons, List.count_nil]
      omega

theorem rise_parenthesisChange (t : Text) :
    rise parenthesisChange t = t.count (.char '(') - t.count (.char ')') := by
  induction t with
  | nil => rfl
  | cons g t ih =>
      rw [rise_cons, ih, parenthesisChange]
      by_cases hopen : g = .char '('
      · subst hopen
        simp [Glyph.is]
        omega
      · rw [if_neg fun h => hopen (Glyph.is_iff.mp h), List.count_cons_of_ne hopen]
        by_cases hclose : g = .char ')'
        · subst hclose
          simp [Glyph.is]
          omega
        · rw [if_neg fun h => hclose (Glyph.is_iff.mp h), List.count_cons_of_ne hclose]
          omega

-- ── The commas that separate ────────────────────────────────────────────────

/-- Where parts that are put together meet: the places of what stands between them. -/
def cuts : List Text → List Nat
  | part :: next :: parts => part.length :: (cuts (next :: parts)).map (· + (part.length + 1))
  | _ => []

/-- A parameter ends at a place: a comma stands there, and in front of it as many brackets
    are closed as opened. -/
def separates (t : Text) (i : Nat) : Bool :=
  t[i]? == some (.char ',') && opened (t.take i) == closed (t.take i)

/-- A cut in front of all parts. -/
theorem cuts_nil_cons {parts : List Text} (h : parts ≠ []) :
    cuts ([] :: parts) = 0 :: (cuts parts).map (· + 1) := by
  obtain ⟨part, parts, rfl⟩ := List.exists_cons_of_ne_nil h
  rfl

/-- One more glyph in the first part moves every cut by one. -/
theorem cuts_consFirst {parts : List Text} (h : parts ≠ []) (g : Glyph) :
    cuts (consFirst g parts) = (cuts parts).map (· + 1) := by
  obtain ⟨part, parts, rfl⟩ := List.exists_cons_of_ne_nil h
  cases parts with
  | nil => rfl
  | cons next parts =>
      rw [consFirst, cuts, cuts, List.map_cons, List.map_map, List.length_cons]
      rfl

/-- **THE CUTS**, when `depth` more brackets were opened before. -/
theorem cuts_splitFrom (depth : Int) (t : Text) :
    cuts (splitFrom depth t) = (List.range t.length).filter fun i =>
      t[i]? == some (.char ',') && depth + rise depthChange (t.take i) == 0 := by
  induction t generalizing depth with
  | nil => rfl
  | cons g t ih =>
      -- behind the first glyph, the places of the text are those of its rest
      have hrest : (((List.range t.length).map Nat.succ).filter fun i =>
            (g :: t)[i]? == some (.char ',') &&
              depth + rise depthChange ((g :: t).take i) == 0)
          = (cuts (splitFrom (depth + depthChange g) t)).map (· + 1) := by
        rw [ih, List.filter_map]
        congr 1
        refine List.filter_congr fun i _ => ?_
        simp [Int.add_assoc]
      rw [List.length_cons, List.range_succ_eq_map]
      by_cases hcut : g = .char ',' ∧ depth = 0
      · obtain ⟨rfl, rfl⟩ := hcut
        rw [List.filter_cons_of_pos (by rfl), hrest, splitFrom_comma,
          cuts_nil_cons (splitFrom_ne_nil 0 t)]
        rfl
      · have hkept : ¬ (g.is ',' && depth == 0) = true := by
          rwa [Bool.and_eq_true, Glyph.is_iff, beq_iff_eq]
        rw [List.filter_cons_of_neg (by simpa using hcut), hrest, splitFrom, if_neg hkept,
          cuts_consFirst (splitFrom_ne_nil _ t)]

/-- A list is cut at the commas that separate. -/
theorem cuts_split (t : Text) : cuts (split t) = (List.range t.length).filter (separates t) := by
  rw [split, cuts_splitFrom]
  refine List.filter_congr fun i _ => ?_
  rw [separates, rise_depthChange, Int.zero_add]
  congr 1
  rw [Bool.eq_iff_iff, beq_iff_eq, beq_iff_eq]
  omega

-- ── The parenthesis that is made up for ─────────────────────────────────────

/-- From one place up to another, that one included, as many parentheses are closed as
    opened. -/
def Balanced (t : Text) (start j : Nat) : Prop :=
  (t.slice start (j + 1)).count (.char '(') = (t.slice start (j + 1)).count (.char ')')

/-- The first parenthesis opens at one place and is closed at another, which is the least
    behind it where as many are closed as opened. -/
structure Spans (t : Text) (start j : Nat) : Prop where
  opens : t[start]? = some (.char '(')
  first : ∀ k < start, t[k]? ≠ some (.char '(')
  behind : start ≤ j
  closes : t[j]? = some (.char ')')
  balanced : Balanced t start j
  least : ∀ k, start ≤ k → k < j → ¬ Balanced t start k

section

variable {depth : Int} {t : Text}

/-- A count that moves by one at most and never makes up for one more than it starts with
    does not fall below where it must end. -/
theorem closes_of_ne (hdepth : 0 ≤ depth) (hend : depth + rise parenthesisChange t = 0)
    (hne : ∀ n ≤ t.length, depth + rise parenthesisChange (t.take n) ≠ -1) :
    Closes parenthesisChange depth t := by
  induction t generalizing depth with
  | nil =>
      rw [rise_nil, Int.add_zero] at hend
      exact hend
  | cons g t ih =>
      have hstep : -1 ≤ parenthesisChange g := by
        rw [parenthesisChange]
        split
        · decide
        · split <;> decide
      have hfirst := hne 1 (by simp)
      rw [List.take_succ_cons, List.take_zero, rise_cons, rise_nil] at hfirst
      refine ⟨hdepth, ih (by omega) ?_ fun n hn => ?_⟩
      · rw [rise_cons] at hend
        omega
      · have := hne (n + 1) (by simpa using hn)
        rwa [List.take_succ_cons, rise_cons, ← Int.add_assoc] at this

end

section

variable {before rest : Text} {n : Nat}

/-- The text from a place on, up to `n` glyphs behind it. -/
theorem slice_behind (before : Text) (g : Glyph) (rest : Text) (n : Nat) :
    Text.slice (before ++ g :: rest) before.length (before.length + n + 1) = g :: rest.take n := by
  rw [Text.slice, Nat.add_assoc, List.take_length_add_append, List.drop_left, List.take_succ_cons]

/-- As many are closed as opened where the count behind the first parenthesis has fallen by
    one. -/
theorem balanced_iff : Balanced (before ++ .char '(' :: rest) before.length (before.length + n) ↔
    rise parenthesisChange (rest.take n) = -1 := by
  rw [Balanced, slice_behind, rise_parenthesisChange]
  simp
  omega

/-- **THE SPAN** of a framed list. -/
theorem spans_of_framed {inner after t : Text} (h : Framed before inner after t) :
    Spans t before.length (before.length + 1 + inner.length) := by
  obtain ⟨rfl, hfirst, hcloses⟩ := h
  have hplace : before.length + 1 + inner.length = before.length + (inner.length + 1) := by omega
  have hend : (inner ++ .char ')' :: after).take (inner.length + 1) = inner ++ [.char ')'] := by
    rw [List.take_length_add_append]
    rfl
  constructor
  case opens => exact getElem?_around ..
  case first =>
      intro k hk heq
      rw [List.getElem?_append_left hk] at heq
      exact hfirst (List.mem_of_getElem? heq)
  case behind => omega
  case closes =>
      rw [hplace, List.getElem?_append_right (by omega), Nat.add_sub_cancel_left,
        List.getElem?_cons_succ]
      exact getElem?_around ..
  case balanced =>
      have hrise := hcloses.total
      rw [Int.zero_add] at hrise
      rw [hplace, balanced_iff, hend, rise_append, hrise]
      rfl
  case least =>
      intro k hstart hk hbalanced
      obtain ⟨n, rfl⟩ := Nat.exists_eq_add_of_le hstart
      rw [balanced_iff, List.take_append_of_le_length (by omega)] at hbalanced
      have := hcloses.take_nonneg n
      omega

/-- What spans is framed. -/
theorem framed_of_spans {t : Text} {start j : Nat} (h : Spans t start j) :
    ∃ before inner after, Framed before inner after t ∧ before.length = start ∧
      j = start + 1 + inner.length := by
  obtain ⟨before, rest, rfl, rfl⟩ := exists_around h.opens
  obtain ⟨n, rfl⟩ := Nat.exists_eq_add_of_le h.behind
  have hcloses := h.closes
  rw [List.getElem?_append_right (Nat.le_add_right ..), Nat.add_sub_cancel_left] at hcloses
  cases n with
  | zero => exact absurd (Option.some.inj hcloses) (by decide)
  | succ n =>
      rw [List.getElem?_cons_succ] at hcloses
      obtain ⟨inner, after, rfl, rfl⟩ := exists_around hcloses
      have hbalanced := h.balanced
      have hend : (inner ++ .char ')' :: after).take (inner.length + 1) = inner ++ [.char ')'] := by
        rw [List.take_length_add_append]
        rfl
      rw [balanced_iff, hend, rise_append] at hbalanced
      refine ⟨before, inner, after, ⟨rfl, fun hmem => ?_, ?_⟩, rfl, by omega⟩
      · obtain ⟨k, hk, hget⟩ := List.mem_iff_getElem.mp hmem
        refine h.first k hk ?_
        rw [List.getElem?_append_left hk, List.getElem?_eq_getElem hk, hget]
      · refine closes_of_ne (Int.le_refl 0) ?_ fun n hn hrise => ?_
        · have hlast : rise parenthesisChange [.char ')'] = -1 := rfl
          omega
        · refine h.least (before.length + n) (by omega) (by omega) ?_
          rw [balanced_iff, List.take_append_of_le_length hn]
          omega

/-- In front of the place that closes the first parenthesis, more are opened than closed. -/
theorem Spans.more_opened {t : Text} {start j k : Nat} (h : Spans t start j) (hstart : start ≤ k)
    (hk : k < j) :
    (t.slice start (k + 1)).count (.char ')') < (t.slice start (k + 1)).count (.char '(') := by
  obtain ⟨before, inner, after, ⟨rfl, -, hcloses⟩, rfl, rfl⟩ := framed_of_spans h
  obtain ⟨n, rfl⟩ := Nat.exists_eq_add_of_le hstart
  have hnonneg := hcloses.take_nonneg n
  rw [rise_parenthesisChange] at hnonneg
  rw [slice_behind, List.take_append_of_le_length (by omega)]
  simp
  omega

end

theorem span?_eq_some_iff_spans {t : Text} {i j : Nat} :
    span? t = some (i, j) ↔ ∃ start, i = start + 1 ∧ Spans t start j := by
  rw [span?_eq_some_iff]
  constructor
  · rintro ⟨before, inner, after, hframed, rfl, rfl⟩
    exact ⟨before.length, rfl, spans_of_framed hframed⟩
  · rintro ⟨start, rfl, hspans⟩
    obtain ⟨before, inner, after, hframed, rfl, rfl⟩ := framed_of_spans hspans
    exact ⟨before, inner, after, hframed, rfl, rfl⟩

/-- **BOTH SCANS ARE EXACT ON EVERY TEXT.**  A list is cut at the commas that separate and
    nowhere else, and nothing of it is lost; the parameters are found where the first
    parenthesis is made up for, and only if it is. -/
theorem scans_exact (t : Text) :
    (Text.joinWith "," (split t) = t ∧
      cuts (split t) = (List.range t.length).filter (separates t)) ∧
    (∀ i j, span? t = some (i, j) ↔ ∃ start, i = start + 1 ∧ Spans t start j) ∧
    (span? t = none ↔ ¬ ∃ start j, Spans t start j) ∧
    (∀ start j, Spans t start j → ∀ k, start ≤ k → k < j →
      (t.slice start (k + 1)).count (.char ')') < (t.slice start (k + 1)).count (.char '(')) := by
  refine ⟨⟨joinWith_splitFrom 0 t, cuts_split t⟩, fun i j => span?_eq_some_iff_spans, ?_,
    fun start j h k => h.more_opened⟩
  rw [← not_iff_not, not_not, ← ne_eq, Option.ne_none_iff_exists']
  constructor
  · rintro ⟨⟨i, j⟩, hspan⟩
    obtain ⟨start, -, hspans⟩ := span?_eq_some_iff_spans.mp hspan
    exact ⟨start, j, hspans⟩
  · rintro ⟨start, j, hspans⟩
    exact ⟨(start + 1, j), span?_eq_some_iff_spans.mpr ⟨start, rfl, hspans⟩⟩

/-- Brackets of the wrong kind and commas below the start: one comma separates, the others do
    not. -/
example : split ("a),b(,c],d[" : Text) = ["a),b(", "c],d["].map Text.ofString ∧
    span? ("f)(g(]h)," : Text) = none := by decide

end SketchMerge.Parameters
