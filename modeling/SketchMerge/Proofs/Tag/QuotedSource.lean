import SketchMerge.Proofs.Tag.RoundTrip

/-! # Source lines that are quoted as they are

    A tag tool copies a source line into a tag line as it is, TABS INCLUDED, and a tab
    also separates the columns.  So the search pattern falls apart at the tabs of its
    line.  Each stretch is read by itself, and the last that reads as a pattern counts
    (`found`).  The escapes play no part in this: tabs, marks and cuts are those of the
    source line (`filterMap_codeIn_escape`).

    Only the first stretch is still behind the mark that opens a pattern, unless the
    source line has that mark itself.  So what is found is said by the first stretch
    alone (`Finds`): it must hold the mark that ends a pattern, which it has by itself
    only if it is the whole line. -/

namespace SketchMerge.Tag

/-- The glyph between columns. -/
def tab : Glyph := .char '\t'

/-- The second glyph of the mark that opens a pattern. -/
def caret : Glyph := .char '^'

-- ── The marks of a pattern ──────────────────────────────────────────────────

section

variable {x y g : Glyph} {t tail : Text}

theorem pair_prefix_iff : [x, y] <+: g :: t ↔ g = x ∧ t.head? = some y := by
  cases t with
  | nil => simp [List.cons_prefix_cons]
  | cons b t => simp [List.cons_prefix_cons, eq_comm]

theorem head?_escape_iff (hb : y ≠ backslash) (hs : y ≠ slash) (t tail : Text) :
    (escape t ++ tail).head? = some y ↔ (t ++ tail).head? = some y := by
  cases t with
  | nil => rfl
  | cons g t =>
      rw [escape, List.flatMap_cons, escapeGlyph]
      by_cases hgb : g = backslash
      · simp [hgb, hb.symm]
      · rw [if_neg hgb]
        by_cases hgs : g = slash
        · simp [hgs, hb.symm, hs.symm]
        · simp [hgs]

theorem escape_cons (g : Glyph) (t : Text) : escape (g :: t) = escapeGlyph g ++ escape t :=
  List.flatMap_cons

/-- **THE END OF A PATTERN IS WHERE IT WAS**: a slash is escaped, but not separated from what
    follows it. -/
theorem patternEnd_infix_escape_iff (t tail : Text) :
    patternEnd <:+: escape t ++ tail ↔ patternEnd <:+: t ++ tail := by
  have hmark : patternEnd = [slash, .char ';'] := rfl
  have hslash : backslash ≠ slash := by decide
  induction t with
  | nil => rfl
  | cons g t ih =>
      rw [hmark] at ih ⊢
      rw [escape_cons, List.cons_append, List.infix_cons_iff, pair_prefix_iff, escapeGlyph]
      by_cases hgb : g = backslash
      · rw [if_pos hgb, List.append_assoc, List.cons_append, List.cons_append, List.nil_append,
          List.infix_cons_iff, List.infix_cons_iff, pair_prefix_iff, pair_prefix_iff]
        simp [hgb, hslash, ih]
      · rw [if_neg hgb]
        by_cases hgs : g = slash
        · rw [if_pos hgs, List.append_assoc, List.cons_append, List.cons_append, List.nil_append,
            List.infix_cons_iff, List.infix_cons_iff, pair_prefix_iff, pair_prefix_iff,
            head?_escape_iff (by decide) (by decide)]
          simp [hgs, hslash, ih]
        · rw [if_neg hgs, List.append_assoc, List.cons_append, List.nil_append,
            List.infix_cons_iff, pair_prefix_iff]
          simp [hgs, ih]

theorem patternEnd_opened_iff (t : Text) :
    patternEnd <:+: patternStart ++ t ↔ patternEnd <:+: t := by
  have hstart : patternStart ++ t = slash :: caret :: t := rfl
  have hend : patternEnd = [slash, .char ';'] := rfl
  rw [hstart, hend, List.infix_cons_iff, List.infix_cons_iff, pair_prefix_iff, pair_prefix_iff]
  simp [slash, caret]

/-- What stands behind the first mark that opens a pattern. -/
def behindMark : Text → Option Text
  | [] => none
  | g :: t => if g = slash ∧ t.head? = some caret then some t.tail else behindMark t

theorem behindMark_eq_none_iff : behindMark t = none ↔ ¬ patternStart <:+: t := by
  have hmark : patternStart = [slash, caret] := rfl
  induction t with
  | nil => simp [behindMark, hmark]
  | cons g t ih =>
      rw [hmark] at ih ⊢
      rw [behindMark, List.infix_cons_iff, pair_prefix_iff]
      by_cases h : g = slash ∧ t.head? = some caret
      · simp [h]
      · simp [h, ih]

theorem head?_append_iff (hy : y ∉ tail) (t : Text) :
    (t ++ tail).head? = some y ↔ t.head? = some y := by
  cases t with
  | nil =>
      have hno : tail.head? ≠ some y := fun h => hy (List.mem_of_head? h)
      simp [hno]
  | cons g t => rfl

theorem behindMark_append (htail : caret ∉ tail) (t : Text) :
    behindMark (t ++ tail) = (behindMark t).map (· ++ tail) := by
  induction t with
  | nil =>
      refine behindMark_eq_none_iff.mpr fun h => htail (h.subset ?_)
      exact List.mem_cons_of_mem _ (List.mem_singleton.mpr rfl)
  | cons g t ih =>
      have hhead := head?_append_iff htail t
      rw [List.cons_append, behindMark, behindMark]
      by_cases h : g = slash ∧ t.head? = some caret
      · obtain ⟨t, rfl⟩ := List.head?_eq_some_iff.mp h.2
        rw [if_pos h, if_pos ⟨h.1, rfl⟩]
        rfl
      · rw [if_neg h, if_neg fun hp => h ⟨hp.1, hhead.mp hp.2⟩, ih]

/-- Escaping leaves the first mark the first. -/
theorem behindMark_escape (t : Text) : behindMark (escape t) = (behindMark t).map escape := by
  have hslash : backslash ≠ slash := by decide
  induction t with
  | nil => rfl
  | cons g t ih =>
      have hhead : (escape t).head? = some caret ↔ t.head? = some caret := by
        have := head?_escape_iff (y := caret) (by decide) (by decide) t []
        rwa [List.append_nil, List.append_nil] at this
      rw [escape_cons, behindMark, escapeGlyph]
      by_cases hgb : g = backslash
      · rw [if_pos hgb]
        simp [behindMark, hgb, hslash, ih]
      · rw [if_neg hgb]
        by_cases hgs : g = slash
        · rw [if_pos hgs, List.cons_append, List.cons_append, List.nil_append,
            behindMark, if_neg fun h => hslash h.1, behindMark]
          by_cases hcaret : t.head? = some caret
          · obtain ⟨t, rfl⟩ := List.head?_eq_some_iff.mp hcaret
            rw [if_pos ⟨rfl, rfl⟩, if_pos ⟨hgs, rfl⟩]
            rfl
          · rw [if_neg fun h => hcaret (hhead.mp h.2), if_neg fun h => hcaret h.2, ih]
        · rw [if_neg hgs]
          simp [behindMark, hgs, ih]

end

-- ── What a column gives ─────────────────────────────────────────────────────

/-- The column holds both marks of a search pattern. -/
def IsPattern (column : Text) : Prop :=
  patternStart <:+: column ∧ patternEnd <:+: column

instance (column : Text) : Decidable (IsPattern column) :=
  inferInstanceAs (Decidable (_ ∧ _))

/-- What a column gives, if `undo` takes the escapes out of what is declared. -/
def codeIn (undo : Text → Text) (column : Text) : Option Text :=
  if patternEnd <:+: column then
    (behindMark column).bind fun line => (declaratorIn line).map fun t => Text.trim (undo t)
  else none

section

variable {column : Text}

theorem codeIn_of_not_isPattern (undo : Text → Text) (h : ¬ IsPattern column) :
    codeIn undo column = none := by
  by_cases hend : patternEnd <:+: column
  · have hstart : ¬ patternStart <:+: column := fun hstart => h ⟨hstart, hend⟩
    rw [codeIn, if_pos hend, behindMark_eq_none_iff.mpr hstart]
    rfl
  · rw [codeIn, if_neg hend]

theorem codeIn_opened (undo : Text → Text) (t : Text) :
    codeIn undo (patternStart ++ t)
      = if patternEnd <:+: t then (declaratorIn t).map fun d => Text.trim (undo d) else none :=
  if_congr (patternEnd_opened_iff t) rfl rfl

theorem map_find?_patternStart (t : Text) :
    (Text.find? patternStart t).map (fun i => t.drop (i + 2)) = behindMark t := by
  induction t with
  | nil => rfl
  | cons g t ih =>
      have hmark : patternStart.isPrefixOf (g :: t) = true ↔ g = slash ∧ t.head? = some caret := by
        rw [List.isPrefixOf_iff_prefix]
        exact pair_prefix_iff
      rw [Text.find?, behindMark]
      by_cases h : g = slash ∧ t.head? = some caret
      · rw [if_pos (hmark.mpr h), if_pos h, Option.map_some, ← List.drop_one]
        rfl
      · rw [if_neg fun hp => h (hmark.mp hp), if_neg h, ← ih, Option.map_map]
        rfl

/-- Reading a column sets the code to what the column gives, if it gives anything. -/
theorem code_withColumn (r : Record) (column : Text) :
    (r.withColumn column).code = (codeIn unescape column).or r.code := by
  by_cases h : IsPattern column
  · have hcode : codeIn unescape column = declarator column := by
      rw [codeIn, if_pos h.2, ← map_find?_patternStart, declarator]
      cases Text.find? patternStart column with
      | none => rfl
      | some i => rfl
    rw [Record.withColumn, holds_iff.mpr h.1, holds_iff.mpr h.2, Bool.true_and, if_pos rfl, hcode]
    cases declarator column with
    | none => rfl
    | some code => rfl
  · have hno : ¬ (Text.holds column patternStart && Text.holds column patternEnd) = true := by
      rw [Bool.and_eq_true, holds_iff, holds_iff]
      exact h
    rw [Record.withColumn, if_neg hno, codeIn_of_not_isPattern _ h, Option.none_or]
    split
    · rw [withField_eq]
    · rfl

theorem name_withColumn (r : Record) (column : Text) : (r.withColumn column).name = r.name := by
  rw [Record.withColumn]
  split
  · split <;> rfl
  · split
    · rw [withField_eq]
    · rfl

theorem name_foldl_withColumn (r : Record) (columns : List Text) :
    (columns.foldl Record.withColumn r).name = r.name := by
  induction columns generalizing r with
  | nil => rfl
  | cons column columns ih => rw [List.foldl_cons, ih, name_withColumn]

/-- **THE LAST CODE COUNTS.** -/
theorem code_foldl_withColumn (r : Record) (columns : List Text) :
    (columns.foldl Record.withColumn r).code
      = (columns.filterMap (codeIn unescape)).getLast?.or r.code := by
  induction columns generalizing r with
  | nil => rfl
  | cons column columns ih =>
      rw [List.foldl_cons, ih, code_withColumn]
      cases hcode : codeIn unescape column with
      | none => rw [List.filterMap_cons_none hcode, Option.none_or]
      | some code =>
          rw [List.filterMap_cons_some hcode, List.getLast?_cons, Option.some_or]
          cases (columns.filterMap (codeIn unescape)).getLast? with
          | none => rfl
          | some last => rfl

end

-- ── Escapes play no part ────────────────────────────────────────────────────

section

variable {line tail : Text} {code : Option Text}

theorem is_tab_of_not_mem {t : Text} (h : tab ∉ t) : ∀ g ∈ t, g.is '\t' = false := by
  intro g hg
  rw [Glyph.is, beq_eq_false_iff_ne]
  rintro rfl
  exact h hg

theorem Declares.eq_declaratorIn (h : Declares line code) :
    code = (declaratorIn line).map Text.trim := by
  cases h with
  | body first => rw [declaratorIn_body first, Option.map_some]
  | head noBody last => rw [declaratorIn_head noBody last, Option.map_some]
  | nothing noBody noHead => rw [declaratorIn_nothing noBody noHead, Option.map_none]

/-- What cuts nothing may be put behind a line. -/
theorem Declares.append (h : Declares line code) (hbrace : brace ∉ tail)
    (hparenthesis : parenthesis ∉ tail) : Declares (line ++ tail) code := by
  cases h with
  | body first =>
      rw [List.append_assoc, List.cons_append]
      exact .body first
  | head noBody last =>
      have hbody := List.not_mem_append noBody hbrace
      rw [List.append_assoc, List.cons_append] at hbody ⊢
      exact .head hbody (List.not_mem_append last hparenthesis)
  | nothing noBody noHead =>
      exact .nothing (List.not_mem_append noBody hbrace) (List.not_mem_append noHead hparenthesis)

theorem declares_declaratorIn (line : Text) :
    Declares line ((declaratorIn line).map Text.trim) := by
  have h := declares_escaped line [] List.not_mem_nil List.not_mem_nil
  exact h.eq_declaratorIn ▸ h

theorem declaratorIn_escape (hbrace : brace ∉ tail) (hparenthesis : parenthesis ∉ tail)
    (line : Text) :
    (declaratorIn (escape line ++ tail)).map (fun t => Text.trim (unescape t))
      = (declaratorIn (line ++ tail)).map Text.trim :=
  ((declares_escaped line tail hbrace hparenthesis).append hbrace hparenthesis).eq_declaratorIn

/-- A stretch gives the same whether or not it is escaped. -/
theorem codeIn_escape {front : Text} (hfront : front = [] ∨ front = patternStart)
    (hcaret : caret ∉ tail) (hbrace : brace ∉ tail) (hparenthesis : parenthesis ∉ tail)
    (line : Text) :
    codeIn unescape (front ++ (escape line ++ tail)) = codeIn id (front ++ (line ++ tail)) := by
  have hcut := declaratorIn_escape hbrace hparenthesis
  have hend := patternEnd_infix_escape_iff line tail
  rcases hfront with rfl | rfl
  · refine if_congr hend ?_ rfl
    rw [List.nil_append, List.nil_append, behindMark_append hcaret, behindMark_append hcaret,
      behindMark_escape]
    cases behindMark line with
    | none => rfl
    | some rest => exact hcut rest
  · rw [codeIn_opened, codeIn_opened]
    exact if_congr hend (hcut line) rfl

/-- **ESCAPES PLAY NO PART**: what the stretches of a line give is what they give as they
    are. -/
theorem filterMap_codeIn_escape {front : Text} (hfront : front = [] ∨ front = patternStart)
    (source : Text) :
    (Text.splitAtEach (·.is '\t') (front ++ (escape source ++ patternTail))).filterMap
        (codeIn unescape)
      = (Text.splitAtEach (·.is '\t') (front ++ (source ++ patternTail))).filterMap
        (codeIn id) := by
  have htabs {t : Text} (ht : tab ∉ t) : ∀ g ∈ front ++ t, g.is '\t' = false := by
    refine is_tab_of_not_mem (List.not_mem_append ?_ ht)
    rcases hfront with rfl | rfl
    · exact List.not_mem_nil
    · decide
  by_cases htab : tab ∈ source
  · -- the columns up to the first tab, and those of a shorter line
    obtain ⟨first, rest, hsource, hfirst⟩ := List.eq_append_cons_of_mem htab
    have hescaped : tab ∉ escape first :=
      fun h => hfirst ((mem_escape (by decide) (by decide)).mp h)
    have hquoted : front ++ (escape source ++ patternTail)
        = (front ++ escape first) ++ tab :: (escape rest ++ patternTail) := by
      rw [hsource, escape_append, List.append_assoc, List.append_assoc]
      rfl
    have hshown : front ++ (source ++ patternTail)
        = (front ++ first) ++ tab :: (rest ++ patternTail) := by
      rw [hsource, List.append_assoc, List.append_assoc]
      rfl
    have hcode := codeIn_escape hfront List.not_mem_nil List.not_mem_nil List.not_mem_nil first
    rw [List.append_nil, List.append_nil] at hcode
    have hrest := filterMap_codeIn_escape (.inl rfl) rest
    rw [List.nil_append, List.nil_append] at hrest
    rw [hquoted, hshown, Text.splitAtEach_append_cut rfl, Text.splitAtEach_append_cut rfl,
      Text.splitAtEach_of_free (htabs hescaped), Text.splitAtEach_of_free (htabs hfirst),
      List.filterMap_append, List.filterMap_append, hrest, List.filterMap_cons,
      List.filterMap_cons, hcode]
    rfl
  · have hescaped : tab ∉ escape source ++ patternTail :=
      not_mem_escaped (by decide) (by decide) (by decide) htab
    have hshown : tab ∉ source ++ patternTail := List.not_mem_append htab (by decide)
    rw [Text.splitAtEach_of_free (htabs hescaped), Text.splitAtEach_of_free (htabs hshown),
      List.filterMap_cons, List.filterMap_cons,
      codeIn_escape hfront (by decide) (by decide) (by decide)]
    rfl
termination_by source.length
decreasing_by
  rw [hsource, List.length_append, List.length_cons]
  omega

end

-- ── What is found of a source line ──────────────────────────────────────────

/-- What is found of the declarator of a source line: the last of what its stretches give,
    between the marks of the pattern. -/
def found (source : Text) : Option Text :=
  ((Text.splitAtEach (·.is '\t') (patternStart ++ (source ++ patternTail))).filterMap
    (codeIn id)).getLast?

/-- A source line up to its first tab. -/
def firstStretch (source : Text) : Text :=
  source.takeWhile (!·.is '\t')

/-- `Finds source code`: what is found in the first stretch of a source line. -/
inductive Finds (source : Text) : Option Text → Prop
  /-- The first stretch, or the whole line if there is no tab, reads as a pattern. -/
  | pattern {code : Option Text} (hend : tab ∈ source → patternEnd <:+: firstStretch source)
      (hdeclares : Declares (firstStretch source) code) : Finds source code
  /-- The line falls apart. -/
  | apart (htab : tab ∈ source) (hend : ¬ patternEnd <:+: firstStretch source) :
      Finds source none

section

variable {source first rest : Text}

theorem firstStretch_of_free (h : tab ∉ source) : firstStretch source = source :=
  List.takeWhile_eq_self_iff.mpr (not_is_of_not_mem h)

theorem firstStretch_tab (h : tab ∉ first) (rest : Text) :
    firstStretch (first ++ tab :: rest) = first := by
  rw [firstStretch, List.takeWhile_append_of_pos (not_is_of_not_mem h),
    List.takeWhile_cons_of_neg (by decide), List.append_nil]

theorem getLast?_filterMap_singleton (f : Text → Option Text) (t : Text) :
    ([t].filterMap f).getLast? = f t := by
  cases h : f t with
  | none => rw [List.filterMap_cons_none h, List.filterMap_nil, List.getLast?_nil]
  | some code => rw [List.filterMap_cons_some h, List.filterMap_nil, List.getLast?_singleton]

theorem found_of_free (h : tab ∉ source) :
    found source = (declaratorIn (source ++ patternTail)).map Text.trim := by
  have hfree : tab ∉ patternStart ++ (source ++ patternTail) :=
    List.not_mem_append (by decide) (List.not_mem_append h (by decide))
  have hend : patternEnd <:+: source ++ patternTail :=
    ⟨source ++ Text.ofString "$", Text.ofString "\"", by
      rw [List.append_assoc, List.append_assoc]
      rfl⟩
  rw [found, Text.splitAtEach_of_free (is_tab_of_not_mem hfree), getLast?_filterMap_singleton,
    codeIn_opened, if_pos hend]
  rfl

/-- Behind the first tab nothing is found, unless a pattern is opened there. -/
theorem found_tab (hfirst : tab ∉ first) (hmark : ¬ patternStart <:+: rest) :
    found (first ++ tab :: rest)
      = if patternEnd <:+: first then (declaratorIn first).map Text.trim else none := by
  have hshown : patternStart ++ (first ++ tab :: rest ++ patternTail)
      = (patternStart ++ first) ++ tab :: (rest ++ patternTail) := by
    rw [List.append_assoc, List.append_assoc]
    rfl
  have hfree : tab ∉ patternStart ++ first := List.not_mem_append (by decide) hfirst
  have hnone : (Text.splitAtEach (·.is '\t') (rest ++ patternTail)).filterMap (codeIn id) = [] := by
    refine List.filterMap_eq_nil_iff.mpr fun stretch hstretch => ?_
    refine codeIn_of_not_isPattern _ fun h => ?_
    have hwhole := h.1.trans ((Text.splitAtEach_infix _ _).2 stretch hstretch)
    refine absurd hwhole (behindMark_eq_none_iff.mp ?_)
    rw [behindMark_append (by decide), behindMark_eq_none_iff.mpr hmark, Option.map_none]
  rw [found, hshown, Text.splitAtEach_append_cut rfl,
    Text.splitAtEach_of_free (is_tab_of_not_mem hfree), List.filterMap_append, hnone,
    List.append_nil, getLast?_filterMap_singleton, codeIn_opened]
  rfl

/-- **WHAT IS FOUND IS SAID BY THE FIRST STRETCH**, unless a pattern is opened once more behind
    a tab. -/
theorem finds_found (hmark : ¬ patternStart <:+: source.dropWhile (!·.is '\t')) :
    Finds source (found source) := by
  by_cases htab : tab ∈ source
  · obtain ⟨first, rest, rfl, hfirst⟩ := List.eq_append_cons_of_mem htab
    have hrest : ¬ patternStart <:+: rest := by
      intro h
      refine hmark (h.trans ?_)
      rw [List.dropWhile_append_of_pos (not_is_of_not_mem hfirst),
        List.dropWhile_cons_of_neg (by decide)]
      exact List.infix_cons List.infix_rfl
    rw [found_tab hfirst hrest]
    by_cases hend : patternEnd <:+: first
    · rw [if_pos hend]
      refine .pattern (fun _ => ?_) ?_
      · rwa [firstStretch_tab hfirst]
      · rw [firstStretch_tab hfirst]
        exact declares_declaratorIn first
    · rw [if_neg hend]
      exact .apart htab (by rwa [firstStretch_tab hfirst])
  · rw [found_of_free htab]
    refine .pattern (fun h => absurd h htab) ?_
    rw [firstStretch_of_free htab, ← declaratorIn_escape (by decide) (by decide)]
    exact declares_escaped source patternTail (by decide) (by decide)

end

-- ── The line ────────────────────────────────────────────────────────────────

/-- What a tag tool says of one symbol, with its source line as it is.  No other column
    reads as a search pattern. -/
structure Quotation where
  name : Text
  path : Text
  source : Text
  /-- The columns behind the search pattern. -/
  fields : List Text
  named : Text.trim name ≠ []
  noTab : ∀ column ∈ name :: path :: fields, tab ∉ column
  noPattern : ∀ column ∈ path :: fields, ¬ IsPattern column
  noEnd : ∀ column ∈ fields, .char '\r' ∉ column ∧ .char '\n' ∉ column

namespace Quotation

/-- The line for a quotation. -/
def write (q : Quotation) : Text :=
  Text.joinWith [tab] (q.name :: q.path :: pattern q.source :: q.fields)

/-- What has no line end itself may be put behind a text. -/
theorem ended_append {s t : Text} (h : Ended s)
    (ht : ∀ g ∈ t, (g.is '\r' || g.is '\n') = false) : Ended (s ++ t) := by
  cases hlast : t.getLast? with
  | none =>
      rw [List.getLast?_eq_none_iff.mp hlast, List.append_nil]
      exact h
  | some g => exact Ended.append ⟨g, hlast, ht g (List.mem_of_getLast? hlast)⟩ s

theorem ended_write (q : Quotation) : Ended q.write := by
  have hfields : ∀ column ∈ q.fields, ∀ g ∈ column, (g.is '\r' || g.is '\n') = false := by
    intro column hcolumn g hg
    obtain ⟨hreturn, hnewline⟩ := q.noEnd column hcolumn
    rw [Bool.or_eq_false_iff, Glyph.is, Glyph.is, beq_eq_false_iff_ne, beq_eq_false_iff_ne]
    exact ⟨fun h => hreturn (h ▸ hg), fun h => hnewline (h ▸ hg)⟩
  rw [write, Text.joinWith_cons_cons, Text.joinWith_cons_cons]
  refine Ended.append (Ended.append (Ended.append (Ended.append ?_ _) _) _) _
  cases hsome : q.fields with
  | nil =>
      rw [Text.joinWith_singleton]
      exact ended_pattern q.source
  | cons column columns =>
      rw [hsome] at hfields
      rw [Text.joinWith_cons_cons]
      refine ended_append (ended_pattern q.source) fun g hg => ?_
      rcases List.mem_cons.mp hg with rfl | hg
      · rfl
      rcases Text.mem_joinWith hg with hg | ⟨part, hpart, hg⟩
      · rw [List.mem_singleton.mp hg]
        rfl
      · exact hfields part hpart g hg

theorem columnsOf_write (q : Quotation) :
    columnsOf q.write
      = q.name :: q.path :: (Text.splitAtEach (·.is '\t') (pattern q.source) ++ q.fields) := by
  have htab : ∀ column ∈ q.name :: q.path :: q.fields, ∀ g ∈ column, g.is '\t' = false :=
    fun column hcolumn => is_tab_of_not_mem (q.noTab column hcolumn)
  have hline : q.write = q.name ++ tab ::
      (q.path ++ tab :: Text.joinWith [tab] (pattern q.source :: q.fields)) := by
    rw [write, Text.joinWith_cons_cons, Text.joinWith_cons_cons]
    rfl
  rw [(ended_write q).columnsOf, hline, Text.splitAtEach_append_cut rfl,
    Text.splitAtEach_of_free (htab q.name (by simp)), Text.splitAtEach_append_cut rfl,
    Text.splitAtEach_of_free (htab q.path (by simp)),
    Text.splitAtEach_joinWith_behind rfl _ fun column hcolumn => htab column (by simp [hcolumn])]
  rfl

/-- **READING A QUOTED LINE**: in front of the other fields, the record has its name and what
    is found of the source line. -/
theorem readLine_quotation (q : Quotation) :
    ∃ r : Record, r.name = Text.trim q.name ∧ r.code = found q.source ∧
      readLine q.write = .ok (q.fields.foldl Record.withColumn r) := by
  have hname : (Text.trim q.name).isEmpty = false := by
    rw [List.isEmpty_eq_false_iff]
    exact q.named
  refine ⟨(Text.splitAtEach (·.is '\t') (pattern q.source)).foldl Record.withColumn
    (Record.withColumn { name := Text.trim q.name } q.path), ?_, ?_, ?_⟩
  · rw [name_foldl_withColumn, name_withColumn]
  · rw [code_foldl_withColumn, code_withColumn,
      codeIn_of_not_isPattern _ (q.noPattern q.path (List.mem_cons_self ..)), Option.none_or,
      Option.or_none, pattern, filterMap_codeIn_escape (.inr rfl), found]
  · rw [readLine, columnsOf_write]
    dsimp only
    rw [hname, if_neg Bool.false_ne_true, List.foldl_cons, List.foldl_append]

/-- The other fields leave it as it is. -/
theorem code_fields (q : Quotation) (r : Record) :
    (q.fields.foldl Record.withColumn r).code = r.code := by
  have hnone : q.fields.filterMap (codeIn unescape) = [] :=
    List.filterMap_eq_nil_iff.mpr fun column hcolumn =>
      codeIn_of_not_isPattern _ (q.noPattern column (List.mem_cons_of_mem _ hcolumn))
  rw [code_foldl_withColumn, hnone]
  rfl

end Quotation

end SketchMerge.Tag
