import SketchMerge.Proofs.Run.Course
import SketchMerge.Proofs.Text.Splitting
import SketchMerge.Prototype.Synthesis
import SketchMerge.Tag.Line

/-! # Cutting what a tool prints

    A tool prints a newline behind every tag line.  Its output is cut at the line ends
    of Unicode, and there are ten of them: a tag line quotes a line of source, and a
    form feed in it is no newline, but it is one of the ten.  So the lines come back
    exactly if NONE OF THE OTHER LINE ENDS stands in them (`tagLines_exact_iff`), and
    what stands behind one of these is a tag line of its own, with a name that was never
    reported. -/

namespace SketchMerge

namespace Text

variable {p : Glyph → Bool} {g : Glyph} {t : Text}

/-- Lines as they are printed, each with a newline behind it. -/
def unlines (lines : List Text) : Text :=
  lines.flatMap (· ++ [Glyph.newline])

theorem unlines_cons (l : Text) (lines : List Text) :
    unlines (l :: lines) = l ++ Glyph.newline :: unlines lines := by
  rw [unlines, List.flatMap_cons, List.append_assoc]
  rfl

theorem return_not_mem_unlines {lines : List Text} (h : ∀ l ∈ lines, .char '\r' ∉ l) :
    .char '\r' ∉ unlines lines := by
  intro hmem
  obtain ⟨l, hl, hg⟩ := List.mem_flatMap.mp hmem
  rcases List.mem_append.mp hg with hg | hg
  · exact h l hl hg
  · exact absurd hg (by decide)

/-- Where there is no carriage return, the newlines are unified already. -/
theorem unifyNewlines_of_free (h : .char '\r' ∉ t) : t.unifyNewlines = t := by
  induction t with
  | nil => rfl
  | cons g t ih =>
      obtain ⟨hg, ht⟩ := not_or.mp fun hmem => h (List.mem_cons.mpr hmem)
      rw [unifyNewlines.eq_3 g t (fun _ hreturn => absurd hreturn.symm hg)
        (fun hreturn => absurd hreturn.symm hg), ih ht]

-- ── How many parts a cut makes ──────────────────────────────────────────────

theorem length_splitAtEach (p : Glyph → Bool) (t : Text) :
    (splitAtEach p t).length = t.countP p + 1 := by
  induction t with
  | nil => rfl
  | cons g t ih =>
      by_cases hg : p g = true
      · rw [splitAtEach_cons_cut hg, List.length_cons, ih, List.countP_cons_of_pos hg]
      · obtain ⟨part, parts, hparts⟩ := List.exists_cons_of_ne_nil (splitAtEach_ne_nil p t)
        rw [splitAtEach_cons_kept (Bool.eq_false_iff.mpr hg) hparts,
          List.countP_cons_of_neg hg, ← ih, hparts]
        rfl

theorem length_le_flatMap_splitAtEach (p : Glyph → Bool) (lines : List Text) :
    lines.length ≤ (lines.flatMap (splitAtEach p)).length := by
  induction lines with
  | nil => exact Nat.le_refl _
  | cons l lines ih =>
      rw [List.flatMap_cons, List.length_append, length_splitAtEach, List.length_cons]
      omega

/-- **LINES SURVIVE A CUT IF THERE IS NOTHING TO CUT IN THEM.** -/
theorem flatMap_splitAtEach_eq_self_iff {lines : List Text} :
    lines.flatMap (splitAtEach p) = lines ↔ ∀ l ∈ lines, ∀ g ∈ l, p g = false := by
  induction lines with
  | nil => simp
  | cons l lines ih =>
      rw [List.flatMap_cons, List.forall_mem_cons, ← ih]
      constructor
      · intro h
        -- a second part of the first line would be one too many
        have hlength := congrArg List.length h
        have hrest := length_le_flatMap_splitAtEach p lines
        rw [List.length_append, length_splitAtEach, List.length_cons] at hlength
        have hfree : ∀ g ∈ l, p g = false := by
          have hzero : l.countP p = 0 := by omega
          simpa using List.countP_eq_zero.mp hzero
        rw [splitAtEach_of_free hfree] at h
        exact ⟨hfree, (List.cons.inj h).2⟩
      · rintro ⟨hfree, hrest⟩
        rw [splitAtEach_of_free hfree, hrest]
        rfl

-- ── Cutting at line ends ────────────────────────────────────────────────────

/-- A line end that is no carriage return ends a line, whatever follows. -/
theorem splitLines_cons_end (hreturn : g ≠ .char '\r') (hend : g.endsLine = true) (rest : Text) :
    splitLines (g :: rest) = [] :: splitLines rest := by
  rw [splitLines.eq_3 g rest fun _ hg => absurd hg hreturn, if_pos hend]

theorem splitLines_cons_kept (hreturn : g ≠ .char '\r') (hend : g.endsLine = false)
    {rest line : Text} {lines : List Text} (h : splitLines rest = line :: lines) :
    splitLines (g :: rest) = (g :: line) :: lines := by
  rw [splitLines.eq_3 g rest fun _ hg => absurd hg hreturn,
    if_neg (by rw [hend]; exact Bool.false_ne_true), h]

/-- **ONE PRINTED LINE** gives its parts between line ends, and the rest is cut on its own. -/
theorem splitLines_line {l : Text} (hl : .char '\r' ∉ l) (rest : Text) :
    splitLines (l ++ Glyph.newline :: rest) = splitAtEach Glyph.endsLine l ++ splitLines rest := by
  induction l with
  | nil => exact splitLines_cons_end (by decide) (by decide) rest
  | cons g l ih =>
      obtain ⟨hg, hl⟩ := not_or.mp fun hmem => hl (List.mem_cons.mpr hmem)
      have ih := ih hl
      rw [List.cons_append]
      cases hend : g.endsLine with
      | true =>
          rw [splitLines_cons_end (Ne.symm hg) hend, ih, splitAtEach_cons_cut hend]
          rfl
      | false =>
          obtain ⟨part, parts, hparts⟩ :=
            List.exists_cons_of_ne_nil (splitAtEach_ne_nil Glyph.endsLine l)
          rw [hparts, List.cons_append] at ih
          rw [splitLines_cons_kept (Ne.symm hg) hend ih, splitAtEach_cons_kept hend hparts]
          rfl

/-- **ALL PRINTED LINES.** -/
theorem splitLines_unlines {lines : List Text} (h : ∀ l ∈ lines, .char '\r' ∉ l) :
    splitLines (unlines lines) = lines.flatMap (splitAtEach Glyph.endsLine) := by
  induction lines with
  | nil => rfl
  | cons l lines ih =>
      rw [unlines_cons, splitLines_line (h l (List.mem_cons_self ..)), List.flatMap_cons,
        ih fun l hl => h l (List.mem_cons_of_mem _ hl)]

end Text

namespace Tag

-- ── Records of lines ────────────────────────────────────────────────────────

/-- The record of a tag line, if it has one. -/
def record? (line : Text) : Option Record :=
  if Text.isBlank line then none else (readLine line).toOption

/-- **AT MOST ONE RECORD FOR EACH LINE**, in the order of the lines. -/
theorem readLines_eq_filterMap (lines : List Text) : readLines lines = lines.filterMap record? := by
  have hrecord : (fun line => if (!Text.isBlank line) = true then (readLine line).toOption
      else none) = record? := by
    funext line
    rw [record?]
    cases Text.isBlank line with
    | true => rfl
    | false => rfl
  rw [readLines, List.filterMap_filter, hrecord]

-- ── The lines of a call ─────────────────────────────────────────────────────

/-- `Prints output lines`: the call went well, there is no complaint, and the output is the
    lines, each with a newline behind it. -/
structure Prints (output : ToolOutput) (lines : List Text) : Prop where
  status : output.status = 0
  stdout : output.stdout = Text.unlines lines
  stderr : output.stderr = []

/-- A process prints lines if its bytes are those of the lines. -/
theorem prints_printed {tool : Tool} {lines : List Text} (hlines : ∀ l ∈ lines, .char '\r' ∉ l)
    (hstatus : tool.status = 0) (hstdout : Utf8.decode tool.stdout = Text.unlines lines)
    (hstderr : tool.stderr = []) : Prints (Extraction.printed tool) lines where
  status := hstatus
  stdout := by
    show Extraction.printedText tool.stdout = _
    rw [Extraction.printedText, hstdout,
      Text.unifyNewlines_of_free (Text.return_not_mem_unlines hlines)]
  stderr := by
    show Extraction.printedText tool.stderr = _
    rw [hstderr]
    rfl

theorem tagLines_of_prints (executable : Text) {output : ToolOutput} {lines : List Text}
    (h : Prints output lines) :
    tagLines executable (some output) = .ok (Text.splitLines (Text.unlines lines)) := by
  have hquiet : (!(Text.trim output.stderr).isEmpty) = false := by
    rw [h.stderr]
    rfl
  rw [tagLines, hquiet, Bool.and_false, if_neg (not_not.mpr h.status),
    if_neg Bool.false_ne_true, h.stdout]

/-- **TAG LINES COME BACK EXACTLY IF NO OTHER LINE END STANDS IN THEM.**  A call prints lines
    that have neither newline nor carriage return.  It never fails, and it gives the
    parts of the lines between the line ends of Unicode; these are the lines themselves
    IF AND ONLY IF they hold no such end, and then there is at most one record for each
    line.  A process that prints the bytes of the lines is such a call. -/
theorem tagLines_exact_iff (executable : Text) {output : ToolOutput} {lines : List Text}
    (hlines : ∀ l ∈ lines, Glyph.newline ∉ l ∧ .char '\r' ∉ l) (h : Prints output lines) :
    tagLines executable (some output) = .ok (lines.flatMap (Text.splitAtEach Glyph.endsLine)) ∧
      (tagLines executable (some output) = .ok lines ↔
        ∀ l ∈ lines, ∀ g ∈ l, g.endsLine = false) ∧
      (∀ found, tagLines executable (some output) = .ok found →
        (∀ l ∈ lines, ∀ g ∈ l, g.endsLine = false) →
          readLines found = lines.filterMap record? ∧ (readLines found).length ≤ lines.length) ∧
      ∀ tool : Tool, tool.status = 0 → Utf8.decode tool.stdout = Text.unlines lines →
        tool.stderr = [] → tagLines executable (some (Extraction.printed tool))
          = tagLines executable (some output) := by
  have hreturn : ∀ l ∈ lines, .char '\r' ∉ l := fun l hl => (hlines l hl).2
  have hfound : tagLines executable (some output)
      = .ok (lines.flatMap (Text.splitAtEach Glyph.endsLine)) := by
    rw [tagLines_of_prints executable h, Text.splitLines_unlines hreturn]
  refine ⟨hfound, ?_, ?_, ?_⟩
  · rw [hfound, Except.ok.injEq, Text.flatMap_splitAtEach_eq_self_iff]
  · intro found hsome hfree
    rw [hfound, Except.ok.injEq, Text.flatMap_splitAtEach_eq_self_iff.mpr hfree] at hsome
    rw [← hsome, readLines_eq_filterMap]
    exact ⟨rfl, List.length_filterMap_le _ _⟩
  · intro tool hstatus hstdout hstderr
    rw [tagLines_of_prints executable (prints_printed hreturn hstatus hstdout hstderr),
      tagLines_of_prints executable h]

/-- Two lines, the first with a stray byte, as a process prints them: they come back. -/
theorem tagLines_exact_stray_byte :
    let lines : List Text :=
      [[.char 'f', Glyph.stray 0x7F, .char '\t'], "g\ta.ino\t/^int g() \x7b$/;\"\tkind:function"]
    let tool : Tool := { stdout := Utf8.encode (Text.unlines lines) }
    (∀ l ∈ lines, Glyph.newline ∉ l ∧ .char '\r' ∉ l) ∧
      Prints (Extraction.printed tool) lines ∧
      tagLines "ctags" (some (Extraction.printed tool)) = .ok lines := by
  intro lines tool
  have hlines : ∀ l ∈ lines, Glyph.newline ∉ l ∧ .char '\r' ∉ l := by decide
  have hprints : Prints (Extraction.printed tool) lines :=
    prints_printed (fun l hl => (hlines l hl).2) rfl (by decide +kernel) rfl
  exact ⟨hlines, hprints,
    (tagLines_exact_iff "ctags" hlines hprints).2.1.mpr (by decide +kernel)⟩

/-- A form feed in the quoted source line: one tag line comes back as two, and the rest of
    the source line is the name of a function that gets a declaration. -/
theorem tagLines_form_feed :
    let line : Text := "f\ta.ino\t/^int f() \x0c\x7b return 1; \x7d$/;\"\tkind:function\tline:1"
      ++ "\tsignature:()\treturntype:int"
    let invented : Text := "\x7b return 1; \x7d$/;\""
    ∃ found, (∀ g ∈ line, g ≠ Glyph.newline ∧ g ≠ .char '\r') ∧
      tagLines "ctags" (some ⟨0, Text.unlines [line], []⟩) = .ok found ∧
      found.length = 2 ∧ (readLines found).map Record.name = [Text.ofString "f", invented] ∧
      Prototype.texts (Prototype.synthesize (readLines found))
        = ["int " ++ invented ++ "();"] := by
  intro line invented
  refine ⟨[_, _], by decide +kernel, rfl, rfl, ?_, ?_⟩
  · decide +kernel
  · decide +kernel

end Tag

end SketchMerge
