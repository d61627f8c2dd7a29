import Mathlib.Data.List.Infix
import Mathlib.Data.List.TakeDrop
import SketchMerge.Proofs.Number.Decimal
import SketchMerge.Proofs.Text.Splitting
import SketchMerge.Tag.Line

/-! # Reading back a tag line

    A tag tool writes a line for every symbol: its name, the file, the source line
    as a search pattern in which backslashes are doubled and slashes follow a
    backslash, and fields in any order.  Reading such a line gives back what was
    written (`readLine_write`).

    The escapes are undone in two passes over the whole pattern, and the source
    line is cut while it is still escaped.  Both are right for the same reason:
    escaping acts GLYPH BY GLYPH, so a cut at a glyph that is not escaped cuts
    the source line at the same glyph, and after the first pass every run of
    backslashes has even length. -/

namespace SketchMerge.Tag

/-- The glyph that escapes. -/
def backslash : Glyph := .char '\\'

/-- The glyph that ends a search pattern unless it is escaped. -/
def slash : Glyph := .char '/'

/-- One glyph of a source line as a search pattern shows it. -/
def escapeGlyph (g : Glyph) : Text :=
  if g = backslash then [backslash, backslash]
  else if g = slash then [backslash, slash]
  else [g]

/-- A source line as a search pattern shows it: backslashes are doubled, and a
    backslash stands before every slash. -/
def escape (t : Text) : Text :=
  t.flatMap escapeGlyph

theorem escape_append (s t : Text) : escape (s ++ t) = escape s ++ escape t :=
  List.flatMap_append

theorem escapeGlyph_of_ne {g : Glyph} (hb : g ≠ backslash) (hs : g ≠ slash) :
    escapeGlyph g = [g] := by
  rw [escapeGlyph, if_neg hb, if_neg hs]

-- ── Escapes are undone ──────────────────────────────────────────────────────

theorem replacePair_of_ne {x y z a : Glyph} {t : Text} (h : ¬ (a = x ∧ t.head? = some y)) :
    replacePair x y z (a :: t) = a :: replacePair x y z t := by
  cases t with
  | nil => rfl
  | cons b rest =>
      have hne : (a == x && b == y) = false := by
        rw [Bool.and_eq_false_iff]
        by_cases ha : a = x
        · exact .inr (beq_eq_false_iff_ne.mpr fun hb => h ⟨ha, by rw [hb]; rfl⟩)
        · exact .inl (beq_eq_false_iff_ne.mpr ha)
      rw [replacePair, if_neg (by rw [hne]; exact Bool.false_ne_true)]

theorem replacePair_pair (x y z : Glyph) (t : Text) :
    replacePair x y z (x :: y :: t) = z :: replacePair x y z t := by
  rw [replacePair, if_pos (by rw [beq_self_eq_true, beq_self_eq_true]; rfl)]

/-- A text with its backslashes doubled. -/
def double (t : Text) : Text :=
  t.flatMap fun g => if g = backslash then [backslash, backslash] else [g]

/-- No escaped text starts with a slash. -/
theorem head?_escape (t : Text) : (escape t).head? ≠ some slash := by
  cases t with
  | nil => exact fun h => nomatch h
  | cons g t =>
      rw [escape, List.flatMap_cons, escapeGlyph]
      by_cases hb : g = backslash
      · rw [if_pos hb]
        exact fun h => nomatch h
      · rw [if_neg hb]
        by_cases hs : g = slash
        · rw [if_pos hs]
          exact fun h => nomatch h
        · rw [if_neg hs]
          exact fun h => hs (Option.some.inj h)

/-- The first pass leaves the doubled backslashes. -/
theorem replacePair_escape (t : Text) :
    replacePair backslash slash slash (escape t) = double t := by
  induction t with
  | nil => rfl
  | cons g t ih =>
      rw [escape, List.flatMap_cons, ← escape, double, List.flatMap_cons, ← double, escapeGlyph]
      by_cases hb : g = backslash
      · -- two backslashes, and behind them no slash that belongs to them
        rw [if_pos hb, if_pos hb]
        show replacePair _ _ _ (backslash :: backslash :: escape t) = _
        have hfirst : ¬ (backslash = backslash ∧
            (backslash :: escape t).head? = some slash) :=
          fun h => absurd (Option.some.inj h.2) (by decide)
        rw [replacePair_of_ne hfirst, replacePair_of_ne (fun h => head?_escape t h.2), ih]
        rfl
      · rw [if_neg hb, if_neg hb]
        by_cases hs : g = slash
        · rw [if_pos hs, hs]
          show replacePair _ _ _ (backslash :: slash :: escape t) = _
          rw [replacePair_pair, ih]
          rfl
        · rw [if_neg hs]
          show replacePair _ _ _ (g :: escape t) = _
          rw [replacePair_of_ne (fun h => hb h.1), ih]
          rfl

/-- The second pass halves them. -/
theorem replacePair_double (t : Text) :
    replacePair backslash backslash backslash (double t) = t := by
  induction t with
  | nil => rfl
  | cons g t ih =>
      rw [double, List.flatMap_cons, ← double]
      by_cases hb : g = backslash
      · rw [if_pos hb, hb]
        show replacePair _ _ _ (backslash :: backslash :: double t) = _
        rw [replacePair_pair, ih]
      · rw [if_neg hb]
        show replacePair _ _ _ (g :: double t) = _
        rw [replacePair_of_ne (fun h => hb h.1), ih]

/-- **ESCAPES ARE UNDONE.** -/
theorem unescape_escape (t : Text) : unescape (escape t) = t := by
  show replacePair backslash backslash backslash
    (replacePair backslash slash slash (escape t)) = t
  rw [replacePair_escape, replacePair_double]

-- ── The cut ─────────────────────────────────────────────────────────────────

/-- A glyph that needs no escape is in the escaped text just when it is in the text. -/
theorem mem_escape {g : Glyph} (hb : g ≠ backslash) (hs : g ≠ slash) {t : Text} :
    g ∈ escape t ↔ g ∈ t := by
  rw [escape, List.mem_flatMap]
  constructor
  · rintro ⟨x, hx, hg⟩
    rw [escapeGlyph] at hg
    by_cases hxb : x = backslash
    · rw [if_pos hxb, List.mem_cons, List.mem_singleton] at hg
      exact absurd (hg.elim id id) hb
    · rw [if_neg hxb] at hg
      by_cases hxs : x = slash
      · rw [if_pos hxs, List.mem_cons, List.mem_singleton] at hg
        exact absurd hg (not_or.mpr ⟨hb, hs⟩)
      · rw [if_neg hxs, List.mem_singleton] at hg
        rw [hg]
        exact hx
  · intro hg
    exact ⟨g, hg, by rw [escapeGlyph_of_ne hb hs]; exact List.mem_singleton.mpr rfl⟩

/-- The opening brace. -/
def brace : Glyph := .char '\x7b'

/-- The closing parenthesis. -/
def parenthesis : Glyph := .char ')'

/-- `Declares line code`: the part of a source line that declares something.  It ends
    before the first opening brace, or else behind the last closing parenthesis. -/
inductive Declares : Text → Option Text → Prop
  | body {before after : Text} (first : brace ∉ before) :
      Declares (before ++ brace :: after) (some (Text.trim before))
  | head {before after : Text} (noBody : brace ∉ before ++ parenthesis :: after)
      (last : parenthesis ∉ after) :
      Declares (before ++ parenthesis :: after) (some (Text.trim (before ++ [parenthesis])))
  | nothing {line : Text} (noBody : brace ∉ line) (noHead : parenthesis ∉ line) :
      Declares line none

theorem declaratorIn_body {before : Text} (first : brace ∉ before) (after : Text) :
    declaratorIn (before ++ brace :: after) = some before := by
  have hmem : brace ∈ before ++ brace :: after :=
    List.mem_append_right _ (List.mem_cons_self ..)
  rw [declaratorIn, if_pos (any_is.mpr hmem),
    List.takeWhile_append_of_pos (not_is_of_not_mem first),
    List.takeWhile_cons_of_neg (by decide), List.append_nil]

theorem declaratorIn_head {before after : Text} (noBody : brace ∉ before ++ parenthesis :: after)
    (last : parenthesis ∉ after) :
    declaratorIn (before ++ parenthesis :: after) = some (before ++ [parenthesis]) := by
  have hmem : parenthesis ∈ before ++ parenthesis :: after :=
    List.mem_append_right _ (List.mem_cons_self ..)
  have hlast : parenthesis ∉ after.reverse := fun h => last (List.mem_reverse.mp h)
  have hreverse : (before ++ parenthesis :: after).reverse
      = after.reverse ++ parenthesis :: before.reverse := by simp
  rw [declaratorIn, if_neg (fun h => noBody (any_is.mp h)), if_pos (any_is.mpr hmem), hreverse,
    List.dropWhile_append_of_pos (not_is_of_not_mem hlast),
    List.dropWhile_cons_of_neg (by decide), List.reverse_cons, List.reverse_reverse]

theorem declaratorIn_nothing {t : Text} (noBody : brace ∉ t) (noHead : parenthesis ∉ t) :
    declaratorIn t = none := by
  rw [declaratorIn, if_neg (fun h => noBody (any_is.mp h)), if_neg (fun h => noHead (any_is.mp h))]

/-- What stands behind the source line in a search pattern. -/
def patternTail : Text := "$/;\""

theorem not_mem_escaped {g : Glyph} (hb : g ≠ backslash) (hs : g ≠ slash) {tail : Text}
    (ht : g ∉ tail) {t : Text} (h : g ∉ t) : g ∉ escape t ++ tail :=
  List.not_mem_append (fun hg => h ((mem_escape hb hs).mp hg)) ht

/-- **CUTTING COMMUTES WITH ESCAPING**: the escaped line is cut at the glyph at which the
    line itself is to be cut, if there is nothing to cut at behind it. -/
theorem declares_escaped (line tail : Text) (hbrace : brace ∉ tail)
    (hparenthesis : parenthesis ∉ tail) :
    Declares line ((declaratorIn (escape line ++ tail)).map fun t =>
      Text.trim (unescape t)) := by
  have hsplit (before after : Text) (g : Glyph) (hg : escapeGlyph g = [g]) :
      escape (before ++ g :: after) ++ tail = escape before ++ g :: (escape after ++ tail) := by
    rw [escape_append, List.append_assoc]
    show _ ++ (escapeGlyph g ++ escape after ++ tail) = _
    rw [hg]
    rfl
  by_cases hbody : brace ∈ line
  · obtain ⟨before, after, rfl, hfirst⟩ := List.eq_append_cons_of_mem hbody
    have hescaped : brace ∉ escape before :=
      fun h => hfirst ((mem_escape (by decide) (by decide)).mp h)
    rw [hsplit _ _ _ (by decide), declaratorIn_body hescaped, Option.map_some, unescape_escape]
    exact .body hfirst
  · have hno := not_mem_escaped (by decide) (by decide) hbrace hbody
    by_cases hhead : parenthesis ∈ line
    · obtain ⟨before, after, rfl, hlast⟩ := exists_last_of_mem hhead
      have hclose : escape before ++ [parenthesis] = escape (before ++ [parenthesis]) := by
        rw [escape_append]
        rfl
      rw [hsplit _ _ _ (by decide)] at hno ⊢
      rw [declaratorIn_head hno (not_mem_escaped (by decide) (by decide) hparenthesis hlast),
        Option.map_some, hclose, unescape_escape]
      exact .head hbody hlast
    · rw [declaratorIn_nothing hno (not_mem_escaped (by decide) (by decide) hparenthesis hhead)]
      exact .nothing hbody hhead

-- ── The columns ─────────────────────────────────────────────────────────────

/-- The column of a search pattern. -/
def pattern (line : Text) : Text :=
  patternStart ++ (escape line ++ patternTail)

/-- A field of a tag line.  It is no search pattern and its name ends at the colon. -/
structure Field where
  name : Text
  value : Text
  noTab : Glyph.char '\t' ∉ name ++ value
  noColon : Glyph.char ':' ∉ name
  trimmed : Text.trim value = value
  noPattern : ¬ (patternStart <:+: name ++ Text.ofString ":" ++ value ∧
    patternEnd <:+: name ++ Text.ofString ":" ++ value)

/-- The column of a field. -/
def Field.column (f : Field) : Text :=
  f.name ++ Text.ofString ":" ++ f.value

/-- What a tag tool says of one symbol: its name, the file, the source line and fields. -/
structure Entry where
  name : Text
  path : Text
  line : Text
  fields : List Field
  named : name ≠ []
  trimmed : Text.trim name = name
  noTab : Glyph.char '\t' ∉ name ++ path ++ line
  noColon : Glyph.char ':' ∉ path
  noPattern : ¬ patternStart <:+: path

/-- The columns of the line for an entry. -/
def Entry.columns (e : Entry) : List Text :=
  e.name :: e.path :: pattern e.line :: e.fields.map Field.column

/-- The line for an entry. -/
def Entry.write (e : Entry) : Text :=
  Text.joinWith [.char '\t'] e.columns

/-- The value of the last field with the given name. -/
def lastValue (name : Text) (fields : List Field) : Option Text :=
  (fields.reverse.find? (·.name == name)).map Field.value

theorem holds_iff {p t : Text} : Text.holds t p = true ↔ p <:+: t := by
  rw [Text.holds]
  induction t with
  | nil =>
      rw [Text.find?, List.infix_nil]
      cases p with
      | nil => exact ⟨fun _ => rfl, fun _ => rfl⟩
      | cons g p => exact ⟨(nomatch ·), (nomatch ·)⟩
  | cons g t ih =>
      rw [Text.find?, List.infix_cons_iff]
      by_cases hp : p.isPrefixOf (g :: t) = true
      · rw [if_pos hp]
        exact ⟨fun _ => .inl (List.isPrefixOf_iff_prefix.mp hp), fun _ => rfl⟩
      · rw [if_neg hp, Option.isSome_map, ih]
        exact ⟨.inr, fun h => h.resolve_left fun h => hp (List.isPrefixOf_iff_prefix.mpr h)⟩

theorem cutAtFirst_eq_none {g : Glyph} {t : Text} (h : g ∉ t) : Text.cutAtFirst g t = none := by
  have hall : ∀ x ∈ t, (x != g) = true := fun x hx => bne_iff_ne.mpr fun heq => h (heq ▸ hx)
  rw [Text.cutAtFirst, List.span_eq_takeWhile_dropWhile, List.dropWhile_eq_nil_iff.mpr hall]

theorem cutAtFirst_append {g : Glyph} {s : Text} (h : g ∉ s) (t : Text) :
    Text.cutAtFirst g (s ++ g :: t) = some (s, t) := by
  have hall : ∀ x ∈ s, (x != g) = true := fun x hx => bne_iff_ne.mpr fun heq => h (heq ▸ hx)
  rw [Text.cutAtFirst, List.span_eq_takeWhile_dropWhile, List.takeWhile_append_of_pos hall,
    List.dropWhile_append_of_pos hall, List.takeWhile_cons_of_neg (by simp),
    List.dropWhile_cons_of_neg (by simp), List.append_nil]

/-- A column that is neither a pattern nor a field says nothing. -/
theorem withColumn_other (r : Record) {column : Text} (hp : ¬ patternStart <:+: column)
    (hc : Glyph.char ':' ∉ column) : r.withColumn column = r := by
  have hno : Text.holds column patternStart = false :=
    Bool.eq_false_iff.mpr fun h => hp (holds_iff.mp h)
  rw [Record.withColumn, hno, Bool.false_and, if_neg Bool.false_ne_true, cutAtFirst_eq_none hc]

/-- A field column sets the field. -/
theorem withColumn_field (r : Record) (f : Field) :
    r.withColumn f.column = r.withField f.name f.value := by
  have hno : ¬ (Text.holds f.column patternStart && Text.holds f.column patternEnd) = true := by
    rw [Bool.and_eq_true, holds_iff, holds_iff]
    exact f.noPattern
  have hcut : Text.cutAtFirst (.char ':') f.column = some (f.name, f.value) := by
    rw [Field.column, List.append_assoc]
    exact cutAtFirst_append f.noColon f.value
  rw [Record.withColumn, if_neg hno, hcut]
  dsimp only
  rw [f.trimmed]

/-- A search pattern gives the declaring part of its line. -/
theorem withColumn_pattern {r : Record} (hr : r.code = none) (line : Text) :
    ∃ code, Declares line code ∧ r.withColumn (pattern line) = { r with code } := by
  have hstart : patternStart <:+: pattern line := ⟨[], _, rfl⟩
  have hend : patternEnd <:+: pattern line :=
    ⟨patternStart ++ (escape line ++ Text.ofString "$"), Text.ofString "\"", by
      simp only [pattern, List.append_assoc]
      rfl⟩
  have hdeclarator : declarator (pattern line)
      = (declaratorIn (escape line ++ patternTail)).map fun t => Text.trim (unescape t) := by
    rfl
  refine ⟨_, declares_escaped line patternTail (by decide) (by decide), ?_⟩
  rw [Record.withColumn, holds_iff.mpr hstart, holds_iff.mpr hend, Bool.true_and, if_pos rfl,
    hdeclarator]
  cases (declaratorIn (escape line ++ patternTail)).map fun t => Text.trim (unescape t) with
  | none =>
      dsimp only
      rw [← hr]
  | some code => rfl

-- ── The last value of a field counts ────────────────────────────────────────

/-- What setting a field does to every part of a record. -/
theorem withField_eq (r : Record) (f v : Text) :
    r.withField f v =
      { r with
        kind := if f = Text.ofString "kind" then Kind.ofWord v else r.kind
        line := if f = Text.ofString "line" then (Numeral.readInt 10 v).toOption else r.line
        typeRef := if f = Text.ofString "typeref" then some v else r.typeRef
        signature := if f = Text.ofString "signature" then some v else r.signature
        returnType := if f = Text.ofString "returntype" then some v else r.returnType } := by
  rw [Record.withField]
  by_cases hkind : f = Text.ofString "kind"
  · subst hkind
    rfl
  by_cases hline : f = Text.ofString "line"
  · subst hline
    rfl
  by_cases htype : f = Text.ofString "typeref"
  · subst htype
    rfl
  by_cases hsignature : f = Text.ofString "signature"
  · subst hsignature
    rfl
  by_cases hreturn : f = Text.ofString "returntype"
  · subst hreturn
    rfl
  · simp only [beq_iff_eq, hkind, hline, htype, hsignature, hreturn, if_false]

/-- The record after some fields. -/
def withFields (r : Record) (fields : List Field) : Record :=
  fields.foldl (fun r f => r.withField f.name f.value) r

theorem lastValue_cons (name : Text) (f : Field) (fields : List Field) :
    lastValue name (f :: fields)
      = (lastValue name fields).or (if f.name = name then some f.value else none) := by
  rw [lastValue, List.reverse_cons, List.find?_append, lastValue]
  cases fields.reverse.find? (·.name == name) with
  | some last => rfl
  | none =>
      rw [List.find?_singleton]
      by_cases hf : f.name = name
      · rw [if_pos (beq_iff_eq.mpr hf), if_pos hf]
        rfl
      · rw [if_neg (fun h => hf (beq_iff_eq.mp h)), if_neg hf]
        rfl

/-- **THE LAST VALUE COUNTS**: a part of the record that one field sets and the others leave
    alone holds what the last such field says. -/
theorem withFields_last {β : Type} (part : Record → β) (name : Text) (read : Text → β)
    (hset : ∀ r f v, part (r.withField f v) = if f = name then read v else part r)
    (r : Record) (fields : List Field) :
    part (withFields r fields) = ((lastValue name fields).map read).getD (part r) := by
  induction fields generalizing r with
  | nil => rfl
  | cons f fields ih =>
      show part (withFields (r.withField f.name f.value) fields) = _
      rw [ih, hset, lastValue_cons]
      cases lastValue name fields with
      | some v => rfl
      | none =>
          by_cases hf : f.name = name
          · rw [if_pos hf, if_pos hf]
            rfl
          · rw [if_neg hf, if_neg hf]
            rfl

/-- A part of the record that no field sets stays as it is. -/
theorem withFields_keeps {β : Type} (part : Record → β)
    (hkeep : ∀ r f v, part (r.withField f v) = part r) (r : Record) (fields : List Field) :
    part (withFields r fields) = part r := by
  induction fields generalizing r with
  | nil => rfl
  | cons f fields ih => exact (ih _).trans (hkeep r f.name f.value)

theorem foldl_withColumn_fields (r : Record) (fields : List Field) :
    (fields.map Field.column).foldl Record.withColumn r = withFields r fields := by
  rw [List.foldl_map, withFields]
  simp only [withColumn_field]

-- ── The numbers of lines ────────────────────────────────────────────────────

/-- A column leaves the line number alone, or one is read from it. -/
theorem withColumn_line (r : Record) (column : Text) :
    (r.withColumn column).line = r.line ∨
      ∃ v, (r.withColumn column).line = (Numeral.readInt 10 v).toOption := by
  rw [Record.withColumn]
  split
  · left
    split <;> rfl
  · split
    next field value _ =>
        rw [withField_eq]
        by_cases hline : field = Text.ofString "line"
        · exact .inr ⟨_, if_pos hline⟩
        · exact .inl (if_neg hline)
    next => exact .inl rfl

/-- Over the columns of a line no line number gets too long to be written. -/
theorem natAbs_line_foldl (columns : List Text) {r : Record}
    (hr : ∀ n, r.line = some n → n.natAbs < 10 ^ Numeral.maxDigits) {n : Int}
    (hn : (columns.foldl Record.withColumn r).line = some n) :
    n.natAbs < 10 ^ Numeral.maxDigits := by
  induction columns generalizing r with
  | nil => exact hr n hn
  | cons column columns ih =>
      refine ih (fun m hm => ?_) hn
      rcases withColumn_line r column with hkept | ⟨v, hread⟩
      · exact hr m (hkept ▸ hm)
      · rw [hread] at hm
        cases hv : Numeral.readInt 10 v with
        | ok k =>
            rw [hv] at hm
            exact Numeral.natAbs_lt_of_readInt (hv.trans (congrArg _ (Option.some.inj hm)))
        | error fault =>
            rw [hv] at hm
            exact nomatch hm

/-- A line number that was read is not too long to be written. -/
theorem natAbs_line_lt {lines : List Text} {r : Record} (hr : r ∈ readLines lines) {n : Int}
    (hn : r.line = some n) : n.natAbs < 10 ^ Numeral.maxDigits := by
  obtain ⟨line, -, hline⟩ := List.mem_filterMap.mp hr
  rw [readLine] at hline
  split at hline
  next => exact nomatch hline
  next first columns _ =>
    dsimp only at hline
    split at hline
    next => exact nomatch hline
    next =>
      obtain rfl := Option.some.inj hline
      exact natAbs_line_foldl columns (by rintro _ ⟨⟩) hn

-- ── The line ────────────────────────────────────────────────────────────────

/-- The text does not end in a line end. -/
def Ended (t : Text) : Prop :=
  ∃ g, t.getLast? = some g ∧ (g.is '\r' || g.is '\n') = false

theorem Ended.append {t : Text} (h : Ended t) (s : Text) : Ended (s ++ t) := by
  obtain ⟨g, hg, hend⟩ := h
  exact ⟨g, by rw [List.getLast?_append, hg]; rfl, hend⟩

theorem Ended.columnsOf {t : Text} (h : Ended t) :
    columnsOf t = Text.splitAtEach (·.is '\t') t := by
  obtain ⟨g, hg, hend⟩ := h
  rw [← List.head?_reverse] at hg
  obtain ⟨rest, hrest⟩ := List.head?_eq_some_iff.mp hg
  rw [Tag.columnsOf, hrest, List.dropWhile_cons_of_neg (by rw [hend]; exact Bool.false_ne_true),
    ← hrest, List.reverse_reverse]

theorem ended_pattern (line : Text) : Ended (pattern line) :=
  Ended.append (Ended.append ⟨.char '"', rfl, rfl⟩ _) _

theorem ended_of_trimmed {t : Text} (h : Text.trim t = t) (hne : t ≠ []) : Ended t := by
  obtain ⟨g, hg⟩ := Option.ne_none_iff_exists'.mp fun hnone =>
    hne (List.getLast?_eq_none_iff.mp hnone)
  have hblank : g.isBlank = false := by
    have hfirst := List.head?_dropWhile_not Glyph.isBlank (Text.trimStart t).reverse
    rw [← h, Text.trim, Text.dropEndWhile, List.getLast?_reverse] at hg
    rw [hg] at hfirst
    exact hfirst
  -- both line ends are blank
  refine ⟨g, hg, Bool.or_eq_false_iff.mpr ⟨?_, ?_⟩⟩
  · rw [Glyph.is, beq_eq_false_iff_ne]
    rintro rfl
    exact absurd hblank (by decide)
  · rw [Glyph.is, beq_eq_false_iff_ne]
    rintro rfl
    exact absurd hblank (by decide)

theorem ended_column (f : Field) : Ended f.column := by
  by_cases hvalue : f.value = []
  · rw [Field.column, hvalue, List.append_nil]
    exact Ended.append ⟨.char ':', rfl, rfl⟩ f.name
  · exact Ended.append (ended_of_trimmed f.trimmed hvalue) _

theorem ended_joinWith (sep first : Text) (parts : List Text)
    (h : ∀ t ∈ first :: parts, Ended t) : Ended (Text.joinWith sep (first :: parts)) := by
  induction parts generalizing first with
  | nil =>
      rw [Text.joinWith_singleton]
      exact h first (List.mem_cons_self ..)
  | cons second parts ih =>
      rw [Text.joinWith_cons_cons]
      exact Ended.append (Ended.append (ih second fun t ht => h t (List.mem_cons_of_mem _ ht)) _) _

theorem ended_write (e : Entry) : Ended e.write := by
  rw [Entry.write, Entry.columns, Text.joinWith_cons_cons, Text.joinWith_cons_cons]
  refine Ended.append (Ended.append (Ended.append (Ended.append ?_ _) _) _) _
  refine ended_joinWith _ _ _ fun t ht => ?_
  rcases List.mem_cons.mp ht with rfl | ht
  · exact ended_pattern e.line
  · obtain ⟨f, -, rfl⟩ := List.mem_map.mp ht
    exact ended_column f

/-- No column holds a tab. -/
theorem tab_not_mem_columns (e : Entry) :
    ∀ t ∈ e.columns, ∀ g ∈ t, g.is '\t' = false := by
  have htab : ∀ t ∈ e.columns, Glyph.char '\t' ∉ t := by
    have hnot := e.noTab
    rw [List.mem_append, List.mem_append, not_or, not_or] at hnot
    obtain ⟨⟨hname, hpath⟩, hline⟩ := hnot
    intro t ht
    rcases List.mem_cons.mp ht with rfl | ht
    · exact hname
    rcases List.mem_cons.mp ht with rfl | ht
    · exact hpath
    rcases List.mem_cons.mp ht with rfl | ht
    · exact List.not_mem_append (by decide)
        (not_mem_escaped (by decide) (by decide) (by decide) hline)
    · obtain ⟨f, -, rfl⟩ := List.mem_map.mp ht
      have hfield := f.noTab
      rw [List.mem_append, not_or] at hfield
      exact List.not_mem_append (List.not_mem_append hfield.1 (by decide)) hfield.2
  intro t ht g hg
  rw [Glyph.is, beq_eq_false_iff_ne]
  exact fun heq => htab t ht (heq ▸ hg)

/-- The columns of a written line are found again. -/
theorem columnsOf_write (e : Entry) : columnsOf e.write = e.columns := by
  rw [(ended_write e).columnsOf]
  exact Text.splitAtEach_joinWith (p := (·.is '\t')) rfl _ _ (tab_not_mem_columns e)

/-- The record of a written line. -/
theorem readLine_write_eq (e : Entry) :
    ∃ code, Declares e.line code ∧
      readLine e.write = .ok (withFields { name := e.name, code } e.fields) := by
  obtain ⟨code, hdeclares, hcode⟩ := withColumn_pattern (r := { name := e.name }) rfl e.line
  refine ⟨code, hdeclares, ?_⟩
  have hname : (Text.trim e.name).isEmpty = false := by
    rw [e.trimmed, List.isEmpty_eq_false_iff]
    exact e.named
  rw [readLine, columnsOf_write, Entry.columns]
  dsimp only
  rw [hname, if_neg Bool.false_ne_true, e.trimmed, List.foldl_cons,
    withColumn_other _ e.noPattern e.noColon, List.foldl_cons, hcode, foldl_withColumn_fields]

/-- **READING UNDOES WRITING**: the record of a written line has the name, the last value of
    every field that is asked for, the line number, and the part of the source line that
    declares. -/
theorem readLine_write (e : Entry) :
    ∃ r, readLine e.write = .ok r ∧
      r.name = e.name ∧
      r.typeRef = lastValue "typeref" e.fields ∧
      r.signature = lastValue "signature" e.fields ∧
      r.returnType = lastValue "returntype" e.fields ∧
      r.kind = ((lastValue "kind" e.fields).map Kind.ofWord).getD .other ∧
      (lastValue "line" e.fields = none → r.line = none) ∧
      (∀ n : Int, n.natAbs < 10 ^ Numeral.maxDigits →
        lastValue "line" e.fields = some (Text.ofInt n) → r.line = some n) ∧
      r.prototype = none ∧
      Declares e.line r.code := by
  obtain ⟨code, hdeclares, hread⟩ := readLine_write_eq e
  have hline := withFields_last Record.line "line" (fun v => (Numeral.readInt 10 v).toOption)
    (fun r f v => by rw [withField_eq]) { name := e.name, code } e.fields
  have hsome {part : Record → Option Text} {name : Text}
      (hset : ∀ r f v, part (r.withField f v) = if f = name then some v else part r)
      (hstart : part { name := e.name, code } = none) :
      part (withFields { name := e.name, code } e.fields) = lastValue name e.fields := by
    rw [withFields_last part name some hset, hstart]
    cases lastValue name e.fields <;> rfl
  refine ⟨_, hread, ?_, ?_, ?_, ?_, ?_, ?_, ?_, ?_, ?_⟩
  · exact withFields_keeps Record.name (fun r f v => by rw [withField_eq]) _ _
  · exact hsome (fun r f v => by rw [withField_eq]) rfl
  · exact hsome (fun r f v => by rw [withField_eq]) rfl
  · exact hsome (fun r f v => by rw [withField_eq]) rfl
  · exact withFields_last Record.kind "kind" Kind.ofWord (fun r f v => by rw [withField_eq]) _ _
  · intro hnone
    rw [hline, hnone]
    rfl
  · intro n hn hlast
    rw [hline, hlast, Option.map_some, Numeral.readInt_ofInt hn]
    rfl
  · exact withFields_keeps Record.prototype (fun r f v => by rw [withField_eq]) _ _
  · have hcode := withFields_keeps Record.code (fun r f v => by rw [withField_eq])
      { name := e.name, code } e.fields
    rw [hcode]
    exact hdeclares

/-- An entry whose source line holds backslashes in front of slashes and of backslashes, with
    a field given twice, an unknown one, and one that looks like half a pattern. -/
def slashed : Entry where
  name := "divide"
  path := "/tmp/merge/divide.ino"
  line := "int divide(int a, char c = '\\\\/') \x7b return a / 2; \x7d // \\/\\"
  fields :=
    [⟨"line", "9", by decide, by decide, by decide, by decide⟩,
      ⟨"access", "a:/^", by decide, by decide, by decide, by decide⟩,
      ⟨"signature", "(int a, char c)", by decide, by decide, by decide, by decide⟩,
      ⟨"line", "-12", by decide, by decide, by decide, by decide⟩]
  named := by decide
  trimmed := by decide
  noTab := by decide
  noColon := by decide
  noPattern := by decide

theorem readLine_write_slashed :
    (-12 : Int).natAbs < 10 ^ Numeral.maxDigits ∧
      ∃ r, readLine slashed.write = .ok r ∧ r.name = Text.ofString "divide" ∧ r.typeRef = none ∧
        r.signature = some (Text.ofString "(int a, char c)") ∧ r.line = some (-12) ∧
        Declares slashed.line r.code := by
  have hshort : (-12 : Int).natAbs < 10 ^ Numeral.maxDigits :=
    Nat.lt_of_lt_of_le (by decide : 12 < 10 ^ 2) (Nat.pow_le_pow_right (by decide) (by decide))
  obtain ⟨r, hread, hname, htype, hsignature, -, -, -, hline, -, hcode⟩ := readLine_write slashed
  exact ⟨hshort, r, hread, hname, htype, hsignature, hline (-12) hshort (by decide), hcode⟩

end SketchMerge.Tag
