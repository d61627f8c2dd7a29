import SketchMerge.Proofs.Number.Decimal
import SketchMerge.Proofs.Text.Splitting
import SketchMerge.Sketch.Compose

/-! # Presumed places

    A compiler that reads a merged sketch believes what the line directives say:
    `#line N` gives the next line the number `N`, and `#line N "F"` moves it to
    the file `F` as well.  Every other line adds one to the number.  The place
    where a glyph is presumed to stand is that of its line.

    Reading goes glyph by glyph and remembers the line that is not over.  Over a
    text without directives it only counts newlines (`readAll_plain`). -/

namespace SketchMerge

/-- What a line directive says of the next line. -/
structure LineDirective where
  number : Nat
  /-- The file, if it names one. -/
  file : Option Text
  deriving DecidableEq, Repr

namespace LineDirective

/-- What every line directive starts with. -/
def word : Text := "#line"

/-- What a line says if it is a line directive: the word, a blank and a numeral, and
    then nothing or a blank and a quoted file.  The file is all that stands between
    the first and the last quote. -/
def read? (line : Text) : Option LineDirective :=
  if (Text.ofString "#line ").isPrefixOf line then
    let rest := line.drop 6
    let digits := rest.takeWhile Glyph.isAsciiDigit
    let number := Numeral.ofDigits 10 (digits.map fun g => g.code - 0x30)
    if digits.isEmpty then none
    else
      match rest.dropWhile Glyph.isAsciiDigit with
      | [] => some ⟨number, none⟩
      | .char ' ' :: .char '"' :: quoted =>
        if quoted.getLast? = some (.char '"') then some ⟨number, some quoted.dropLast⟩ else none
      | _ => none
  else none

/-- A line that does not start with the word is no line directive. -/
theorem read?_eq_none {line : Text} (h : line.startsWith word = false) : read? line = none := by
  rw [read?, if_neg]
  intro hpre
  have hword : word.isPrefixOf line = true := by
    rw [List.isPrefixOf_iff_prefix] at hpre ⊢
    exact List.IsPrefix.trans (show word <+: Text.ofString "#line " from ⟨[.char ' '], rfl⟩) hpre
  rw [Text.startsWith, hword] at h
  exact nomatch h

/-- A line that starts with something else does not start with the word. -/
theorem not_startsWith_word {line : Text} (h : line.head? ≠ some (.char '#')) :
    line.startsWith word = false := by
  cases line with
  | nil => rfl
  | cons g line =>
      have hg : (Glyph.char '#' == g) = false :=
        beq_eq_false_iff_ne.mpr fun heq => h (by rw [heq]; rfl)
      show ((Glyph.char '#' == g) && _) = false
      rw [hg, Bool.false_and]

/-- A run of digits is taken whole. -/
theorem takeWhile_digits (digits rest : Text) (hd : ∀ g ∈ digits, g.isAsciiDigit = true)
    (hr : ∀ g ∈ rest.head?, g.isAsciiDigit = false) :
    (digits ++ rest).takeWhile Glyph.isAsciiDigit = digits
      ∧ (digits ++ rest).dropWhile Glyph.isAsciiDigit = rest := by
  rw [List.takeWhile_append_of_pos hd, List.dropWhile_append_of_pos hd]
  cases rest with
  | nil => exact ⟨List.append_nil _, rfl⟩
  | cons g rest =>
      have hg := hr g rfl
      rw [List.takeWhile_cons_of_neg (by rw [hg]; exact Bool.false_ne_true),
        List.dropWhile_cons_of_neg (by rw [hg]; exact Bool.false_ne_true)]
      exact ⟨List.append_nil _, rfl⟩

/-- A directive with a numeral only. -/
theorem read?_number (n : Nat) : read? ("#line " ++ Text.ofNat n) = some ⟨n, none⟩ := by
  obtain ⟨htake, hdrop⟩ := takeWhile_digits (Text.ofNat n) []
    (fun _ => Text.isAsciiDigit_of_mem_ofNat) (fun g hg => nomatch hg)
  rw [List.append_nil] at htake hdrop
  have hrest : ((Text.ofString "#line ") ++ Text.ofNat n).drop 6 = Text.ofNat n := rfl
  rw [read?, if_pos (List.isPrefixOf_iff_prefix.mpr (List.prefix_append _ _)), hrest]
  dsimp only
  rw [htake, hdrop, Numeral.ofDigits_ofNat]
  exact if_neg (fun h => Text.ofNat_ne_nil n (List.isEmpty_iff.mp h))

/-- A directive with a numeral and a file. -/
theorem read?_marker (name : Text) :
    read? ("#line 1 \"" ++ name ++ "\"") = some ⟨1, some name⟩ := by
  have hrest : ((Text.ofString "#line 1 \"") ++ name ++ Text.ofString "\"").drop 6
      = Glyph.char '1' :: .char ' ' :: .char '"' :: (name ++ [.char '"']) := rfl
  have hpre : (Text.ofString "#line ").isPrefixOf
      (Text.ofString "#line 1 \"" ++ name ++ Text.ofString "\"") = true := rfl
  rw [read?, if_pos hpre, hrest]
  show (if (name ++ [Glyph.char '"']).getLast? = some (.char '"')
    then some (LineDirective.mk 1 (some (name ++ [Glyph.char '"']).dropLast)) else none) = _
  rw [List.getLast?_concat, if_pos rfl, List.dropLast_concat]

end LineDirective

/-- A place as a compiler presumes it. -/
structure Presumed where
  /-- The file, if a directive has named one. -/
  file : Option Text
  line : Nat
  deriving DecidableEq, Repr

namespace Presumed

/-- The place where reading starts. -/
def start : Presumed := ⟨none, 1⟩

/-- The place of the line after one that is over. -/
def after (p : Presumed) (line : Text) : Presumed :=
  match LineDirective.read? line with
  | none => { p with line := p.line + 1 }
  | some d => ⟨d.file.or p.file, d.number⟩

/-- The place so many lines further on in the same file. -/
def plus (p : Presumed) (n : Nat) : Presumed :=
  { p with line := p.line + n }

theorem after_of_none {line : Text} (h : LineDirective.read? line = none) (p : Presumed) :
    p.after line = p.plus 1 := by
  rw [after, h]
  rfl

theorem after_of_some {line : Text} {d : LineDirective} (h : LineDirective.read? line = some d)
    (p : Presumed) : p.after line = ⟨d.file.or p.file, d.number⟩ := by
  rw [after, h]

theorem plus_plus (p : Presumed) (m n : Nat) : (p.plus m).plus n = p.plus (m + n) := by
  rw [plus, plus, plus, Nat.add_assoc]

end Presumed

/-- What a compiler knows in the middle of a text. -/
structure Reader where
  /-- The place of the line that is being read. -/
  place : Presumed
  /-- What has been read of that line. -/
  line : Text
  deriving DecidableEq, Repr

namespace Reader

/-- The reader in front of a text. -/
def start : Reader := ⟨.start, []⟩

/-- Reads one glyph. -/
def read (r : Reader) (g : Glyph) : Reader :=
  if g = Glyph.newline then ⟨r.place.after r.line, []⟩ else ⟨r.place, r.line ++ [g]⟩

/-- Reads a text. -/
def readAll (r : Reader) (t : Text) : Reader :=
  t.foldl read r

end Reader

/-- The place where glyph number `i` of a text is presumed to stand. -/
def Presumed.at (t : Text) (i : Nat) : Presumed :=
  (Reader.start.readAll (t.take i)).place

namespace Reader

theorem readAll_append (r : Reader) (s t : Text) :
    r.readAll (s ++ t) = (r.readAll s).readAll t :=
  List.foldl_append ..

theorem read_newline (p : Presumed) (l : Text) :
    (Reader.mk p l).read Glyph.newline = ⟨p.after l, []⟩ := rfl

theorem read_kept (p : Presumed) (l : Text) {g : Glyph} (hg : g ≠ Glyph.newline) :
    (Reader.mk p l).read g = ⟨p, l ++ [g]⟩ := by
  rw [read, if_neg hg]

/-- The line that is being read does not depend on places. -/
theorem readAll_line (r : Reader) (t : Text) :
    (r.readAll t).line = Text.lastLineAfter r.line t := by
  induction t generalizing r with
  | nil => rfl
  | cons g t ih =>
      by_cases hg : g = Glyph.newline
      · subst hg
        exact ih ⟨r.place.after r.line, []⟩
      · have hread : r.read g = ⟨r.place, r.line ++ [g]⟩ := read_kept r.place r.line hg
        show ((r.read g).readAll t).line = _
        rw [hread, Text.lastLineAfter_cons r.line t hg]
        exact ih _

/-- A line that is read to its end. -/
theorem readAll_line_end (p : Presumed) (l : Text) {t : Text} (ht : Glyph.newline ∉ t) :
    (Reader.mk p l).readAll (t ++ [Glyph.newline]) = ⟨p.after (l ++ t), []⟩ := by
  induction t generalizing l with
  | nil =>
      rw [List.append_nil]
      rfl
  | cons g t ih =>
      obtain ⟨hg, ht⟩ := not_or.mp (fun h => ht (List.mem_cons.mpr h))
      rw [List.cons_append]
      show ((Reader.mk p l).read g).readAll _ = _
      rw [read_kept p l (Ne.symm hg), ih _ ht, List.append_assoc]
      rfl

end Reader

-- ── Texts without directives ────────────────────────────────────────────────

/-- No line of the text starts like a line directive. -/
def Text.Plain (t : Text) : Prop :=
  ∀ line ∈ t.linesOf, line.startsWith LineDirective.word = false

namespace Reader

/-- Reading over a plain text counts newlines; `l` is what was read of its first line. -/
theorem readAll_place_plain (p : Presumed) {l : Text} (hl : Glyph.newline ∉ l) (u v : Text)
    (h : (l ++ u ++ v).Plain) : ((Reader.mk p l).readAll u).place = p.plus u.newlines := by
  induction u generalizing p l with
  | nil => rfl
  | cons g u ih =>
      show (((Reader.mk p l).read g).readAll u).place = _
      by_cases hg : g = Glyph.newline
      · subst hg
        rw [Text.Plain, List.append_assoc, List.cons_append, Text.linesOf_line hl] at h
        have hnone := LineDirective.read?_eq_none (h l (List.mem_cons_self ..))
        rw [read_newline, Presumed.after_of_none hnone,
          ih (p.plus 1) List.not_mem_nil (fun x hx => h x (List.mem_cons_of_mem _ hx)),
          Presumed.plus_plus, Text.newlines, Text.newlines, List.count_cons_self, Nat.add_comm]
      · have hl' : Glyph.newline ∉ l ++ [g] := by
          intro hmem
          rcases List.mem_append.mp hmem with hmem | hmem
          · exact hl hmem
          · exact hg (List.mem_singleton.mp hmem).symm
        rw [read_kept p l hg, ih p hl' (by rw [← List.append_cons]; exact h), Text.newlines,
          Text.newlines, List.count_cons_of_ne hg]

/-- **READING A PLAIN TEXT** up to any point of it counts its newlines. -/
theorem readAll_plain (p : Presumed) (u v : Text) (h : (u ++ v).Plain) :
    (Reader.mk p []).readAll u = ⟨p.plus u.newlines, u.lastLine⟩ := by
  have hplace := readAll_place_plain p List.not_mem_nil u v h
  have hline := readAll_line (Reader.mk p []) u
  generalize (Reader.mk p []).readAll u = r at hplace hline
  obtain ⟨place, line⟩ := r
  cases hplace
  cases hline
  rfl

/-- Lines that are no directives add their number. -/
theorem readAll_lines (p : Presumed) (lines : List Text)
    (h : ∀ l ∈ lines, Glyph.newline ∉ l ∧ LineDirective.read? l = none) :
    (Reader.mk p []).readAll (lines.flatMap (· ++ [Glyph.newline]))
      = ⟨p.plus lines.length, []⟩ := by
  induction lines generalizing p with
  | nil => rfl
  | cons l lines ih =>
      obtain ⟨hl, hnone⟩ := h l (List.mem_cons_self ..)
      rw [List.flatMap_cons, readAll_append, readAll_line_end p [] hl, List.nil_append,
        Presumed.after_of_none hnone, ih _ (fun x hx => h x (List.mem_cons_of_mem _ hx)),
        Presumed.plus_plus, List.length_cons, Nat.add_comm]

/-- Two readers at one place agree on all that follows if they agree on the rest of
    the line. -/
theorem readAll_place_agree (p : Presumed) (l l' t : Text)
    (h : ∀ s, Glyph.newline ∉ s → s ++ [Glyph.newline] <+: t →
      p.after (l ++ s) = p.after (l' ++ s)) :
    ((Reader.mk p l).readAll t).place = ((Reader.mk p l').readAll t).place := by
  induction t generalizing l l' with
  | nil => rfl
  | cons g t ih =>
      show (((Reader.mk p l).read g).readAll t).place = (((Reader.mk p l').read g).readAll t).place
      by_cases hg : g = Glyph.newline
      · subst hg
        have hnow := h [] List.not_mem_nil ⟨t, rfl⟩
        rw [List.append_nil, List.append_nil] at hnow
        rw [read_newline, read_newline, hnow]
      · rw [read_kept p l hg, read_kept p l' hg]
        refine ih _ _ ?_
        intro s hs hpre
        have hs' : Glyph.newline ∉ g :: s := by
          intro hmem
          rcases List.mem_cons.mp hmem with hmem | hmem
          · exact hg hmem.symm
          · exact hs hmem
        have hnext := h (g :: s) hs' (List.cons_prefix_cons.mpr ⟨rfl, hpre⟩)
        rw [List.append_assoc, List.append_assoc]
        exact hnext

end Reader

end SketchMerge
