import SketchMerge.Proofs.Prototype.Pieces
import SketchMerge.Proofs.Prototype.SecondPass
import SketchMerge.Proofs.Run.Faithful

/-! # What is composed can be written

    A text can be written unless it has a surrogate that no bytes stand for.  Decoded
    bytes have none, and all that a run makes of texts is to cut them, to put them
    together and to add characters.  So the composed text CAN ALWAYS BE WRITTEN when
    the tag lines are decoded bytes. -/

namespace SketchMerge

namespace Utf8

/-- Every glyph of the text has bytes that stand for it. -/
def Writable (t : Text) : Prop :=
  ∀ g ∈ t, isUnwritable g = false

variable {s t : Text}

theorem unwritable?_eq_none : unwritable? t = none ↔ Writable t := by
  rw [unwritable?, Option.map_eq_none_iff, List.findIdx?_eq_none_iff]
  rfl

theorem writable_nil : Writable [] :=
  fun _ h => nomatch h

theorem writable_cons {g : Glyph} : Writable (g :: t) ↔ isUnwritable g = false ∧ Writable t :=
  List.forall_mem_cons

theorem Writable.append (hs : Writable s) (ht : Writable t) : Writable (s ++ t) :=
  List.forall_mem_append.mpr ⟨hs, ht⟩

theorem Writable.subset (ht : Writable t) (h : s ⊆ t) : Writable s :=
  fun g hg => ht g (h hg)

/-- A string of characters can be written. -/
theorem writable_ofString (string : String) : Writable (Text.ofString string) := by
  intro g hg
  obtain ⟨c, -, rfl⟩ := List.mem_map.mp hg
  rfl

theorem Writable.joinWith {sep : Text} {parts : List Text} (hsep : Writable sep)
    (hparts : ∀ part ∈ parts, Writable part) : Writable (Text.joinWith sep parts) := by
  intro g hg
  rcases Text.mem_joinWith hg with hg | ⟨part, hpart, hg⟩
  · exact hsep g hg
  · exact hparts part hpart g hg

/-- A stray byte stands for itself. -/
theorem writable_strayOf (b : UInt8) : isUnwritable (strayOf b) = false := by
  rw [strayOf, isUnwritable, Glyph.byte?_stray]
  exact Bool.and_false _

theorem writable_decodeAfter (skip : Nat) (bytes : List UInt8) :
    Writable (decodeAfter skip bytes) := by
  induction bytes generalizing skip with
  | nil => exact writable_nil
  | cons b rest ih =>
      cases skip with
      | succ skip => exact ih skip
      | zero =>
          rw [decodeAfter]
          split
          · exact writable_cons.mpr ⟨rfl, ih _⟩
          · exact writable_cons.mpr ⟨writable_strayOf b, ih _⟩

/-- **DECODED BYTES CAN BE WRITTEN.** -/
theorem writable_decode (bytes : List UInt8) : Writable (decode bytes) :=
  writable_decodeAfter 0 bytes

end Utf8

open Utf8

-- ── Cutting texts ───────────────────────────────────────────────────────────

namespace Text

theorem dropEndWhile_subset (p : Glyph → Bool) (t : Text) : dropEndWhile p t ⊆ t := by
  intro g hg
  rw [dropEndWhile, List.mem_reverse] at hg
  exact List.mem_reverse.mp ((List.dropWhile_sublist p).subset hg)

theorem slice_subset (t : Text) (i j : Nat) : t.slice i j ⊆ t := fun _ hg =>
  List.mem_of_mem_take (List.mem_of_mem_drop hg)

theorem splitAtEach_subset (p : Glyph → Bool) (t : Text) : ∀ part ∈ splitAtEach p t, part ⊆ t := by
  induction t with
  | nil => exact fun part hpart => List.mem_singleton.mp hpart ▸ List.Subset.refl _
  | cons g rest ih =>
      intro part hpart
      rw [splitAtEach] at hpart
      split at hpart
      · exact Parameters.subset_of_mem_cut ih hpart
      · exact Parameters.subset_of_mem_consFirst ih hpart

theorem splitLines_subset (t : Text) : ∀ line ∈ splitLines t, line ⊆ t := by
  induction t using splitLines.induct with
  | case1 => exact fun _ hline => nomatch hline
  | case2 rest ih =>
      intro line hline
      rw [splitLines] at hline
      exact List.subset_cons_of_subset _ (Parameters.subset_of_mem_cut ih hline)
  | case3 g rest hpair hend ih =>
      intro line hline
      rw [splitLines.eq_3 g rest hpair, if_pos hend] at hline
      exact Parameters.subset_of_mem_cut ih hline
  | case4 g rest hpair hend hnone ih =>
      intro line hline
      rw [splitLines.eq_3 g rest hpair, if_neg hend] at hline
      exact Parameters.subset_of_mem_consFirst ih hline
  | case5 g rest hpair hend first lines hsome ih =>
      intro line hline
      rw [splitLines.eq_3 g rest hpair, if_neg hend] at hline
      exact Parameters.subset_of_mem_consFirst ih hline

theorem cutAtFirst_subset {sep : Glyph} {t before after : Text}
    (h : cutAtFirst sep t = some (before, after)) : after ⊆ t := by
  rw [cutAtFirst] at h
  split at h
  next => exact nomatch h
  next first g rest hspan =>
      obtain ⟨-, rfl⟩ := Prod.mk.inj (Option.some.inj h)
      rw [List.span_eq_takeWhile_dropWhile] at hspan
      have hdrop := (Prod.mk.inj hspan).2
      intro x hx
      refine (List.dropWhile_sublist (· != sep)).subset ?_
      rw [hdrop]
      exact List.mem_cons_of_mem _ hx

end Text

/-- Line ends become characters. -/
theorem Utf8.Writable.unifyNewlines {t : Text} (h : Writable t) : Writable t.unifyNewlines := by
  induction t using Text.unifyNewlines.induct with
  | case1 rest ih =>
      rw [Text.unifyNewlines]
      exact writable_cons.mpr ⟨rfl, ih (writable_cons.mp (writable_cons.mp h).2).2⟩
  | case2 rest hlone ih =>
      rw [Text.unifyNewlines.eq_2 rest hlone]
      exact writable_cons.mpr ⟨rfl, ih (writable_cons.mp h).2⟩
  | case3 g rest hpair hother ih =>
      rw [Text.unifyNewlines.eq_3 g rest hpair hother]
      exact writable_cons.mpr ⟨(writable_cons.mp h).1, ih (writable_cons.mp h).2⟩
  | case4 => exact writable_nil

-- ── Tag lines and declarations ──────────────────────────────────────────────

namespace Tag

theorem writable_replacePair {x y z : Glyph} (hz : isUnwritable z = false) {t : Text}
    (h : Writable t) : Writable (replacePair x y z t) := by
  induction t using replacePair.induct x y with
  | case1 a c rest hpair ih =>
      rw [replacePair, if_pos hpair]
      exact writable_cons.mpr ⟨hz, ih (writable_cons.mp (writable_cons.mp h).2).2⟩
  | case2 a c rest hpair ih =>
      rw [replacePair, if_neg hpair]
      exact writable_cons.mpr ⟨(writable_cons.mp h).1, ih (writable_cons.mp h).2⟩
  | case3 t hshort =>
      rw [replacePair.eq_2 x y z t hshort]
      exact h

/-- The texts of a record from which a declaration is made can be written. -/
structure Record.Writable (r : Record) : Prop where
  name : Utf8.Writable r.name
  signature : ∀ t ∈ r.signature, Utf8.Writable t
  returnType : ∀ t ∈ r.returnType, Utf8.Writable t
  code : ∀ t ∈ r.code, Utf8.Writable t

theorem writable_declarator {column code : Text} (h : Utf8.Writable column)
    (hcode : declarator column = some code) : Utf8.Writable code := by
  rw [declarator] at hcode
  split at hcode
  next i _ =>
      obtain ⟨t, ht, rfl⟩ := Option.map_eq_some_iff.mp hcode
      have hcut : t ⊆ column := by
        rw [declaratorIn] at ht
        split at ht
        · rw [← Option.some.inj ht]
          exact fun g hg => List.mem_of_mem_drop ((List.takeWhile_sublist _).subset hg)
        · split at ht
          · rw [← Option.some.inj ht]
            exact fun g hg => List.mem_of_mem_drop (Text.dropEndWhile_subset _ _ hg)
          · exact nomatch ht
      have hunescaped : Utf8.Writable (unescape t) :=
        writable_replacePair rfl (writable_replacePair rfl (h.subset hcut))
      exact hunescaped.subset (Text.trim_subset _)
  next => exact nomatch hcode

theorem Record.Writable.withField {r : Record} (h : r.Writable) (field : Text) {value : Text}
    (hvalue : Utf8.Writable value) : (r.withField field value).Writable := by
  have hsome : ∀ t ∈ some value, Utf8.Writable t := fun t ht => Option.mem_some.mp ht ▸ hvalue
  rw [Record.withField]
  split
  · exact ⟨h.name, h.signature, h.returnType, h.code⟩
  · split
    · exact ⟨h.name, h.signature, h.returnType, h.code⟩
    · split
      · exact ⟨h.name, h.signature, h.returnType, h.code⟩
      · split
        · exact ⟨h.name, hsome, h.returnType, h.code⟩
        · split
          · exact ⟨h.name, h.signature, hsome, h.code⟩
          · exact h

/-- A column adds to a record no more than its own glyphs. -/
theorem Record.Writable.withColumn {r : Record} (h : r.Writable) {column : Text}
    (hcolumn : Utf8.Writable column) : (r.withColumn column).Writable := by
  rw [Record.withColumn]
  split
  · split
    next code hcode =>
        have hwritable := writable_declarator hcolumn hcode
        exact ⟨h.name, h.signature, h.returnType, fun t ht => Option.mem_some.mp ht ▸ hwritable⟩
    next => exact h
  · split
    next field value hcut =>
        exact h.withField field
          ((hcolumn.subset (Text.cutAtFirst_subset hcut)).subset (Text.trim_subset _))
    next => exact h

theorem Record.Writable.withColumns {r : Record} (h : r.Writable) {columns : List Text}
    (hcolumns : ∀ column ∈ columns, Utf8.Writable column) :
    (columns.foldl Record.withColumn r).Writable := by
  induction columns generalizing r with
  | nil => exact h
  | cons column columns ih =>
      exact ih (h.withColumn (hcolumns column (List.mem_cons_self ..)))
        fun c hc => hcolumns c (List.mem_cons_of_mem _ hc)

theorem writable_readLine {line : Text} {r : Record} (h : Utf8.Writable line)
    (hr : readLine line = .ok r) : r.Writable := by
  have hcolumns : ∀ column ∈ columnsOf line, Utf8.Writable column := fun column hcolumn =>
    (h.subset (Text.dropEndWhile_subset _ _)).subset (Text.splitAtEach_subset _ _ column hcolumn)
  rw [readLine] at hr
  split at hr
  next => exact nomatch hr
  next first columns heq =>
      rw [heq] at hcolumns
      dsimp only at hr
      split at hr
      · exact nomatch hr
      · rw [← Except.ok.inj hr]
        have hnone : ∀ t ∈ (none : Option Text), Utf8.Writable t :=
          fun t ht => absurd ht (Option.not_mem_none t)
        refine Record.Writable.withColumns ⟨?_, hnone, hnone, hnone⟩
          fun c hc => hcolumns c (List.mem_cons_of_mem _ hc)
        exact (hcolumns first (List.mem_cons_self ..)).subset (Text.trim_subset _)

/-- Records are read from glyphs of their lines. -/
theorem writable_readLines {lines : List Text} (h : ∀ line ∈ lines, Utf8.Writable line) :
    ∀ r ∈ readLines lines, r.Writable := by
  intro r hr
  obtain ⟨line, hline, hread⟩ := List.mem_filterMap.mp hr
  refine writable_readLine (h line (List.mem_filter.mp hline).1) ?_
  cases hresult : readLine line with
  | error fault =>
      rw [hresult] at hread
      exact nomatch hread
  | ok r' =>
      rw [hresult] at hread
      exact congrArg _ (Option.some.inj hread)

end Tag

namespace Prototype

open Tag (Record)

theorem writable_stripDefaults {t : Text} (h : Writable t) :
    Writable (Parameters.stripDefaults t) := by
  rw [Parameters.stripDefaults]
  split
  · exact h
  next i j _ =>
      dsimp only
      split
      · refine ((h.subset (List.take_subset i t)).append
          (Writable.joinWith (writable_ofString _) ?_)).append (h.subset (List.drop_subset j t))
        intro part hpart
        obtain ⟨parameter, hparameter, rfl⟩ := List.mem_map.mp hpart
        refine ((h.subset (Text.slice_subset t i j)).subset
          (Parameters.splitFrom_subset 0 _ parameter hparameter)).subset fun g hg => ?_
        exact (List.takeWhile_sublist _).subset (Text.trim_subset _ hg)
      · exact h

theorem writable_build {r : Record} {t : Text} (h : r.Writable) (ht : build r = .ok t) :
    Writable t := by
  have hgiven {x : Option Text} (hx : ∀ t ∈ x, Writable t) : Writable (x.getD []) := by
    cases x with
    | none => exact writable_nil
    | some t => exact hx t rfl
  rw [build] at ht
  split at ht
  next code _ hcode =>
      rw [← Except.ok.inj ht]
      exact h.code code hcode
  next =>
      rw [assemble] at ht
      split at ht
      · rw [← Except.ok.inj ht]
        exact ((((hgiven h.returnType).append (writable_ofString _)).append h.name).append
          (hgiven h.signature)).append (writable_ofString _)
      · cases ht

/-- **DECLARATIONS CAN BE WRITTEN** that are made from lines that can. -/
theorem writable_texts {lines : List Text} (h : ∀ line ∈ lines, Writable line) :
    ∀ t ∈ texts (synthesize (Tag.readLines lines)), Writable t := by
  intro t ht
  obtain ⟨r, hr, hprototype⟩ := List.mem_filterMap.mp (List.mem_filter.mp ht).1
  obtain ⟨candidate, hrecord, -, -, hdeclare⟩ := mem_synthesize.mp hr
  obtain ⟨built, hbuilt, rfl⟩ := Option.map_eq_some_iff.mp hdeclare
  obtain rfl := Option.some.inj hprototype
  refine writable_stripDefaults (writable_build (Tag.writable_readLines h candidate hrecord) ?_)
  cases hresult : build candidate with
  | error skip =>
      rw [hresult] at hbuilt
      exact nomatch hbuilt
  | ok t =>
      rw [hresult] at hbuilt
      exact congrArg _ (Option.some.inj hbuilt)

end Prototype

-- ── The composed text ───────────────────────────────────────────────────────

/-- A merged text can be written if the names of the files can. -/
theorem Buffer.writable_unify (markers : Bool) {files : List Project.SketchFile}
    (h : ∀ f ∈ files, Writable f.1) :
    Writable (Buffer.unify markers (files.map Project.sourceOf)).text := by
  intro g hg
  obtain ⟨source, hsource, hg⟩ := List.mem_flatMap.mp hg
  obtain ⟨f, hf, rfl⟩ := List.mem_map.mp hsource
  refine Writable.append ?_ ?_ g hg
  · split
    · exact ((writable_ofString _).append (h f hf)).append (writable_ofString _)
    · exact writable_nil
  · have hcontent : Writable (Project.sourceOf f).content := (writable_decode f.2).unifyNewlines
    rw [Text.closeLine]
    split
    · exact hcontent
    · exact hcontent.append (writable_cons.mpr ⟨rfl, writable_nil⟩)

/-- **WHAT IS COMPOSED CAN BE WRITTEN.** -/
theorem Pipeline.Merged.writable_text {m : Merged} {lines : List Text}
    (hbuffer : Writable m.buffer.text) (hlines : ∀ line ∈ lines, Writable line) :
    Writable (m.text lines) := by
  refine ((hbuffer.subset (List.take_subset _ _)).append ?_).append
    (hbuffer.subset (List.drop_subset _ _))
  rw [Buffer.block]
  split
  · exact writable_nil
  · refine ((Writable.joinWith (writable_ofString _) (Prototype.writable_texts hlines)).append
      (writable_ofString _)).append ?_
    split
    · exact ((writable_ofString _).append (writable_ofString _)).append (writable_ofString _)
    · exact writable_nil

end SketchMerge
