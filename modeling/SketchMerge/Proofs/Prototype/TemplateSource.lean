import SketchMerge.Proofs.Prototype.Selection
import SketchMerge.Proofs.Prototype.Semicolon
import SketchMerge.Proofs.Tag.QuotedSource

/-! # Templates that are found in their source lines

    A template is known by the code that is found in its source line, and by nothing
    else that a tag tool says of it: return type and signature are those of any other
    function.  Where the code is LOST, the function is declared as if it were no
    template.  It is lost where a tab cuts the source line, and where the line neither
    opens a body nor closes a parenthesis (`template_kept_iff`). -/

namespace SketchMerge.Text

/-- A word at the front of a text is not trimmed away. -/
theorem prefix_trim {w : Text} (hw : ∀ g ∈ w, g.isBlank = false) (t : Text) :
    w <+: trim (w ++ t) := by
  obtain ⟨lead, trail, hlead, htrail, h⟩ := exists_around_trim (w ++ t)
  generalize trim (w ++ t) = core at h ⊢
  have hclash {g : Glyph} (hword : g ∈ w) (hblank : g.isBlank = true) : False := by
    simp [hw g hword] at hblank
  cases w with
  | nil => exact List.nil_prefix
  | cons g w =>
      cases lead with
      | cons x lead =>
          obtain ⟨rfl, -⟩ := List.cons.inj h
          exact (hclash (List.mem_cons_self ..) (hlead g (List.mem_cons_self ..))).elim
      | nil =>
          rw [List.nil_append] at h
          rcases List.append_eq_append_iff.mp h with ⟨u, hcore, -⟩ | ⟨u, hword, rfl⟩
          · exact ⟨u, hcore.symm⟩
          · -- the rest of the word would be among the blanks
            cases u with
            | nil => exact ⟨[], by rw [hword, List.append_nil, List.append_nil]⟩
            | cons y u =>
                have hmem : y ∈ g :: w := hword ▸ List.mem_append_right _ (List.mem_cons_self ..)
                exact (hclash hmem (htrail y (List.mem_cons_self ..))).elim

end SketchMerge.Text

namespace SketchMerge.Tag

open Prototype (templateWord)

-- ── Where code is found ─────────────────────────────────────────────────────

theorem Declares.isSome_iff {line : Text} {code : Option Text} (h : Declares line code) :
    code.isSome = true ↔ brace ∈ line ∨ parenthesis ∈ line := by
  cases h with
  | body first => simp
  | head noBody last => simp
  | nothing noBody noHead => simp [noBody, noHead]

/-- The code is found if the first stretch of the source line opens a body or closes a
    parenthesis, and if a tab behind it does not take away the end of the pattern. -/
structure Captured (source : Text) : Prop where
  declares : brace ∈ firstStretch source ∨ parenthesis ∈ firstStretch source
  ended : tab ∈ source → patternEnd <:+: firstStretch source

instance (source : Text) : Decidable (Captured source) :=
  decidable_of_iff ((brace ∈ firstStretch source ∨ parenthesis ∈ firstStretch source) ∧
      (tab ∈ source → patternEnd <:+: firstStretch source))
    ⟨fun h => ⟨h.1, h.2⟩, fun h => ⟨h.declares, h.ended⟩⟩

theorem Finds.isSome_iff {source : Text} {code : Option Text} (h : Finds source code) :
    code.isSome = true ↔ Captured source := by
  cases h with
  | pattern hend hdeclares =>
      rw [hdeclares.isSome_iff]
      exact ⟨fun h => ⟨h, hend⟩, fun h => h.declares⟩
  | apart htab hend =>
      refine iff_of_false Bool.false_ne_true fun h => hend (h.ended htab)

/-- The word for a template stays in front of what is declared. -/
theorem Declares.template {blanks rest code : Text} (hblanks : ∀ g ∈ blanks, g.isBlank = true)
    (h : Declares (blanks ++ (templateWord ++ rest)) (some code)) : templateWord <+: code := by
  have hfree (g : Glyph) (hg : g.isBlank = false) (hword : g ∉ templateWord) :
      g ∉ blanks ++ templateWord :=
    List.not_mem_append (fun hmem => by simp [hblanks g hmem] at hg) hword
  have hfront {before after : Text} {g : Glyph} (hg : g.isBlank = false)
      (hword : g ∉ templateWord)
      (hline : blanks ++ (templateWord ++ rest) = before ++ g :: after) (tail : Text) :
      templateWord <+: Text.trim (before ++ tail) := by
    have hwhole : blanks ++ templateWord <+: before ++ g :: after :=
      ⟨rest, by rw [List.append_assoc, hline]⟩
    obtain ⟨u, rfl⟩ := (prefix_before_iff (hfree g hg hword)).mp hwhole
    rw [List.append_assoc, List.append_assoc, Text.trim_blank_append hblanks]
    exact Text.prefix_trim (by decide) _
  generalize hline : blanks ++ (templateWord ++ rest) = line at h
  cases h with
  | body first =>
      rename_i before after
      have := hfront (by decide) (by decide) hline []
      rwa [List.append_nil] at this
  | head noBody last => exact hfront (by decide) (by decide) hline [parenthesis]

/-- A source line that starts with the word for a template, behind blanks: so does the code
    that is found in it. -/
theorem Finds.template {source code : Text} (hsource : templateWord <+: Text.trimStart source)
    (h : Finds source (some code)) : templateWord <+: code := by
  obtain ⟨rest, hrest⟩ := hsource
  have hblanks : ∀ g ∈ source.takeWhile Glyph.isBlank, g.isBlank = true :=
    fun g hg => List.mem_takeWhile_imp hg
  have hwhole : source = source.takeWhile Glyph.isBlank ++ (templateWord ++ rest) := by
    rw [hrest, Text.trimStart, List.takeWhile_append_dropWhile]
  generalize source.takeWhile Glyph.isBlank = blanks at hblanks hwhole
  cases h with
  | pattern hend hdeclares =>
      by_cases htab : tab ∈ blanks
      · -- the first stretch is blank, and nothing is declared in it
        obtain ⟨first, more, rfl, hfirst⟩ := List.eq_append_cons_of_mem htab
        rw [hwhole, List.append_assoc, List.cons_append, firstStretch_tab hfirst] at hdeclares
        rcases hdeclares.isSome_iff.mp rfl with hmem | hmem
        · exact absurd (hblanks _ (List.mem_append_left _ hmem)) (by decide)
        · exact absurd (hblanks _ (List.mem_append_left _ hmem)) (by decide)
      · have hstretch : firstStretch source = blanks ++ (templateWord ++ firstStretch rest) := by
          rw [hwhole, firstStretch, List.takeWhile_append_of_pos (not_is_of_not_mem htab),
            List.takeWhile_append_of_pos (by decide), ← firstStretch]
        rw [hstretch] at hdeclares
        exact hdeclares.template hblanks

end SketchMerge.Tag

namespace SketchMerge.Prototype

open Parameters Tag

-- ── What is declared ────────────────────────────────────────────────────────

theorem startsTemplate_eq_true_iff {t : Option Text} :
    startsTemplate t = true ↔ ∃ code, t = some code ∧ templateWord <+: code := by
  cases t with
  | none => simp [startsTemplate]
  | some code => simp [startsTemplate, Text.startsWith]

/-- Code that starts with the word for a template is declared as it is. -/
theorem template_of_code {r : Record} {code : Text} (hcode : r.code = some code)
    (htemplate : templateWord <+: code) :
    ∀ s ∈ synthesize [r], ∃ p, s.prototype = some p ∧ templateWord <+: p := by
  intro s hs
  have hsame : s.code = some code := by
    obtain ⟨r', hr', -, -, hdeclare⟩ := mem_synthesize.mp hs
    obtain ⟨t, -, rfl⟩ := Option.map_eq_some_iff.mp hdeclare
    rw [← hcode, ← List.mem_singleton.mp hr']
  obtain ⟨t, hbuilds, hprototype⟩ := exists_builds hs
  refine ⟨_, hprototype, (prefix_stripDefaults_iff (by decide) t).mpr ?_⟩
  cases hbuilds with
  | found _ hfound => rwa [Option.some.inj (hfound.symm.trans hsame)]
  | assembled hplain _ _ =>
      have htrue : isTemplate s = true := by
        rw [isTemplate, Bool.or_eq_true]
        exact .inr (startsTemplate_eq_true_iff.mpr ⟨code, hsame, htemplate⟩)
      exact absurd ((hplain htrue).symm.trans hsame) (by simp)

/-- Without such code, and without such a return type, the function is declared as any
    other. -/
theorem plain_of_code {r : Record} {returnType signature : Text} (hkind : r.kind = .function)
    (hcode : startsTemplate r.code = false) (hname : r.name ≠ [])
    (hreturn : r.returnType = some returnType) (hsignature : r.signature = some signature)
    (hreturnType : returnType ≠ []) (hne : signature ≠ [])
    (hplain : startsTemplate (some returnType) = false) :
    { r with prototype := some (stripDefaults (returnType ++ " " ++ r.name ++ (signature ++ ";"))) }
      ∈ synthesize [r] := by
  have htemplate : isTemplate r = false := by
    rw [isTemplate, hreturn, hcode, hplain]
    rfl
  refine mem_synthesize.mpr ⟨r, List.mem_singleton.mpr rfl, hkind, ?_, declare_of_ok
    (build_eq_ok htemplate hreturn hsignature hreturnType hname hne)⟩
  rw [mem_declaredNames]
  rintro ⟨d, hd, hprototype, -⟩
  rw [List.mem_singleton.mp hd, hkind] at hprototype
  exact absurd hprototype (by decide)

/-- What a tag tool says of a function with the given source line. -/
def twiceIn (source : Text) : Quotation where
  name := "twice"
  path := "p.ino"
  source := source
  fields := ["kind:function", "line:2", "signature:(T a)", "returntype:T"]
  named := by decide
  noTab := by decide
  noPattern := by decide
  noEnd := by decide

/-- Every tag line for the source line can be read, and a declaration that is made starts with
    the word for a template. -/
def KeepsTemplate (source : Text) : Prop :=
  ∀ q : Quotation, q.source = source → ∃ r, readLine q.write = .ok r ∧
    ∀ s ∈ synthesize [r], ∃ p, s.prototype = some p ∧ templateWord <+: p

theorem keepsTemplate_of_found {source code : Text} (hfound : found source = some code)
    (htemplate : templateWord <+: code) : KeepsTemplate source := by
  rintro q rfl
  obtain ⟨r, -, hcode, hread⟩ := q.readLine_quotation
  exact ⟨_, hread, template_of_code ((q.code_fields r).trans (hcode.trans hfound)) htemplate⟩

theorem KeepsTemplate.exists_found {source : Text} (h : KeepsTemplate source) :
    ∃ code, found source = some code ∧ templateWord <+: code := by
  obtain ⟨r, hname, hcode, hread⟩ := (twiceIn source).readLine_quotation
  obtain ⟨r', hread', hdeclared⟩ := h (twiceIn source) rfl
  rw [hread, Except.ok.injEq] at hread'
  -- the fields say the rest, whatever the columns of the source line have said
  have hfields : r' = { r with
      kind := .function, line := some 2, signature := some "(T a)",
      returnType := some "T" } := by
    rw [← hread']
    rfl
  subst hfields
  cases hstarts : startsTemplate (found source) with
  | true => exact startsTemplate_eq_true_iff.mp hstarts
  | false =>
      obtain ⟨p, hp, htemplate⟩ := hdeclared _ (plain_of_code rfl (hcode ▸ hstarts)
        (hname ▸ (twiceIn source).named) rfl rfl (by decide) (by decide) (by decide))
      rw [← Option.some.inj hp, prefix_stripDefaults_iff (by decide)] at htemplate
      obtain ⟨rest, hrest⟩ := htemplate
      have hhead : some (Glyph.char 't') = some (.char 'T') := congrArg List.head? hrest
      exact absurd hhead (by decide)

/-- **A TEMPLATE IS DECLARED AS ONE EXACTLY IF ITS CODE IS FOUND.**  Take a source line that
    starts with the word for a template, behind blanks.  Whatever name, path and fields a
    tag line gives it, its record can be read, and a declaration that is made starts with
    the word for a template, IF AND ONLY IF what is found of the line does.  If the line
    has not the mark that opens a pattern once more behind a tab, that is so if and only
    if its first stretch, up to a tab, opens a body or closes a parenthesis, and is the
    whole line or has the end of a pattern of its own. -/
theorem template_kept_iff {source : Text} (hsource : templateWord <+: Text.trimStart source) :
    (KeepsTemplate source ↔ ∃ code, found source = some code ∧ templateWord <+: code) ∧
      (¬ patternStart <:+: source.dropWhile (!·.is '\t') →
        (KeepsTemplate source ↔ Captured source)) := by
  have hkept : KeepsTemplate source ↔ ∃ code, found source = some code ∧ templateWord <+: code :=
    ⟨fun h => h.exists_found, fun ⟨_, hfound, htemplate⟩ =>
      keepsTemplate_of_found hfound htemplate⟩
  refine ⟨hkept, fun hmark => ?_⟩
  have hfinds := finds_found hmark
  rw [hkept, ← hfinds.isSome_iff, Option.isSome_iff_exists]
  constructor
  · rintro ⟨code, hfound, -⟩
    exact ⟨code, hfound⟩
  · rintro ⟨code, hfound⟩
    exact ⟨code, hfound, (hfound ▸ hfinds).template hsource⟩

/-- A source line with blanks in front, a default value and no tab: its template is kept. -/
theorem template_kept_spaced :
    let q := twiceIn "  template <class T> T twice(T a = T()) \x7b"
    templateWord <+: Text.trimStart q.source ∧
      ∃ r, readLine q.write = .ok r ∧ (synthesize [r]).length = 1 ∧
        ∀ s ∈ synthesize [r], ∃ p, s.prototype = some p ∧ templateWord <+: p := by
  intro q
  have hsource : templateWord <+: Text.trimStart q.source := by decide
  have hcaptured : Captured q.source := by decide
  obtain ⟨r, hread, hkept⟩ :=
    ((template_kept_iff hsource).2 (by decide)).mpr hcaptured q rfl
  have hlength : (readLine q.write).toOption.map (fun r => (synthesize [r]).length) = some 1 := by
    decide +kernel
  rw [hread] at hlength
  exact ⟨hsource, r, hread, Option.some.inj hlength, hkept⟩

/-- The same line behind a tab: the function is declared as if it were no template. -/
theorem template_lost_indented :
    let q := twiceIn "\ttemplate <class T> T twice(T a) \x7b"
    let p : Text := "T twice(T a);"
    templateWord <+: Text.trimStart q.source ∧
      (readLine q.write).toOption.map (fun r => texts (synthesize [r])) = some [p] ∧
      ¬ templateWord <+: p := by
  decide +kernel

end SketchMerge.Prototype
