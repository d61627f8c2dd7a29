import SketchMerge.Proofs.Prototype.OwnSignature
import SketchMerge.Proofs.Prototype.SecondPass

/-! # The semicolon of a declaration

    A declaration that is put together ends in a semicolon.  One that is used as it was
    found need not, and this is meant for templates.  But a record is taken for that of
    a template by the LETTERS that its return type or its code start with, also where
    they are only the front of a longer word; such a function gets its declaration
    without the semicolon (`terminated_iff`). -/

namespace SketchMerge.Parameters

/-- Stripping leaves the end of a declaration. -/
theorem getLast?_stripDefaults (t : Text) : (stripDefaults t).getLast? = t.getLast? := by
  by_cases hspan : span? t = none
  · rw [stripDefaults_of_span?_none hspan]
  · obtain ⟨before, inner, after, h⟩ := exists_framed hspan
    rw [h.stripDefaults, h.whole]
    simp [List.getLast?_append, List.getLast?_cons]

/-- Stripping leaves the start of a declaration. -/
theorem prefix_stripDefaults_iff {w : Text} (hw : .char '(' ∉ w) (t : Text) :
    w <+: stripDefaults t ↔ w <+: t := by
  by_cases hspan : span? t = none
  · rw [stripDefaults_of_span?_none hspan]
  · obtain ⟨before, inner, after, h⟩ := exists_framed hspan
    rw [h.stripDefaults, h.whole, prefix_before_iff hw, prefix_before_iff hw]

end SketchMerge.Parameters

namespace SketchMerge.Prototype

open Parameters Tag

-- ── How a declaration is made ───────────────────────────────────────────────

/-- The ways in which the declaration of a record can be made. -/
inductive Builds (r : Record) : Text → Prop
  /-- The code of a template, as it was found. -/
  | found {code : Text} (htemplate : isTemplate r = true) (hcode : r.code = some code) :
      Builds r code
  /-- Anything else, put together from return type, name and signature. -/
  | assembled {returnType signature : Text} (hplain : isTemplate r = true → r.code = none)
      (hreturn : r.returnType = some returnType) (hsignature : r.signature = some signature) :
      Builds r (returnType ++ " " ++ r.name ++ (signature ++ ";"))

section

variable {r : Record} {t : Text}

theorem assembled_of_assemble (hplain : isTemplate r = true → r.code = none)
    (h : assemble r = .ok t) : Builds r t := by
  rw [assemble] at h
  split at h
  · rename_i hmissing
    simp only [missingFields, List.append_eq_nil_iff, ite_eq_right_iff] at hmissing
    obtain ⟨⟨hreturn, -⟩, hsignature⟩ := hmissing
    cases hr : r.returnType with
    | none => exact absurd (hreturn (by rw [hr]; rfl)) (by simp)
    | some returnType =>
        cases hs : r.signature with
        | none => exact absurd (hsignature (by rw [hs]; rfl)) (by simp)
        | some signature =>
            rw [hr, hs, List.append_assoc] at h
            rw [← Except.ok.inj h]
            exact .assembled hplain hr hs
  · exact absurd h (by simp)

/-- **HOW A DECLARATION IS MADE**, if it is. -/
theorem builds_of_build (h : build r = .ok t) : Builds r t := by
  rw [build] at h
  split at h
  · rename_i code htemplate hcode
    rw [← Except.ok.inj h]
    exact .found htemplate hcode
  · rename_i hother
    refine assembled_of_assemble (fun htemplate => ?_) h
    cases hcode : r.code with
    | none => rfl
    | some code => exact absurd hcode (hother code htemplate)

/-- A record in the result holds the declaration that was made for it. -/
theorem exists_builds {records : List Record} {s : Record} (hs : s ∈ synthesize records) :
    ∃ t, Builds s t ∧ s.prototype = some (stripDefaults t) := by
  obtain ⟨r, -, -, -, hdeclare⟩ := mem_synthesize.mp hs
  obtain ⟨t, hbuild, rfl⟩ := Option.map_eq_some_iff.mp hdeclare
  refine ⟨t, ?_, rfl⟩
  cases hr : build r with
  | error skip =>
      rw [hr] at hbuild
      exact absurd hbuild (by simp [Except.toOption])
  | ok t' =>
      rw [hr] at hbuild
      obtain rfl : t' = t := Option.some.inj hbuild
      -- the declaration is made of none of what it changes
      cases builds_of_build hr with
      | found htemplate hcode => exact .found htemplate hcode
      | assembled hplain hreturn hsignature => exact .assembled hplain hreturn hsignature

end

-- ── Words ───────────────────────────────────────────────────────────────────

/-- The text ends in a semicolon. -/
def Terminated (t : Text) : Prop :=
  t.getLast? = some (.char ';')

instance (t : Text) : Decidable (Terminated t) :=
  inferInstanceAs (Decidable (_ = _))

theorem terminated_append (t : Text) : Terminated (t ++ ";") :=
  List.getLast?_concat

section

variable (inWord : Glyph → Bool)

/-- The text is there and starts with the keyword of a template: what follows it, if
    anything does, is not part of a word. -/
def StartsKeyword : Option Text → Prop
  | none => False
  | some t => templateWord <+: t ∧
      ∀ g ∈ (t.drop templateWord.length).head?, inWord g = false

/-- The text is there and starts with a word that is longer than the keyword. -/
def StartsLonger : Option Text → Prop
  | none => False
  | some t => templateWord <+: t ∧
      ∃ g ∈ (t.drop templateWord.length).head?, inWord g = true

instance : (t : Option Text) → Decidable (StartsKeyword inWord t)
  | none => inferInstanceAs (Decidable False)
  | some _ => inferInstanceAs (Decidable (_ ∧ ∀ g ∈ _, _))

instance : (t : Option Text) → Decidable (StartsLonger inWord t)
  | none => inferInstanceAs (Decidable False)
  | some _ => inferInstanceAs (Decidable (_ ∧ ∃ g ∈ _, _))

/-- The letters are a word of their own or the front of a longer one. -/
theorem startsTemplate_iff (t : Option Text) :
    startsTemplate t = true ↔ StartsKeyword inWord t ∨ StartsLonger inWord t := by
  cases t with
  | none => simp [startsTemplate, StartsKeyword, StartsLonger]
  | some t =>
      rw [startsTemplate, Text.startsWith, List.isPrefixOf_iff_prefix, StartsKeyword,
        StartsLonger, ← and_or_left]
      refine (and_iff_left ?_).symm
      cases (t.drop templateWord.length).head? with
      | none => simp
      | some g => cases hg : inWord g <;> simp [hg]

/-- A record that is taken for that of a template by mistake. -/
structure Mistaken (r : Record) : Prop where
  longer : StartsLonger inWord r.returnType ∨ StartsLonger inWord r.code
  returnType : ¬ StartsKeyword inWord r.returnType
  code : ¬ StartsKeyword inWord r.code
  /-- There is code to be used as it was found, and it does not end in a semicolon. -/
  unterminated : ∃ code, r.code = some code ∧ ¬ Terminated code

/-- **EVERY DECLARATION IS TERMINATED OR A TEMPLATE'S, EXCEPT BY MISTAKE.**  Whatever glyphs
    are part of words, each record of a result has a declaration, and this ends in a
    semicolon, or the return type or the code starts with the keyword of a template, IF
    AND ONLY IF the record is not one that starts with a longer word and has code that
    does not end in a semicolon. -/
theorem terminated_iff {records : List Record} {s : Record} (hs : s ∈ synthesize records) :
    ∃ p, s.prototype = some p ∧
      ((Terminated p ∨ StartsKeyword inWord s.returnType ∨ StartsKeyword inWord s.code) ↔
        ¬ Mistaken inWord s) := by
  obtain ⟨t, hbuilds, hprototype⟩ := exists_builds hs
  have hend : Terminated (stripDefaults t) ↔ Terminated t := by
    rw [Terminated, Terminated, getLast?_stripDefaults]
  refine ⟨_, hprototype, ?_⟩
  rw [hend]
  have htemplate : isTemplate s = true ↔ (StartsKeyword inWord s.returnType ∨
      StartsLonger inWord s.returnType) ∨ StartsKeyword inWord s.code ∨
        StartsLonger inWord s.code := by
    rw [isTemplate, Bool.or_eq_true, startsTemplate_iff inWord, startsTemplate_iff inWord]
  cases hbuilds with
  | found hfound hcode =>
      constructor
      · rintro hfine ⟨-, hreturnType, hkeyword, code, hsome, hopen⟩
        obtain rfl : code = t := Option.some.inj (hsome.symm.trans hcode)
        exact hfine.elim hopen fun h => h.elim hreturnType hkeyword
      · intro hmistaken
        by_contra hnot
        obtain ⟨hopen, hnot⟩ := not_or.mp hnot
        obtain ⟨hreturnType, hkeyword⟩ := not_or.mp hnot
        refine hmistaken ⟨?_, hreturnType, hkeyword, t, hcode, hopen⟩
        exact (htemplate.mp hfound).imp (·.resolve_left hreturnType) (·.resolve_left hkeyword)
  | assembled hplain _ _ =>
      refine iff_of_true (.inl ?_) ?_
      · rw [← List.append_assoc]
        exact terminated_append _
      · -- there is no code, or the record is not taken for that of a template
        rintro ⟨hlonger, -, -, code, hsome, -⟩
        have hnone := hplain (htemplate.mpr (hlonger.imp .inr .inr))
        exact absurd (hnone.symm.trans hsome) (by simp)

end

/-- Letters, digits and the underscore. -/
def isWordPart (g : Glyph) : Bool :=
  g.char?.any fun c => c.isAlphanum || c == '_'

/-- A plain function whose code was found too: its declaration ends in a semicolon. -/
theorem terminated_plain :
    let r : Record :=
      { name := "add", kind := .function, returnType := Text.ofString "int",
        signature := Text.ofString "(int a, int b = 0)", code := Text.ofString "int add(int a" }
    let s : Record := { r with prototype := Text.ofString "int add(int a, int b);" }
    s ∈ synthesize [r] ∧ ∃ p, s.prototype = some p ∧ (Terminated p ∨
      StartsKeyword isWordPart s.returnType ∨ StartsKeyword isWordPart s.code) := by
  intro r s
  have hs : s ∈ synthesize [r] := by decide
  have hlonger : ¬ (StartsLonger isWordPart s.returnType ∨ StartsLonger isWordPart s.code) := by
    decide
  obtain ⟨p, hp, hiff⟩ := terminated_iff isWordPart hs
  exact ⟨hs, p, hp, hiff.mpr fun hmistaken => hlonger hmistaken.longer⟩

/-- A type whose name starts with the letters of the keyword: the function that returns it
    is declared without a semicolon. -/
theorem longer_word_unterminated :
    let r : Record :=
      { name := "make", kind := .function, returnType := Text.ofString "templated",
        signature := Text.ofString "()", code := Text.ofString "templated make()" }
    let p : Text := "templated make()"
    synthesize [r] = [{ r with prototype := some p }] ∧ ¬ Terminated p ∧
      ¬ StartsKeyword isWordPart r.returnType ∧ ¬ StartsKeyword isWordPart r.code := by
  decide

end SketchMerge.Prototype
