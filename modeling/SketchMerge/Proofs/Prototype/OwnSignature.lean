import SketchMerge.Proofs.Prototype.Pieces
import SketchMerge.Prototype.Synthesis

/-! # Whose parameters are stripped

    A declaration is put together from return type, name and signature, and its
    parameter list is looked for again in the whole.  Without a parenthesis in the
    return type and the name, the list that is found is that of the signature.  With
    one it NEVER is: the list of an attribute, of a call operator or of a deduced
    type comes first, and the default values of the signature stay where they are
    (`stripDefaults_build_iff`). -/

namespace SketchMerge.Parameters

-- ── Texts around a declaration ──────────────────────────────────────────────

section

variable {s t u : Text}

theorem exists_framed (h : span? t ≠ none) : ∃ before inner after, Framed before inner after t := by
  obtain ⟨⟨i, j⟩, hspan⟩ := Option.ne_none_iff_exists'.mp h
  obtain ⟨before, inner, after, hframed, -, -⟩ := span?_eq_some_iff.mp hspan
  exact ⟨before, inner, after, hframed⟩

/-- What opens no parenthesis may be put in front. -/
theorem stripDefaults_prepend (hs : .char '(' ∉ s) (ht : span? t ≠ none) :
    stripDefaults (s ++ t) = s ++ stripDefaults t := by
  obtain ⟨before, inner, after, h⟩ := exists_framed ht
  have hwhole : Framed (s ++ before) inner after (s ++ t) := by
    refine ⟨by rw [h.whole, List.append_assoc], ?_, h.closes⟩
    rw [List.mem_append]
    rintro (hmem | hmem)
    · exact hs hmem
    · exact h.first hmem
  rw [hwhole.stripDefaults, h.stripDefaults, List.append_assoc]

theorem Framed.append {before inner after : Text} (h : Framed before inner after t) (u : Text) :
    Framed before inner (after ++ u) (t ++ u) :=
  ⟨by rw [h.whole]; simp, h.first, h.closes⟩

theorem span?_append (ht : span? t ≠ none) (u : Text) : span? (t ++ u) ≠ none := by
  obtain ⟨before, inner, after, h⟩ := exists_framed ht
  rw [(h.append u).span]
  exact Option.some_ne_none _

/-- **THE FIRST LIST IS STRIPPED**, and anything may be put behind it. -/
theorem stripDefaults_append (ht : span? t ≠ none) (u : Text) :
    stripDefaults (t ++ u) = stripDefaults t ++ u := by
  obtain ⟨before, inner, after, h⟩ := exists_framed ht
  rw [(h.append u).stripDefaults, h.stripDefaults]
  simp

/-- A parenthesis that is not closed stays so if a list in parentheses of its own follows. -/
theorem span?_of_unclosed (hs : .char '(' ∈ s) (hnone : span? s = none)
    (ht : Closes parenthesisChange 0 t) (hu : .char ')' ∉ u) : span? (s ++ (t ++ u)) = none := by
  obtain ⟨before, rest, rfl, hfirst⟩ := List.eq_append_cons_of_mem hs
  rw [List.append_assoc, List.cons_append, span?_behind hfirst, Option.map_eq_none_iff]
  rw [span?_behind hfirst, Option.map_eq_none_iff] at hnone
  cases hfound : closing? 1 (rest ++ (t ++ u)) with
  | none => rfl
  | some n =>
      obtain ⟨inner, after, hinner, -, hcloses⟩ := closing?_eq_some_iff.mp hfound
      rcases entry_of_append hinner with ⟨mid, rfl⟩ | ⟨mid, rfl, htu⟩
      · -- it would be closed before
        rw [closing?_eq_some_iff.mpr ⟨inner, mid, rfl, rfl, hcloses⟩] at hnone
        exact absurd hnone (by simp)
      · rcases entry_of_append htu with ⟨more, rfl⟩ | ⟨more, -, rfl⟩
        · -- the list would close one more than it opens
          have hrest := hcloses.behind
          have htotal := hrest.total
          have hlist := ht.behind.2.nonneg
          have hnonneg := hrest.nonneg
          have hchange : parenthesisChange (.char ')') = -1 := rfl
          omega
        · exact absurd (by simp) hu

end

end SketchMerge.Parameters

namespace SketchMerge.Prototype

open Parameters Tag

-- ── Declarations put together ───────────────────────────────────────────────

section

variable {r : Record} {returnType signature : Text}

/-- The declaration of a record that lacks nothing and is no template. -/
theorem build_eq_ok (htemplate : isTemplate r = false) (hreturn : r.returnType = some returnType)
    (hsignature : r.signature = some signature) (hreturnType : returnType ≠ [])
    (hname : r.name ≠ []) (hne : signature ≠ []) :
    build r = .ok (returnType ++ " " ++ r.name ++ (signature ++ ";")) := by
  have hmissing : missingFields r = [] := by
    simp [missingFields, hreturn, hsignature, hreturnType, hname, hne]
  have hassemble : build r = assemble r := by
    rw [build, htemplate]
  rw [hassemble, assemble, hmissing]
  simp [hreturn, hsignature]

/-- A front that opens a parenthesis takes the place of some signature. -/
theorem exists_signature_kept {front : Text} (hfront : .char '(' ∈ front) :
    ∃ signature : Text, signature.head? = some (.char '(') ∧ span? signature ≠ none ∧
      stripDefaults (front ++ (signature ++ ";")) ≠ front ++ (stripDefaults signature ++ ";") := by
  have hvalue : stripDefaults "(a=0)" = "(a)" := by decide
  have hnothing : stripDefaults "()" = "()" := by decide
  by_cases hspan : span? front = none
  · -- the parenthesis is not closed, and nothing is stripped
    have hcloses : Closes parenthesisChange 0 (Text.ofString "(a=0)") := by decide
    refine ⟨"(a=0)", by decide, by decide, ?_⟩
    rw [stripDefaults_of_span?_none (span?_of_unclosed hfront hspan hcloses (by decide)), hvalue]
    intro h
    exact absurd (List.append_cancel_left h) (by decide)
  · -- it is closed, and what is stripped is the front
    by_cases hsame : stripDefaults front = front
    · refine ⟨"(a=0)", by decide, by decide, ?_⟩
      rw [stripDefaults_append hspan, hsame, hvalue]
      intro h
      exact absurd (List.append_cancel_left h) (by decide)
    · refine ⟨"()", by decide, by decide, ?_⟩
      rw [stripDefaults_append hspan, hnothing]
      intro h
      exact hsame (List.append_cancel_right h)

/-- **STRIPPING ACTS ON THE RECORD'S OWN SIGNATURE EXACTLY IF NO PARENTHESIS COMES FIRST.**
    Take a return type and a name, neither of them empty and the return type not that
    of a template.  For every record with these two, whatever its signature, stripping
    its declaration strips the signature and leaves the rest, IF AND ONLY IF neither
    the return type nor the name has an opening parenthesis. -/
theorem stripDefaults_build_iff {returnType name : Text} (hreturnType : returnType ≠ [])
    (hname : name ≠ []) (htemplate : startsTemplate (some returnType) = false) :
    (∀ (r : Record) (signature : Text), r.kind = .function → isTemplate r = false →
        r.returnType = some returnType → r.name = name → r.signature = some signature →
        signature.head? = some (.char '(') → span? signature ≠ none →
        ∃ t, build r = .ok t ∧
          stripDefaults t = returnType ++ " " ++ name ++ (stripDefaults signature ++ ";"))
      ↔ .char '(' ∉ returnType ∧ .char '(' ∉ name := by
  have hfront : .char '(' ∈ returnType ++ " " ++ name ↔
      .char '(' ∈ returnType ∨ .char '(' ∈ name := by
    have hblank : .char '(' ∉ Text.ofString " " := by decide
    simp [hblank]
  rw [← not_or, ← hfront]
  constructor
  · intro h hmem
    obtain ⟨signature, hopen, hspan, hkept⟩ := exists_signature_kept hmem
    let r : Record :=
      { name, kind := .function, returnType := some returnType, signature := some signature }
    have hr : isTemplate r = false := Bool.or_eq_false_iff.mpr ⟨htemplate, rfl⟩
    obtain ⟨t, hbuild, hstrip⟩ := h r signature rfl hr rfl rfl rfl hopen hspan
    have hne : signature ≠ [] := by
      rintro rfl
      exact absurd hopen (by simp)
    rw [build_eq_ok hr rfl rfl hreturnType hname hne] at hbuild
    rw [← Except.ok.inj hbuild] at hstrip
    exact hkept hstrip
  · rintro hfree r signature - hr hreturn rfl hsignature hopen hspan
    have hne : signature ≠ [] := by
      rintro rfl
      exact absurd hopen (by simp)
    refine ⟨_, build_eq_ok hr hreturn hsignature hreturnType hname hne, ?_⟩
    rw [stripDefaults_prepend hfree (span?_append hspan _), stripDefaults_append hspan]

end

/-- A plain function: its default value is stripped. -/
theorem stripDefaults_build_plain :
    let r : Record :=
      { name := "add", kind := .function, returnType := Text.ofString "int",
        signature := Text.ofString "(int a, int b=0)" }
    ∃ t, build r = .ok t ∧ stripDefaults t = "int add(int a, int b);" := by
  intro r
  have hplain : .char '(' ∉ Text.ofString "int" ∧ .char '(' ∉ Text.ofString "add" := by decide
  obtain ⟨t, hbuild, hstrip⟩ := (stripDefaults_build_iff (by decide) (by decide) (by decide)).mpr
    hplain r "(int a, int b=0)" rfl rfl rfl rfl rfl rfl (by decide)
  exact ⟨t, hbuild, hstrip.trans (by decide)⟩

/-- A call operator: the parentheses of its name are taken for the parameter list, and the
    default value stays. -/
theorem call_operator_keeps_default :
    let signature : Text := "(int a = 0)"
    let r : Record :=
      { name := "operator()", kind := .function, returnType := Text.ofString "int",
        signature := some signature }
    isTemplate r = false ∧ signature.head? = some (.char '(') ∧ span? signature ≠ none ∧
      build r = .ok "int operator()(int a = 0);" ∧
      stripDefaults "int operator()(int a = 0);" = "int operator()(int a = 0);" ∧
      stripDefaults "int operator()(int a = 0);"
        ≠ Text.ofString "int operator()" ++ (stripDefaults signature ++ ";") := by
  refine ⟨rfl, rfl, by decide, rfl, by decide, by decide⟩

end SketchMerge.Prototype
