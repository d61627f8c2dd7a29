import SketchMerge.Proofs.Text.Sorting
import SketchMerge.Prototype.Synthesis
import SketchMerge.Sketch.Compose

/-! # A second pass adds nothing

    Once the declarations of a first pass stand in a text, a tag tool reports them
    too, the lines of the other symbols move, and more may be reported that is
    declared or of no interest.  Whatever the first pass made of a function then
    ends in NOTHING: a function that was declared still is, one that lacked
    something still does, and one that got a declaration is declared now. -/

namespace SketchMerge.Prototype

open Tag (Record Kind)

-- ── What a pass makes declarations for ──────────────────────────────────────

theorem mem_declaredNames {records : List Record} {name : Text} :
    name ∈ declaredNames records ↔ ∃ r ∈ records, r.kind = .prototype ∧ r.name = name := by
  rw [declaredNames, List.mem_map]
  constructor
  · rintro ⟨r, hr, hname⟩
    obtain ⟨hmem, hkind⟩ := List.mem_filter.mp hr
    exact ⟨r, hmem, beq_iff_eq.mp hkind, hname⟩
  · rintro ⟨r, hmem, hkind, hname⟩
    exact ⟨r, List.mem_filter.mpr ⟨hmem, beq_iff_eq.mpr hkind⟩, hname⟩

/-- Declarations are called for by the functions that are nowhere declared. -/
theorem mem_candidates {records : List Record} {r : Record} :
    r ∈ candidates records ↔
      r ∈ records ∧ r.kind = .function ∧ r.name ∉ declaredNames records := by
  rw [candidates, List.mem_filter, callsFor, Bool.and_eq_true, bne_iff_ne, Bool.not_eq_true',
    ← Bool.not_eq_true, List.contains_iff_mem]
  constructor
  · rintro ⟨hmem, hother, hname⟩
    refine ⟨hmem, ?_, hname⟩
    cases hkind : r.kind with
    | function => rfl
    | other => exact absurd hkind hother
    | prototype => exact absurd (mem_declaredNames.mpr ⟨r, hmem, hkind, rfl⟩) hname
  · rintro ⟨hmem, hkind, hname⟩
    exact ⟨hmem, by rw [hkind]; exact (nomatch ·), hname⟩

/-- The records that get a declaration are those that call for one and lack nothing. -/
theorem made_pass (declared : List Text) (records : List Record) :
    (pass declared records).made = (records.filter (callsFor declared)).filterMap declare := by
  induction records with
  | nil => rfl
  | cons r records ih =>
      rw [pass]
      by_cases hcalls : callsFor declared r = true
      · rw [if_pos hcalls, List.filter_cons_of_pos hcalls]
        cases hdeclare : declare r with
        | none => rw [List.filterMap_cons_none hdeclare, ← ih]
        | some s => rw [List.filterMap_cons_some hdeclare, ← ih]
      · rw [if_neg hcalls, List.filter_cons_of_neg hcalls, ← ih]

theorem mem_synthesize {records : List Record} {s : Record} :
    s ∈ synthesize records ↔ ∃ r ∈ records, r.kind = .function ∧
      r.name ∉ declaredNames records ∧ declare r = some s := by
  rw [synthesize, mem_sortBy, made_pass, ← candidates, List.mem_filterMap]
  constructor
  · rintro ⟨r, hr, hdeclare⟩
    obtain ⟨hmem, hkind, hname⟩ := mem_candidates.mp hr
    exact ⟨r, hmem, hkind, hname, hdeclare⟩
  · rintro ⟨r, hmem, hkind, hname, hdeclare⟩
    exact ⟨r, mem_candidates.mpr ⟨hmem, hkind, hname⟩, hdeclare⟩

theorem name_of_declare {r s : Record} (h : declare r = some s) : s.name = r.name := by
  obtain ⟨t, -, rfl⟩ := Option.map_eq_some_iff.mp h
  rfl

-- ── Records that are told again ─────────────────────────────────────────────

/-- The same report on a symbol, except for its line and for a declaration that a pass
    has put into it. -/
structure Retold (r r' : Record) : Prop where
  name : r'.name = r.name
  kind : r'.kind = r.kind
  typeRef : r'.typeRef = r.typeRef
  signature : r'.signature = r.signature
  returnType : r'.returnType = r.returnType
  code : r'.code = r.code

/-- What a declaration is made of does not move with the lines. -/
theorem Retold.build {r r' : Record} (h : Retold r r') :
    Prototype.build r' = Prototype.build r := by
  rw [Prototype.build, Prototype.build, isTemplate, isTemplate, assemble, assemble, missingFields,
    missingFields, h.name, h.signature, h.returnType, h.code]

theorem Retold.declare_isSome {r r' : Record} (h : Retold r r') :
    (declare r').isSome = (declare r).isSome := by
  rw [declare, declare, h.build, Option.isSome_map, Option.isSome_map]

/-- The records told again, with more of declarations and of other symbols among them. -/
inductive Enlarged : List Record → List Record → Prop
  | nil : Enlarged [] []
  | keep {r r' : Record} {records more : List Record} (htold : Retold r r')
      (hrest : Enlarged records more) : Enlarged (r :: records) (r' :: more)
  | add {x : Record} {records more : List Record} (hkind : x.kind ≠ .function)
      (hrest : Enlarged records more) : Enlarged records (x :: more)

namespace Enlarged

variable {records more : List Record}

/-- Nothing that was told is lost. -/
theorem exists_retold (h : Enlarged records more) {r : Record} (hr : r ∈ records) :
    ∃ r' ∈ more, Retold r r' := by
  induction h with
  | nil => exact nomatch hr
  | keep htold _ ih =>
      rcases List.mem_cons.mp hr with rfl | hr
      · exact ⟨_, List.mem_cons_self .., htold⟩
      · obtain ⟨r', hr', h⟩ := ih hr
        exact ⟨r', List.mem_cons_of_mem _ hr', h⟩
  | add _ _ ih =>
      obtain ⟨r', hr', h⟩ := ih hr
      exact ⟨r', List.mem_cons_of_mem _ hr', h⟩

/-- A function that is defined was told of before. -/
theorem exists_told (h : Enlarged records more) {r' : Record} (hr' : r' ∈ more)
    (hkind : r'.kind = .function) : ∃ r ∈ records, Retold r r' := by
  induction h with
  | nil => exact nomatch hr'
  | keep htold _ ih =>
      rcases List.mem_cons.mp hr' with rfl | hr'
      · exact ⟨_, List.mem_cons_self .., htold⟩
      · obtain ⟨r, hr, h⟩ := ih hr'
        exact ⟨r, List.mem_cons_of_mem _ hr, h⟩
  | add hother _ ih =>
      rcases List.mem_cons.mp hr' with rfl | hr'
      · exact absurd hkind hother
      · exact ih hr'

/-- What was declared still is. -/
theorem declared (h : Enlarged records more) {name : Text} (hname : name ∈ declaredNames records) :
    name ∈ declaredNames more := by
  obtain ⟨r, hr, hkind, rfl⟩ := mem_declaredNames.mp hname
  obtain ⟨r', hr', htold⟩ := h.exists_retold hr
  exact mem_declaredNames.mpr ⟨r', hr', htold.kind.trans hkind, htold.name⟩

end Enlarged

theorem compose_nothing (b : Buffer) (correction : Bool) (offset : Int) :
    b.compose correction offset [] = .ok b := rfl

/-- **A SECOND PASS ADDS NOTHING.**  Records are told again, on whatever lines, and more
    records of declarations and of other symbols stand anywhere among them.  If each
    name for which the first pass made a declaration is declared now, the second pass
    makes none, and composing with what it made gives back the buffer as it is, which
    can still take its insertion. -/
theorem synthesize_enlarged {records more : List Record} (h : Enlarged records more)
    (hdeclared : ∀ s ∈ synthesize records, ∃ x ∈ more, x.kind = .prototype ∧ x.name = s.name) :
    synthesize more = [] ∧
      ∀ (b : Buffer) (correction : Bool) (offset : Int),
        b.compose correction offset (texts (synthesize more)) = .ok b := by
  have hnone : synthesize more = [] := by
    refine List.eq_nil_iff_forall_not_mem.mpr fun s' hs' => ?_
    obtain ⟨r', hr', hkind, hname, hs'⟩ := mem_synthesize.mp hs'
    obtain ⟨r, hr, htold⟩ := h.exists_told hr' hkind
    by_cases hbefore : r.name ∈ declaredNames records
    · exact hname (htold.name ▸ h.declared hbefore)
    · -- the first pass made a declaration if the second can
      obtain ⟨s, hs⟩ := Option.isSome_iff_exists.mp
        (htold.declare_isSome.symm.trans (by rw [hs']; rfl))
      obtain ⟨x, hx, hprototype, hsame⟩ :=
        hdeclared s (mem_synthesize.mpr ⟨r, hr, htold.kind ▸ hkind, hbefore, hs⟩)
      refine hname (mem_declaredNames.mpr ⟨x, hx, hprototype, ?_⟩)
      rw [hsame, name_of_declare hs, htold.name]
  exact ⟨hnone, fun b correction offset => by rw [hnone]; exact compose_nothing b correction offset⟩

/-- An overloaded function, a template and a function without a signature: the first pass
    makes three declarations.  With one for each of the two names put in front, and the
    rest moved down, the second makes none. -/
theorem synthesize_enlarged_overloaded :
    let f (line : Int) (signature : String) : Record :=
      { name := "f", kind := .function, line, signature := Text.ofString signature,
        returnType := Text.ofString "int" }
    let t (line : Int) : Record :=
      { name := "t", kind := .function, line, code := Text.ofString "template <class T> T t()" }
    let g : Record := { name := "g", kind := .function, returnType := Text.ofString "void" }
    let declared (name : String) : Record := { name, kind := .prototype, line := some 1 }
    let records := [f 9 "(int a)", t 2, g, f 4 "()"]
    let more := [declared "f", declared "t", f 11 "(int a)", t 4, { name := "x" }, g, f 6 "()"]
    (synthesize records).length = 3 ∧ synthesize more = [] := by
  intro f t g declared records more
  have htold : Enlarged records more :=
    .add (by decide) (.add (by decide) (.keep ⟨rfl, rfl, rfl, rfl, rfl, rfl⟩
      (.keep ⟨rfl, rfl, rfl, rfl, rfl, rfl⟩ (.add (by decide)
        (.keep ⟨rfl, rfl, rfl, rfl, rfl, rfl⟩ (.keep ⟨rfl, rfl, rfl, rfl, rfl, rfl⟩ .nil))))))
  exact ⟨by decide +kernel, (synthesize_enlarged htold (by decide +kernel)).1⟩

end SketchMerge.Prototype
