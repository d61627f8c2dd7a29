import Mathlib.Data.List.Forall2
import SketchMerge.Proofs.Prototype.SecondPass
import SketchMerge.Proofs.Sketch.Unified
import SketchMerge.Proofs.Tag.RoundTrip

/-! # What a pass selects

    A pass looks at all the records before it makes a declaration: a function that
    is declared anywhere, before or behind its definition, gets none.  Each of the
    other functions is either answered with a declaration, put into its own record,
    or refused with a warning that says where it is.  NOTHING IS LOST and nothing is
    invented on the way (`synthesize_selects`). -/

namespace SketchMerge.Prototype

open Tag (Record Kind)

-- ── What each record gets ───────────────────────────────────────────────────

/-- The record is of a function that is defined and nowhere declared. -/
def Undeclared (records : List Record) (r : Record) : Prop :=
  r.kind = .function ∧ ∀ d ∈ records, d.kind = .prototype → d.name ≠ r.name

/-- The function gets a declaration. -/
def Answered (records : List Record) (r : Record) : Prop :=
  Undeclared records r ∧ (build r).isOk = true

/-- The function calls for a declaration that cannot be made. -/
def Refused (records : List Record) (r : Record) : Prop :=
  Undeclared records r ∧ (build r).isOk = false

instance (records : List Record) (r : Record) : Decidable (Undeclared records r) :=
  inferInstanceAs (Decidable (_ ∧ ∀ d ∈ records, _ → _))

instance (records : List Record) (r : Record) : Decidable (Answered records r) :=
  inferInstanceAs (Decidable (_ ∧ _))

instance (records : List Record) (r : Record) : Decidable (Refused records r) :=
  inferInstanceAs (Decidable (_ ∧ _))

/-- `Declares r s`: the record `s` is `r` with its declaration, without default values. -/
def Declares (r s : Record) : Prop :=
  ∃ t, build r = .ok t ∧ s = { r with prototype := some (Parameters.stripDefaults t) }

/-- `Located buffer r place`: how a note says where a record is. -/
inductive Located (buffer : Option Buffer) (r : Record) : Text → Prop
  /-- By the file that its line comes from, and the line in it. -/
  | origin {b : Buffer} {line inFile : Int} {file : Text} (hbuffer : buffer = some b)
      (hline : r.line = some line) (horigin : b.origin line = some (file, inFile)) :
      Located buffer r (file ++ ":" ++ Text.ofInt inFile)
  /-- By its line in the unified text, if that comes from no file. -/
  | unified {line : Int} (hline : r.line = some line)
      (hnone : ∀ b, buffer = some b → b.origin line = none) :
      Located buffer r ("unified line " ++ Text.ofInt line)
  | unknown (hline : r.line = none) : Located buffer r "unknown line"

/-- `Warns buffer r n`: the note warns that the record lacks something, and says where it
    is. -/
structure Warns (buffer : Option Buffer) (r : Record) (n : Note) : Prop where
  level : n.level = .warning
  part : n.part = "prototypes"
  message : ∃ place skip, Located buffer r place ∧ build r = .error skip ∧
    n.message = "Skipping prototype at " ++ place ++ ": " ++ skip.message

theorem located_place (buffer : Option Buffer) (r : Record) :
    Located buffer r (place buffer r) := by
  rw [place]
  split
  · rename_i hline
    exact .unknown hline
  · rename_i line hline
    split
    · rename_i file inFile horigin
      obtain ⟨b, hbuffer, horigin⟩ := Option.bind_eq_some_iff.mp horigin
      exact .origin hbuffer hline horigin
    · rename_i hnone
      refine .unified hline ?_
      rintro b rfl
      exact hnone

/-- The numbers that say where a record is can be written, if it was read from a tag line and
    the text is unified. -/
theorem writeInt_located {lines : List Text} {r : Record} (hr : r ∈ Tag.readLines lines)
    {line : Int} (hline : r.line = some line) (markers : Bool) (sources : List Source) :
    Numeral.writeInt line = .ok (Text.ofInt line) ∧
      ∀ file inFile, (Buffer.unify markers sources).origin line = some (file, inFile) →
        Numeral.writeInt inFile = .ok (Text.ofInt inFile) := by
  have hlt := Tag.natAbs_line_lt hr hline
  refine ⟨Numeral.writeInt_of_lt hlt, fun file inFile horigin => ?_⟩
  obtain ⟨hpos, hle⟩ := Buffer.origin_le horigin
  exact Numeral.writeInt_of_lt (Nat.lt_of_le_of_lt (by omega) hlt)

-- ── One record after the other ──────────────────────────────────────────────

section

variable {declared : List Text} {records : List Record} {r : Record}

/-- Among the records themselves, those that call for a declaration are those of functions
    that are nowhere declared. -/
theorem callsFor_iff (hr : r ∈ records) :
    callsFor (declaredNames records) r = true ↔ Undeclared records r := by
  have hcandidate : r ∈ candidates records ↔ callsFor (declaredNames records) r = true := by
    rw [candidates, List.mem_filter, and_iff_right hr]
  rw [← hcandidate, mem_candidates, and_iff_right hr, Undeclared, mem_declaredNames]
  simp only [not_exists, not_and]

theorem declare_of_ok {t : Text} (h : build r = .ok t) :
    declare r = some { r with prototype := some (Parameters.stripDefaults t) } := by
  rw [declare, h]
  rfl

theorem declare_of_error {skip : Skip} (h : build r = .error skip) : declare r = none := by
  rw [declare, h]
  rfl

/-- The record gets a declaration in a pass, given the names that are declared. -/
def answers (declared : List Text) (r : Record) : Bool :=
  callsFor declared r && (build r).isOk

/-- The record gets a warning. -/
def refuses (declared : List Text) (r : Record) : Bool :=
  callsFor declared r && !(build r).isOk

/-- **ONE RECORD**: its declaration is put into it, or it stays as it is. -/
theorem pass_cons (declared : List Text) (r : Record) (rest : List Record) :
    (answers declared r = true ∧ ∃ s, Declares r s ∧
        pass declared (r :: rest)
          = ⟨s :: (pass declared rest).records, s :: (pass declared rest).made⟩) ∨
      (¬ answers declared r = true ∧
        pass declared (r :: rest)
          = ⟨r :: (pass declared rest).records, (pass declared rest).made⟩) := by
  rw [pass, answers]
  cases hcalls : callsFor declared r with
  | false => exact .inr ⟨Bool.false_ne_true, rfl⟩
  | true =>
      cases hbuild : build r with
      | error skip =>
          rw [if_pos rfl, declare_of_error hbuild]
          exact .inr ⟨Bool.false_ne_true, rfl⟩
      | ok t =>
          rw [if_pos rfl, declare_of_ok hbuild]
          exact .inl ⟨rfl, _, ⟨t, hbuild, rfl⟩, rfl⟩

/-- **THE RECORDS AFTERWARDS**: each has its declaration or is as it was. -/
theorem records_pass (declared : List Text) (records : List Record) :
    List.Forall₂ (fun r s => if answers declared r then Declares r s else s = r)
      records (pass declared records).records := by
  induction records with
  | nil => exact .nil
  | cons r rest ih =>
      rcases pass_cons declared r rest with ⟨hanswered, s, hs, hpass⟩ | ⟨hleft, hpass⟩
      · rw [hpass]
        exact .cons (by rwa [if_pos hanswered]) ih
      · rw [hpass]
        exact .cons (by rw [if_neg hleft]) ih

/-- **THE RECORDS THAT GOT A DECLARATION**, one for each that is answered. -/
theorem declares_made (declared : List Text) (records : List Record) :
    List.Forall₂ Declares (records.filter (answers declared)) (pass declared records).made := by
  induction records with
  | nil => exact .nil
  | cons r rest ih =>
      rcases pass_cons declared r rest with ⟨hanswered, s, hs, hpass⟩ | ⟨hleft, hpass⟩
      · rw [hpass, List.filter_cons_of_pos hanswered]
        exact .cons hs ih
      · rw [hpass, List.filter_cons_of_neg hleft]
        exact ih

theorem made_sublist (declared : List Text) (records : List Record) :
    (pass declared records).made.Sublist (pass declared records).records := by
  induction records with
  | nil => exact .slnil
  | cons r rest ih =>
      rcases pass_cons declared r rest with ⟨-, s, -, hpass⟩ | ⟨-, hpass⟩
      · rw [hpass]
        exact ih.cons_cons s
      · rw [hpass]
        exact ih.cons r

/-- **ONE WARNING FOR EACH RECORD THAT IS REFUSED.** -/
theorem warns_refused (buffer : Option Buffer) (declared : List Text) (records : List Record) :
    List.Forall₂ (Warns buffer) (records.filter (refuses declared))
      ((records.filter (callsFor declared)).filterMap (warning? buffer)) := by
  induction records with
  | nil => exact .nil
  | cons r rest ih =>
      by_cases hcalls : callsFor declared r = true
      · rw [List.filter_cons_of_pos hcalls]
        cases hbuild : build r with
        | ok t =>
            have hrefused : ¬ refuses declared r = true := by
              simp [refuses, hbuild, Except.isOk, Except.toBool]
            have hnone : warning? buffer r = none := by rw [warning?, hbuild]
            rw [List.filter_cons_of_neg hrefused, List.filterMap_cons_none hnone]
            exact ih
        | error skip =>
            have hrefused : refuses declared r = true := by
              simp [refuses, hcalls, hbuild, Except.isOk, Except.toBool]
            have hsome : warning? buffer r = some (Note.warning "prototypes"
                ("Skipping prototype at " ++ place buffer r ++ ": " ++ skip.message)) := by
              rw [warning?, hbuild]
            rw [List.filter_cons_of_pos hrefused, List.filterMap_cons_some hsome]
            exact .cons ⟨rfl, rfl, _, skip, located_place buffer r, hbuild, rfl⟩ ih
      · have hrefused : ¬ refuses declared r = true := by simp [refuses, hcalls]
        rw [List.filter_cons_of_neg hcalls, List.filter_cons_of_neg hrefused]
        exact ih

/-- The warnings among the notes of a pass. -/
theorem warnings_notes (buffer : Option Buffer) (records : List Record) :
    (synthesizeNotes buffer records).filter (·.level == .warning)
      = (candidates records).filterMap (warning? buffer) := by
  have hwarning : ∀ n ∈ (candidates records).filterMap (warning? buffer),
      (n.level == .warning) = true := by
    intro n hn
    obtain ⟨r, -, hr⟩ := List.mem_filterMap.mp hn
    rw [warning?] at hr
    split at hr
    · exact absurd hr (by simp)
    · rw [← Option.some.inj hr]
      rfl
  rw [synthesizeNotes, List.filter_append, List.filter_eq_self.mpr hwarning]
  exact List.append_nil _

theorem answers_iff (hr : r ∈ records) :
    answers (declaredNames records) r = true ↔ Answered records r := by
  rw [answers, Bool.and_eq_true, callsFor_iff hr]
  rfl

theorem refuses_iff (hr : r ∈ records) :
    refuses (declaredNames records) r = true ↔ Refused records r := by
  rw [refuses, Bool.and_eq_true, callsFor_iff hr, Bool.not_eq_true']
  rfl

end

/-- **SYNTHESIS LOSES AND INVENTS NOTHING.**  Of the records of functions that are nowhere
    declared, each for which a declaration can be made gets it, with the default values
    stripped and no other field changed, and the result is these records, stably sorted
    by line.  Each of the others gives one warning, in the order of the records, that
    says where it is.  All records that are not in the result are as they were. -/
theorem synthesize_selects (buffer : Option Buffer) (records : List Record) :
    let after := pass (declaredNames records) records
    (List.Forall₂ Declares (records.filter (Answered records ·)) after.made ∧
        StablySorted sortLine after.made (synthesize records)) ∧
      (∀ s ∈ synthesize records, s.kind = .function) ∧
      List.Forall₂ (Warns buffer) (records.filter (Refused records ·))
        ((synthesizeNotes buffer records).filter (·.level == .warning)) ∧
      after.made.Sublist after.records ∧
      List.Forall₂ (fun r s => if Answered records r then Declares r s else s = r)
        records after.records := by
  intro after
  have hanswered : records.filter (answers (declaredNames records))
      = records.filter (Answered records ·) :=
    List.filter_congr fun r hr => Bool.eq_iff_iff.mpr (by simp [answers_iff hr])
  have hrefused : records.filter (refuses (declaredNames records))
      = records.filter (Refused records ·) :=
    List.filter_congr fun r hr => Bool.eq_iff_iff.mpr (by simp [refuses_iff hr])
  refine ⟨⟨?_, sortBy_stable sortLine after.made⟩, ?_, ?_, made_sublist _ records, ?_⟩
  · rw [← hanswered]
    exact declares_made _ records
  · intro s hs
    obtain ⟨r, -, hkind, -, hdeclare⟩ := mem_synthesize.mp hs
    obtain ⟨t, -, rfl⟩ := Option.map_eq_some_iff.mp hdeclare
    exact hkind
  · rw [← hrefused, warnings_notes]
    exact warns_refused buffer _ records
  · have hmem : ∀ r ∈ records, r ∈ records := fun _ => id
    refine ((List.forall₂_and_left _ _).mpr ⟨hmem, records_pass _ records⟩).imp ?_
    rintro r s ⟨hr, hs⟩
    simpa [answers_iff hr] using hs

end SketchMerge.Prototype
