import SketchMerge.Proofs.Prototype.SecondPass
import SketchMerge.Tag.Line

/-! # The order of the tag lines

    A tag tool may report the symbols of a file in any order.  Lines are read one by
    one, and a record is looked at together with the SET of the declared names, so the
    order in which the lines come is seen in one place only: records with the same line
    number stay in it when they are sorted (`synthesize_order`). -/

namespace SketchMerge.Tag

theorem readLines_perm {lines lines' : List Text} (h : lines.Perm lines') :
    (readLines lines).Perm (readLines lines') :=
  (h.filter _).filterMap _

end SketchMerge.Tag

namespace SketchMerge.Prototype

open Tag (Record Kind readLines)

section

variable {records records' : List Record}

theorem declaredNames_perm (h : records.Perm records') :
    (declaredNames records).Perm (declaredNames records') :=
  (h.filter _).map _

/-- A declaration in front of a definition counts as much as one behind it. -/
theorem candidates_perm (h : records.Perm records') :
    (candidates records).Perm (candidates records') := by
  have hcalls : callsFor (declaredNames records) = callsFor (declaredNames records') := by
    funext r
    rw [callsFor, callsFor, (declaredNames_perm h).contains_eq]
  rw [candidates, candidates, hcalls]
  exact h.filter _

theorem made_perm (h : records.Perm records') :
    (pass (declaredNames records) records).made.Perm
      (pass (declaredNames records') records').made := by
  rw [made_pass, made_pass]
  exact (candidates_perm h).filterMap declare

end

/-- **THE ORDER OF THE TAG LINES DOES NOT MATTER BEYOND TIES.**  Of the same lines in two
    orders the same records get declarations, and the sequence of their line numbers is
    the same.  If no two of them have the same line number, the results are the same,
    and so is every text that is composed with them. -/
theorem synthesize_order {lines lines' : List Text} (h : lines.Perm lines') :
    let made := synthesize (readLines lines)
    let made' := synthesize (readLines lines')
    made.Perm made' ∧ made.map sortLine = made'.map sortLine ∧
      (made.Pairwise (fun a b => sortLine a ≠ sortLine b) → made = made' ∧
        ∀ (b : Buffer) (correction : Bool) (offset : Int),
          b.compose correction offset (texts made)
            = b.compose correction offset (texts made')) := by
  intro made made'
  have hmade := made_perm (Tag.readLines_perm h)
  have hsorted (records : List Record) : StablySorted sortLine
      (pass (declaredNames records) records).made (synthesize records) :=
    sortBy_stable sortLine _
  refine ⟨(hsorted _).perm_of_perm (hsorted _) hmade,
    (hsorted _).map_key_eq_of_perm (hsorted _) hmade, fun hlines => ?_⟩
  have hsame : made = made' := (hsorted _).eq_of_perm (hsorted _) hmade hlines
  exact ⟨hsame, fun b correction offset => by rw [hsame]⟩

/-- Two functions, one of them without a line number, one that is declared behind its
    definition, a nameless line and a blank one, and the same lines the other way round. -/
theorem synthesize_order_reversed :
    let lines : List Text :=
      ["g\tp.ino\tkind:function\tline:9\tsignature:(int a=1)\treturntype:int",
        "h\tp.ino\tkind:function\tline:5\tsignature:()\treturntype:void", " \tkind:function", "",
        "f\tp.ino\tkind:function\tsignature:()\treturntype:void", "h\tp.ino\tkind:prototype"]
    lines.Perm lines.reverse ∧
      synthesize (readLines lines) = synthesize (readLines lines.reverse) ∧
      texts (synthesize (readLines lines))
        = [Text.ofString "void f();", Text.ofString "int g(int a);"] := by
  intro lines
  have hperm : lines.Perm lines.reverse := (List.reverse_perm lines).symm
  have hlines : (synthesize (readLines lines)).Pairwise fun a b => sortLine a ≠ sortLine b := by
    decide +kernel
  exact ⟨hperm, ((synthesize_order hperm).2.2 hlines).1, by decide +kernel⟩

end SketchMerge.Prototype
