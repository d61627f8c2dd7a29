import Mathlib.Data.List.Induction
import SketchMerge.Proofs.Files.Resolving
import SketchMerge.Proofs.Text.Splitting

/-! # Folders that stand

    In a sound tree every entry has a name that the system can hold, and stands in a
    folder.  Below a folder of such a tree there are no links on the way, so the
    path from the root leads to the folder, and the path of a child leads to the
    child, unless it is TOO LONG.  Length is the only thing that can go wrong. -/

namespace SketchMerge

-- ── Names and written paths ─────────────────────────────────────────────────

namespace Tree

/-- The name is one part of a path. -/
structure Plain (name : Text) : Prop extends Named name where
  noSlash : Path.slash ∉ name

/-- The name is one that the system can hold. -/
structure Valid (name : Text) : Prop extends Plain name where
  written : Files.barredText? name = none

end Tree

namespace FileName

/-- The ending is a dot and a text without dots and slashes. -/
structure Proper (ending : Text) : Prop where
  dotted : ∃ rest, ending = .char '.' :: rest ∧ rest ≠ [] ∧ .char '.' ∉ rest
  noSlash : Path.slash ∉ ending

variable {name e : Text}

/-- A name with a proper ending is one part of a path. -/
theorem Proper.plain (he : Proper e) (hname : Path.slash ∉ name) : Tree.Plain (name ++ e) := by
  obtain ⟨rest, rfl, hrest, hdot⟩ := he.dotted
  have hlength := List.length_pos_iff.mpr hrest
  refine ⟨⟨?_, ?_, ?_⟩, fun h => ?_⟩
  · exact List.append_ne_nil_of_right_ne_nil _ (List.cons_ne_nil _ _)
  · intro heq
    have := congrArg List.length heq
    rw [List.length_append, List.length_cons, show List.length Path.dot = 1 from rfl] at this
    omega
  · intro heq
    have hcount := congrArg List.length heq
    rw [List.length_append, List.length_cons, show List.length Path.dotDot = 2 from rfl] at hcount
    obtain rfl : name = [] := List.length_eq_zero_iff.mp (by omega)
    rw [List.nil_append] at heq
    rw [(List.cons.inj heq).2] at hdot
    exact hdot (by decide)
  · rcases List.mem_append.mp h with h | h
    · exact hname h
    · exact he.noSlash h

/-- A proper ending starts where it is put, unless it is the whole name. -/
theorem Proper.endingStart?_append (he : Proper e) (name : Text) :
    endingStart? (name ++ e) = if name = [] then none else some name.length := by
  obtain ⟨rest, rfl, hrest, hdot⟩ := he.dotted
  have hidx : (name ++ .char '.' :: rest).reverse.findIdx? (·.is '.') = some rest.length := by
    rw [List.reverse_append, List.reverse_cons, List.append_assoc, List.findIdx?_append,
      List.findIdx?_eq_none_iff.mpr (fun g hg => ?_)]
    · rw [List.singleton_append, List.findIdx?_cons, if_pos (by decide)]
      simp
    · exact beq_eq_false_iff_ne.mpr fun h => hdot (h ▸ List.mem_reverse.mp hg)
  have hlength := List.length_pos_iff.mpr hrest
  rw [endingStart?, hidx]
  dsimp only
  rw [List.length_append, List.length_cons]
  by_cases hname : name = []
  · rw [if_pos hname, if_neg]
    rw [hname, List.length_nil, Bool.and_eq_true, decide_eq_true_iff, decide_eq_true_iff]
    omega
  · have hname' := List.length_pos_iff.mpr hname
    rw [if_neg hname, if_pos]
    · congr 1
      omega
    · rw [Bool.and_eq_true, decide_eq_true_iff, decide_eq_true_iff]
      omega

/-- The ending of a name is the proper ending that it is given. -/
theorem Proper.ending_append (he : Proper e) (hname : name ≠ []) : ending (name ++ e) = e := by
  rw [ending, he.endingStart?_append, if_neg hname]
  exact List.drop_left

/-- A name that is nothing but an ending has none. -/
theorem Proper.ending_self (he : Proper e) : ending e = [] := by
  have hstart := he.endingStart?_append []
  rw [List.nil_append, if_pos rfl] at hstart
  rw [ending, hstart]

theorem Proper.ne_nil (he : Proper e) : e ≠ [] := by
  obtain ⟨rest, rfl, -⟩ := he.dotted
  exact List.cons_ne_nil _ _

/-- A name with an ending is the name of an entry. -/
theorem named_of_ending (h : ending name ≠ []) : Tree.Named name := by
  refine ⟨?_, ?_, ?_⟩
  · rintro rfl
    exact h rfl
  · rintro rfl
    exact h (by decide)
  · rintro rfl
    exact h (by decide)

end FileName

namespace Path

open SketchMerge.Tree

theorem absolute_text (l : Location) :
    (absolute l).text = slash :: Text.joinWith [slash] l := by
  rw [text, if_neg (by exact fun h => nomatch h)]
  rfl

theorem splitParts_joinWith {l : Location} (hl : ∀ name ∈ l, Plain name) :
    splitParts (slash :: Text.joinWith [slash] l) = l := by
  have hcut : ∀ name ∈ l, ∀ g ∈ name, (g == slash) = false :=
    fun name hname g hg => beq_eq_false_iff_ne.mpr fun h => (hl name hname).noSlash (h ▸ hg)
  have hkept : l.filter (fun p => !p.isEmpty && p != dot) = l := by
    refine List.filter_eq_self.mpr fun name hname => ?_
    have h := hl name hname
    rw [Bool.and_eq_true, Bool.not_eq_true', List.isEmpty_eq_false_iff, bne_iff_ne]
    exact ⟨h.notEmpty, h.notDot⟩
  rw [splitParts, Text.splitAtEach_cons_cut (p := (· == slash)) (beq_self_eq_true _)]
  cases l with
  | nil => rfl
  | cons first rest =>
      rw [Text.splitAtEach_joinWith (p := (· == slash)) (beq_self_eq_true _) first rest hcut,
        List.filter_cons_of_neg (by decide), hkept]

theorem anchorOf_absolute {l : Location} (hl : ∀ name ∈ l, Plain name) :
    anchorOf (slash :: Text.joinWith [slash] l) = .root := by
  cases l with
  | nil => rfl
  | cons first rest =>
      have hfirst := hl first (List.mem_cons_self ..)
      obtain ⟨g, name, rfl⟩ := List.exists_cons_of_ne_nil hfirst.notEmpty
      have hg : (g == slash) = false :=
        beq_eq_false_iff_ne.mpr fun h => hfirst.noSlash (h ▸ List.mem_cons_self ..)
      obtain ⟨tail, htail⟩ : ∃ tail, Text.joinWith [slash] ((g :: name) :: rest) = g :: tail := by
        cases rest with
        | nil => exact ⟨name, Text.joinWith_singleton ..⟩
        | cons second rest => exact ⟨_, Text.joinWith_cons_cons ..⟩
      rw [htail, anchorOf, if_pos (beq_self_eq_true _), hg, Bool.false_and,
        if_neg Bool.false_ne_true]

/-- The written path from the root is read as that path. -/
theorem ofText_absolute {l : Location} (hl : ∀ name ∈ l, Plain name) :
    ofText (absolute l).text = absolute l := by
  rw [absolute_text, ofText, anchorOf_absolute hl, splitParts_joinWith hl, absolute]

/-- One name is read as the path of an entry. -/
theorem ofText_plain {name : Text} (h : Plain name) : ofText name = ⟨.here, [name]⟩ := by
  have hcut : ∀ g ∈ name, (g == slash) = false :=
    fun g hg => beq_eq_false_iff_ne.mpr fun heq => h.noSlash (heq ▸ hg)
  have hparts : splitParts name = [name] := by
    rw [splitParts, Text.splitAtEach_of_free (p := (· == slash)) hcut,
      List.filter_cons_of_pos, List.filter_nil]
    rw [Bool.and_eq_true, Bool.not_eq_true', List.isEmpty_eq_false_iff, bne_iff_ne]
    exact ⟨h.notEmpty, h.notDot⟩
  have hanchor : anchorOf name = .here := by
    obtain ⟨g, rest, rfl⟩ := List.exists_cons_of_ne_nil h.notEmpty
    have hg := hcut g (List.mem_cons_self ..)
    cases rest with
    | nil => rw [anchorOf, hg, if_neg Bool.false_ne_true]
    | cons g' rest => rw [anchorOf, hg, if_neg Bool.false_ne_true]
  rw [ofText, hanchor, hparts]

/-- The path of a child. -/
theorem child_plain (folder : Path) {name : Text} (h : Plain name) :
    folder.child name = ⟨folder.anchor, folder.parts ++ [name]⟩ := by
  rw [child, ofText_plain h, join, if_neg (by exact fun h => nomatch h)]

theorem name_child (folder : Path) {name : Text} (h : Plain name) :
    (folder.child name).name = name := by
  rw [child_plain folder h, Path.name, List.getLast?_concat, Option.getD_some]

theorem parent_child (folder : Path) {name : Text} (h : Plain name) :
    (folder.child name).parent = folder := by
  rw [child_plain folder h, parent, List.dropLast_concat]

theorem child_absolute (l : Location) {name : Text} (h : Plain name) :
    (absolute l).child name = absolute (l ++ [name]) :=
  child_plain (absolute l) h

theorem name_absolute (l : Location) (name : Text) : (absolute (l ++ [name])).name = name := by
  rw [Path.name, absolute, List.getLast?_concat, Option.getD_some]

end Path

namespace Files

/-- A text can be handed to the system just when all its glyphs can. -/
theorem barredText?_eq_none {t : Text} :
    barredText? t = none ↔ ∀ g ∈ t, Utf8.isUnwritable g = false ∧ g ≠ .char '\x00' := by
  have hwritable : (Utf8.unwritable? t).isSome = false ↔ ∀ g ∈ t, Utf8.isUnwritable g = false := by
    rw [Utf8.unwritable?, Option.isSome_map, List.findIdx?_isSome, List.any_eq_false]
    exact forall₂_congr fun g _ => by rw [Bool.not_eq_true]
  have hzero : t.contains (.char '\x00') = false ↔ ∀ g ∈ t, g ≠ .char '\x00' := by
    rw [← Bool.not_eq_true, List.contains_iff_mem]
    exact ⟨fun h g hg heq => h (heq ▸ hg), fun h hmem => h _ hmem rfl⟩
  rw [forall₂_and, ← hwritable, ← hzero, barredText?]
  cases (Utf8.unwritable? t).isSome with
  | true => exact ⟨(nomatch ·), fun h => nomatch h.1⟩
  | false =>
      cases t.contains (.char '\x00') with
      | true => exact ⟨(nomatch ·), fun h => nomatch h.2⟩
      | false => exact ⟨fun _ => ⟨rfl, rfl⟩, fun _ => rfl⟩

/-- The written path of names that can be held can be handed to the system. -/
theorem barredText?_absolute {l : Location} (hl : ∀ name ∈ l, Tree.Valid name) :
    barredText? (Path.absolute l).text = none := by
  have hslash : Utf8.isUnwritable Path.slash = false ∧ Path.slash ≠ .char '\x00' := by decide
  rw [Path.absolute_text, barredText?_eq_none]
  intro g hg
  rcases List.mem_cons.mp hg with rfl | hg
  · exact hslash
  · rcases Text.mem_joinWith hg with hg | ⟨name, hname, hg⟩
    · rw [List.mem_singleton.mp hg]
      exact hslash
    · exact barredText?_eq_none.mp (hl name hname).written g hg

end Files

-- ── Sound trees ─────────────────────────────────────────────────────────────

namespace Tree

/-- Every entry has a name that can be held, and stands in a folder. -/
structure Sound (t : Tree) : Prop where
  valid : ∀ (l : Location) (name : Text), (t.get? (l ++ [name])).isSome → Valid name
  around : ∀ (l : Location) (name : Text), (t.get? (l ++ [name])).isSome → t.get? l = some .folder

/-- There is a folder at the location, in folders all the way. -/
structure Standing (t : Tree) (l : Location) : Prop where
  folders : ∀ k, k <+: l → t.get? k = some .folder
  valid : ∀ name ∈ l, Valid name

/-- The folders of a sound tree stand. -/
theorem Sound.standing {t : Tree} (ht : t.Sound) {l : Location} (hl : t.get? l = some .folder) :
    t.Standing l := by
  induction l using List.reverseRecOn with
  | nil =>
      refine ⟨fun k hk => ?_, fun _ h => nomatch h⟩
      rw [List.prefix_nil.mp hk, get?_nil]
  | append_singleton init name ih =>
      have hsome : (t.get? (init ++ [name])).isSome := by rw [hl]; rfl
      have hinit := ih (ht.around init name hsome)
      constructor
      · intro k hk
        rcases List.prefix_concat_iff.mp hk with rfl | hk
        · exact hl
        · exact hinit.folders k hk
      · intro x hx
        rcases List.mem_append.mp hx with hx | hx
        · exact hinit.valid x hx
        · rw [List.mem_singleton.mp hx]
          exact ht.valid init name hsome

/-- The name of a standing folder has no slashes. -/
theorem Standing.slash_notMem {t : Tree} {l : Location} (h : t.Standing l) :
    Path.slash ∉ (Path.absolute l).name := by
  show Path.slash ∉ l.getLast?.getD []
  cases hlast : l.getLast? with
  | none => exact List.not_mem_nil
  | some name => exact (h.valid name (List.mem_of_getLast? hlast)).noSlash

/-- A folder stands as long as no folder is touched. -/
theorem Standing.keep {t t' : Tree} {l : Location} (h : t.Standing l)
    (hkeep : ∀ k, t.get? k = some .folder → t'.get? k = some .folder) : t'.Standing l :=
  ⟨fun k hk => hkeep k (h.folders k hk), h.valid⟩

variable {t : Tree} {purpose : Purpose}
  {enter : Location → List Text → Except Files.Cause Location}

/-- Going down through standing folders goes on from there, unless a name is too long. -/
theorem walkWith_standing {l m : Location} (h : t.Standing (l ++ m)) {rest : List Text}
    (hrest : rest ≠ [[]]) :
    t.walkWith purpose enter l (m ++ rest) =
      if m.any nameTooLong then .error .tooLong else t.walkWith purpose enter (l ++ m) rest := by
  induction m generalizing l with
  | nil => rw [List.append_nil, List.any_nil, if_neg Bool.false_ne_true, List.nil_append]
  | cons name m ih =>
      have hname : Named name :=
        (h.valid name (List.mem_append_right _ (List.mem_cons_self ..))).toNamed
      have hget : t.get? (l ++ [name]) = some .folder :=
        h.folders _ ⟨m, by rw [List.append_assoc]; rfl⟩
      have hnext : t.Standing ((l ++ [name]) ++ m) := by
        rw [List.append_assoc]
        exact h
      -- an empty name behind this one would have to be the rest, or the name of a folder
      have hwrite : ¬ (purpose == .write && m ++ rest == [[]]) = true := by
        intro hboth
        have heq := beq_iff_eq.mp (Bool.and_eq_true _ _ ▸ hboth).2
        cases m with
        | nil => exact hrest heq
        | cons next m =>
            have hnext := h.valid next
              (List.mem_append_right _ (List.mem_cons_of_mem _ (List.mem_cons_self ..)))
            exact hnext.notEmpty (List.cons.inj heq).1
      rw [List.cons_append, walkWith_named hname, if_neg hwrite, List.any_cons]
      cases hlong : nameTooLong name with
      | true => rw [Bool.true_or, if_pos rfl, if_pos rfl]
      | false =>
          rw [if_neg Bool.false_ne_true, hget]
          dsimp only
          rw [ih hnext, Bool.false_or, List.append_assoc]
          rfl

/-- The walk to a child of a standing folder, if the child is no link. -/
theorem walkWith_child {l : Location} (h : t.Standing l) {name : Text} (hname : Named name)
    (hlink : ∀ target, t.get? (l ++ [name]) ≠ some (.link target)) :
    t.walkWith purpose enter [] (l ++ [name]) =
      if (l ++ [name]).any nameTooLong then .error .tooLong else .ok (l ++ [name]) := by
  have hrest : [name] ≠ [[]] := fun heq => hname.notEmpty (List.cons.inj heq).1
  have hstep : t.walkWith purpose enter l [name] =
      if nameTooLong name then .error .tooLong else .ok (l ++ [name]) := by
    rw [walkWith_named hname, if_neg (by rw [Bool.and_eq_true]; exact fun h => nomatch h.2)]
    by_cases hlong : nameTooLong name = true
    · rw [if_pos hlong, if_pos hlong]
    rw [if_neg hlong, if_neg hlong]
    cases hget : t.get? (l ++ [name]) with
    | none => rfl
    | some e =>
        cases e with
        | folder => rfl
        | file content => rfl
        | link target => exact absurd hget (hlink target)
  rw [walkWith_standing (l := []) (by exact h) hrest, List.nil_append, hstep, List.any_append,
    List.any_cons, List.any_nil, Bool.or_false]
  cases l.any nameTooLong with
  | true => rw [Bool.true_or, if_pos rfl, if_pos rfl]
  | false => rw [Bool.false_or, if_neg Bool.false_ne_true]

/-- A walk from the root is one with links at hand. -/
theorem walk_eq_walkWith (t : Tree) (purpose : Purpose) (links : Nat) :
    ∃ enter, t.walk purpose links = t.walkWith purpose enter := by
  cases links with
  | zero => exact ⟨_, rfl⟩
  | succ links => exact ⟨_, rfl⟩

end Tree

end SketchMerge
