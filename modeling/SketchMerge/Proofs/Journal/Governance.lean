import Mathlib.Data.List.Infix
import Mathlib.Data.List.TakeWhile
import SketchMerge.Journal.Voice
import SketchMerge.Proofs.Text.Splitting

/-! # Which voices the head voice governs

    The parent of a voice is looked for among its shortened names, and right after a cut
    the dot before it is passed over.  For a part whose name does not start with a dot
    this does no harm: the shortened names lead on to the head voice.  In a run of dots
    behind the head voice only every other dot is a cut, so that the search MAY STEP OVER
    THE HEAD VOICE.

    Whether it does is told by the number of dots at the front of the part's name, and
    by which names of dots only have been used before (`isGoverned_eq`).

    By the hierarchy of names the head voice governs EVERY PART, whatever its name
    (`governs_isBelow`).  The search keeps to that for the names that do not start with a
    dot, and for no others (`governs_isGoverned_iff`). -/

namespace SketchMerge.Voice

/-- So many dots. -/
def dots (k : Nat) : Text :=
  List.replicate k (.char '.')

/-- The head voice with dots behind it. -/
def dotted (k : Nat) : Text :=
  head ++ dots k

/-- The number of dots at the front of a name. -/
def leadingDots (part : Text) : Nat :=
  (part.takeWhile (·.is '.')).length

/-- The search for parents comes to the head voice from a name with `k` dots at its front,
    where `names` have been used.  A name of dots only is itself a parent, and has one dot
    less at its front than it needs for the head voice to be met. -/
def headReached (names : List Text) : Nat → Bool
  | 0 => true
  | 1 => false
  | k + 2 =>
    if names.contains (dots (k + 1)) then headReached names (k + 1) else headReached names k

-- ── Names and their dots ────────────────────────────────────────────────────

theorem length_dotted (k : Nat) : (dotted k).length = 8 + k := by
  rw [dotted, List.length_append, dots, List.length_replicate]
  rfl

theorem dotted_zero : dotted 0 = head :=
  List.append_nil head

theorem dotted_succ (k : Nat) : dotted (k + 1) = dotted k ++ [.char '.'] := by
  rw [dotted, dots, List.replicate_succ', ← List.append_assoc]
  rfl

theorem dotted_append_dots (j k : Nat) : dotted j ++ dots k = dotted (j + k) := by
  rw [dotted, dotted, List.append_assoc, dots, dots, dots, List.replicate_append_replicate]

/-- A voice is the head voice, a dot and the name of its part. -/
theorem ofPart_of_ne_nil {part : Text} (h : part ≠ []) : ofPart part = dotted 1 ++ part := by
  rw [ofPart, if_neg (fun hnil => h (List.isEmpty_iff.mp hnil))]
  rfl

theorem length_ofPart_of_ne_nil {part : Text} (h : part ≠ []) : 8 < (ofPart part).length := by
  rw [ofPart_of_ne_nil h, List.length_append, length_dotted]
  omega

theorem ofPart_injective {a b : Text} (h : ofPart a = ofPart b) : a = b := by
  have hhead : (ofPart []).length = 8 := rfl
  by_cases ha : a = []
  · by_cases hb : b = []
    · rw [ha, hb]
    · have hlonger := length_ofPart_of_ne_nil hb
      rw [← h, ha] at hlonger
      omega
  · by_cases hb : b = []
    · have hlonger := length_ofPart_of_ne_nil ha
      rw [h, hb] at hlonger
      omega
    · rw [ofPart_of_ne_nil ha, ofPart_of_ne_nil hb] at h
      exact List.append_cancel_left h

theorem ofPart_dots (k : Nat) : ofPart (dots (k + 1)) = dotted (k + 2) := by
  have hne : dots (k + 1) ≠ [] := List.cons_ne_nil _ _
  rw [ofPart_of_ne_nil hne, dotted_append_dots, Nat.add_comm]

/-- The dots at the front of a name, and the rest. -/
theorem dots_append_rest (part : Text) :
    dots (leadingDots part) ++ part.dropWhile (·.is '.') = part := by
  have hdots : dots (leadingDots part) = part.takeWhile (·.is '.') := by
    refine (List.eq_replicate_iff.mpr ⟨rfl, fun g hg => ?_⟩).symm
    have hdot := List.mem_takeWhile_imp hg
    exact beq_iff_eq.mp hdot
  rw [hdots, List.takeWhile_append_dropWhile]

theorem rest_head (part : Text) : ∀ g ∈ (part.dropWhile (·.is '.')).head?, g.is '.' = false := by
  intro g hg
  have hnot := List.head?_dropWhile_not (fun g : Glyph => g.is '.') part
  rw [hg] at hnot
  exact hnot

theorem ofPart_eq {part : Text} (h : part ≠ []) :
    ofPart part = dotted (leadingDots part + 1) ++ part.dropWhile (·.is '.') := by
  rw [Nat.add_comm, ← dotted_append_dots, List.append_assoc, dots_append_rest, ofPart_of_ne_nil h]

-- ── Cuts ────────────────────────────────────────────────────────────────────

theorem lastDot?_append (a : Text) {b : Text} (h : Glyph.char '.' ∉ b) :
    lastDot? (a ++ .char '.' :: b) = some a.length := by
  have hfree : b.reverse.findIdx? (·.is '.') = none := by
    rw [List.findIdx?_eq_none_iff]
    intro g hg
    exact beq_eq_false_iff_ne.mpr fun heq => h (heq ▸ List.mem_reverse.mp hg)
  have hfind : (a ++ .char '.' :: b).reverse.findIdx? (·.is '.') = some b.length := by
    rw [List.reverse_append, List.reverse_cons, List.append_assoc, List.findIdx?_append, hfree,
      Option.none_or, List.singleton_append, List.findIdx?_cons, if_pos (by decide),
      Option.map_some, Nat.zero_add, List.length_reverse]
  rw [lastDot?, hfind]
  dsimp only
  rw [List.length_append, List.length_cons]
  congr 1
  omega

theorem lastDot?_of_free {t : Text} (h : Glyph.char '.' ∉ t) : lastDot? t = none := by
  have hfind : t.reverse.findIdx? (·.is '.') = none := by
    rw [List.findIdx?_eq_none_iff]
    intro g hg
    exact beq_eq_false_iff_ne.mpr fun heq => h (heq ▸ List.mem_reverse.mp hg)
  rw [lastDot?, hfind]

/-- A cut in front of the last dot, and the dot before it passed over. -/
theorem cutsWithin_cut {name a b : Text} {n i : Nat} (htake : name.take n = a ++ .char '.' :: b)
    (hb : Glyph.char '.' ∉ b) (hi : a.length = i + 1) (fuel : Nat) :
    cutsWithin name (fuel + 1) n = a :: cutsWithin name fuel i := by
  have hcut : name.take (i + 1) = a := by
    have hprefix : a <+: name :=
      (List.prefix_append a (.char '.' :: b)).trans (htake ▸ List.take_prefix n name)
    rw [← hi]
    exact (List.prefix_iff_eq_take.mp hprefix).symm
  rw [cutsWithin, htake, lastDot?_append a hb, hi]
  dsimp only
  rw [hcut]

/-- Within the head voice there is no cut. -/
theorem cutsWithin_head {name : Text} (h : head <+: name) {n : Nat} (hn : n ≤ 8) (fuel : Nat) :
    cutsWithin name fuel n = [] := by
  cases fuel with
  | zero => rfl
  | succ fuel =>
      have hfree : Glyph.char '.' ∉ name.take n := by
        intro hdot
        have hin : name.take n <+: head := by
          rw [List.prefix_iff_eq_take.mp h]
          exact List.take_prefix_take_left hn
        exact absurd (hin.subset hdot) (by decide)
      rw [cutsWithin, lastDot?_of_free hfree]

/-- The cuts in a run of `k + 1` dots behind the head voice: every other one. -/
def runCuts : Nat → List Text
  | 0 => [head]
  | 1 => [dotted 1]
  | k + 2 => dotted (k + 2) :: runCuts k

/-- One cut in the run, at its last dot. -/
theorem cutsWithin_last {name : Text} {k : Nat} (h : dotted (k + 1) <+: name) (fuel : Nat) :
    cutsWithin name (fuel + 1) (9 + k) = dotted k :: cutsWithin name fuel (7 + k) := by
  have htake : name.take (9 + k) = dotted k ++ .char '.' :: [] := by
    rw [← dotted_succ, List.prefix_iff_eq_take.mp h, length_dotted]
    congr 1
    omega
  refine cutsWithin_cut htake List.not_mem_nil ?_ fuel
  rw [length_dotted]
  omega

theorem cutsWithin_run {name : Text} (k : Nat) :
    ∀ fuel, dotted (k + 1) <+: name → 9 + k ≤ fuel →
      cutsWithin name fuel (9 + k) = runCuts k := by
  induction k using runCuts.induct with
  | case1 =>
      intro fuel h hfuel
      obtain ⟨fuel, rfl⟩ := Nat.exists_eq_add_of_le' (show 1 ≤ fuel by omega)
      have hhead : head <+: name := (List.prefix_append head (dots 1)).trans h
      rw [cutsWithin_last h, cutsWithin_head hhead (by omega), dotted_zero, runCuts]
  | case2 =>
      intro fuel h hfuel
      obtain ⟨fuel, rfl⟩ := Nat.exists_eq_add_of_le' (show 1 ≤ fuel by omega)
      have hhead : head <+: name := (List.prefix_append head (dots 2)).trans h
      rw [cutsWithin_last h, cutsWithin_head hhead (by omega), runCuts]
  | case3 k ih =>
      intro fuel h hfuel
      obtain ⟨fuel, rfl⟩ := Nat.exists_eq_add_of_le' (show 1 ≤ fuel by omega)
      have hshorter : dotted (k + 1) <+: name := by
        refine List.IsPrefix.trans ?_ h
        rw [show k + 2 + 1 = k + 1 + 2 by omega, ← dotted_append_dots (k + 1) 2]
        exact List.prefix_append _ _
      rw [cutsWithin_last h, show 7 + (k + 2) = 9 + k by omega, ih fuel hshorter (by omega), runCuts]

/-- The cuts of a name behind the run of dots: first those that keep the run whole, then
    those in the run. -/
theorem cutsWithin_rest {k : Nat} {r : Text} (hr : ∀ g ∈ r.head?, g.is '.' = false) :
    ∀ fuel m, m ≤ r.length → 9 + k + m ≤ fuel →
      ∃ whole, cutsWithin (dotted (k + 1) ++ r) fuel (9 + k + m) = whole ++ runCuts k
        ∧ ∀ x ∈ whole, ∃ r', x = dotted (k + 1) ++ r' ∧ r'.length < r.length
          ∧ ∀ g ∈ r'.head?, g.is '.' = false := by
  intro fuel
  induction fuel with
  | zero =>
      intro m _ hfuel
      omega
  | succ fuel ih =>
      intro m hm hfuel
      have htake : (dotted (k + 1) ++ r).take (9 + k + m) = dotted (k + 1) ++ r.take m := by
        rw [show 9 + k + m = (dotted (k + 1)).length + m by rw [length_dotted]; omega,
          List.take_length_add_append]
      by_cases hdot : Glyph.char '.' ∈ r.take m
      · obtain ⟨a, b, hsplit, hb⟩ := exists_last_of_mem hdot
        have hprefix : a ++ .char '.' :: b <+: r := hsplit ▸ List.take_prefix m r
        have hlength := hprefix.length_le
        rw [List.length_append, List.length_cons] at hlength
        cases a with
        | nil =>
            -- the rest of the name would start with a dot
            obtain ⟨z, rfl⟩ := hprefix
            cases hr _ rfl
        | cons g a =>
            have hhead : ∀ x ∈ (g :: a).head?, x.is '.' = false := by
              intro x hx
              obtain ⟨z, rfl⟩ := hprefix
              exact hr x hx
            have hshort := congrArg List.length hsplit
            rw [List.length_take_of_le hm, List.length_append, List.length_cons] at hshort
            rw [List.length_cons] at hlength hshort
            obtain ⟨whole, hcuts, hwhole⟩ := ih a.length (by omega) (by omega)
            refine ⟨(dotted (k + 1) ++ g :: a) :: whole, ?_, ?_⟩
            · rw [hsplit, ← List.append_assoc] at htake
              rw [cutsWithin_cut htake hb (i := 9 + k + a.length) ?_ fuel, hcuts, List.cons_append]
              rw [List.length_append, length_dotted, List.length_cons]
              omega
            · intro x hx
              rcases List.mem_cons.mp hx with rfl | hx
              · refine ⟨g :: a, rfl, ?_, hhead⟩
                rw [List.length_cons]
                omega
              · exact hwhole x hx
      · -- the last dot is that of the run
        have hrun : dotted (k + 1) <+: dotted (k + 1) ++ r := List.prefix_append _ _
        have hlast : (dotted (k + 1) ++ r).take (9 + k + m) = dotted k ++ .char '.' :: r.take m := by
          refine htake.trans ?_
          rw [dotted_succ, List.append_assoc, List.singleton_append]
        have hlength : (dotted k).length = 7 + k + 1 := by
          rw [length_dotted]
          omega
        refine ⟨[], ?_, fun x hx => absurd hx List.not_mem_nil⟩
        rw [cutsWithin_cut hlast hdot hlength fuel, ← cutsWithin_last hrun fuel, List.nil_append,
          cutsWithin_run k _ hrun (by omega)]

-- ── Parents ─────────────────────────────────────────────────────────────────

section

variable {known names : List Text}

/-- The voices that are known are the head voice and those of the names. -/
def Voices (known names : List Text) : Prop :=
  ∀ v, v ∈ known ↔ v = head ∨ ∃ part ∈ names, v = ofPart part

theorem Voices.dotted_iff (h : Voices known names) (k : Nat) :
    dotted (k + 2) ∈ known ↔ dots (k + 1) ∈ names := by
  rw [h]
  constructor
  · rintro (hhead | ⟨part, hpart, heq⟩)
    · have hlength := congrArg List.length hhead
      rw [length_dotted, ← dotted_zero, length_dotted] at hlength
      omega
    · rw [← ofPart_dots] at heq
      exact ofPart_injective heq ▸ hpart
  · intro hdots
    exact .inr ⟨_, hdots, (ofPart_dots k).symm⟩

/-- No voice is the head voice with a dot and nothing behind it. -/
theorem Voices.dotted_one (h : Voices known names) : dotted 1 ∉ known := by
  rw [h]
  rintro (hhead | ⟨part, -, heq⟩)
  · exact absurd hhead (by decide)
  · by_cases hpart : part = []
    · rw [hpart] at heq
      exact absurd heq (by decide)
    · rw [ofPart_of_ne_nil hpart] at heq
      exact hpart (List.append_right_eq_self.mp heq.symm)

/-- What the parent in a run of dots decides, if all shorter voices are decided. -/
theorem any_find?_runCuts (h : Voices known names) {decided : Text → Bool}
    (hhead : decided head = true) :
    ∀ k, (∀ j, j < k → decided (dotted (j + 1)) = headReached names j) →
      ((runCuts k).find? known.contains).any decided = headReached names k := by
  intro k
  induction k using runCuts.induct with
  | case1 =>
      intro _
      have hknown : known.contains head = true := List.contains_iff_mem.mpr ((h head).mpr (.inl rfl))
      rw [runCuts, List.find?_cons_of_pos hknown, Option.any_some, hhead, headReached]
  | case2 =>
      intro _
      have hunknown : ¬ known.contains (dotted 1) = true :=
        fun hin => h.dotted_one (List.contains_iff_mem.mp hin)
      rw [runCuts, List.find?_cons_of_neg hunknown, List.find?_nil, Option.any_none, headReached]
  | case3 k ih =>
      intro hdecided
      rw [runCuts, headReached]
      by_cases hin : dotted (k + 2) ∈ known
      · have hnames := List.contains_iff_mem.mpr ((h.dotted_iff k).mp hin)
        rw [List.find?_cons_of_pos (List.contains_iff_mem.mpr hin), Option.any_some, if_pos hnames,
          hdecided (k + 1) (by omega)]
      · have hnames : ¬ names.contains (dots (k + 1)) = true :=
          fun hc => hin ((h.dotted_iff k).mpr (List.contains_iff_mem.mp hc))
        rw [List.find?_cons_of_neg (fun hc => hin (List.contains_iff_mem.mp hc)), if_neg hnames]
        exact ih fun j hj => hdecided j (by omega)

theorem isUnderHead_head (fuel : Nat) : isUnderHead known (fuel + 1) head = true := by
  rw [isUnderHead, beq_self_eq_true, Bool.true_or]

/-- A voice below the head voice is decided by its parent. -/
theorem isUnderHead_of_ne {name : Text} (h : name ≠ head) (fuel : Nat) :
    isUnderHead known (fuel + 1) name = (parent? known name).any (isUnderHead known fuel) := by
  rw [isUnderHead, beq_eq_false_iff_ne.mpr h, Bool.false_or]
  cases parent? known name with
  | none => rfl
  | some p => rfl

/-- The search for parents comes to the head voice, or not, as the dots say. -/
theorem isUnderHead_eq (h : Voices known names) :
    ∀ fuel k r, (∀ g ∈ r.head?, g.is '.' = false) → 9 + k + r.length < fuel →
      isUnderHead known fuel (dotted (k + 1) ++ r) = headReached names k := by
  intro fuel
  induction fuel with
  | zero =>
      intro k r _ hfuel
      omega
  | succ fuel ih =>
      intro k r hr hfuel
      have hlength : (dotted (k + 1) ++ r).length = 9 + k + r.length := by
        rw [List.length_append, length_dotted]
        omega
      have hne : dotted (k + 1) ++ r ≠ head := by
        intro heq
        rw [heq, ← dotted_zero, length_dotted] at hlength
        omega
      obtain ⟨whole, hcuts, hwhole⟩ := cutsWithin_rest hr (9 + k + r.length) r.length
        (Nat.le_refl _) (Nat.le_refl _)
      obtain ⟨fuel, rfl⟩ := Nat.exists_eq_add_of_le' (show 1 ≤ fuel by omega)
      rw [isUnderHead_of_ne hne, parent?, cuts, hlength, hcuts, List.find?_append]
      cases hfind : whole.find? known.contains with
      | some parent =>
          -- the parent keeps the whole run of dots
          obtain ⟨r', rfl, hshorter, hr'⟩ := hwhole parent (List.mem_of_find?_eq_some hfind)
          rw [Option.some_or, Option.any_some, ih k r' hr' (by omega)]
      | none =>
          rw [Option.none_or]
          refine any_find?_runCuts h (isUnderHead_head fuel) k ?_
          intro j hj
          have hnil : ∀ g ∈ ([] : Text).head?, g.is '.' = false := by
            intro g hg
            cases hg
          have hdots := ih j [] hnil (by rw [List.length_nil]; omega)
          rw [List.append_nil] at hdots
          exact hdots

/-- **WHICH VOICES ARE GOVERNED**: those whose dots lead on to the head voice. -/
theorem isGoverned_eq (h : Voices known names) (part : Text) :
    isGoverned known (ofPart part) = headReached names (leadingDots part) := by
  by_cases hpart : part = []
  · rw [hpart]
    exact isUnderHead_head _
  · have hlength := congrArg List.length (ofPart_eq hpart)
    rw [List.length_append, length_dotted] at hlength
    have hdots := isUnderHead_eq h ((ofPart part).length + 1) (leadingDots part) _ (rest_head part)
      (by omega)
    rw [← ofPart_eq hpart] at hdots
    exact hdots

-- one dot is stepped over and two are not, unless a name of one dot is in between
example : headReached [] (leadingDots ".x") = false ∧ headReached [] (leadingDots "..x") = true
    ∧ headReached ["."] (leadingDots "..x") = false := by decide

end

-- ── Rules ───────────────────────────────────────────────────────────────────

/-- By the rule the head voice governs a part, whatever names have been used beside. -/
def Governs (rule : Rule) (part : Text) : Prop :=
  ∀ known names, Voices known names → rule known (ofPart part) = true

/-- The hierarchy of names: the head voice governs the voices whose names go on from its
    own with a dot. -/
def isBelow : Rule := fun known name =>
  known.contains head && (name == head || (dotted 1).isPrefixOf name)

/-- **THE HIERARCHY OF NAMES** has the head voice above every part. -/
theorem governs_isBelow (part : Text) : Governs isBelow part := by
  intro known names h
  have hknown : known.contains head = true := List.contains_iff_mem.mpr ((h head).mpr (.inl rfl))
  rw [isBelow, hknown, Bool.true_and, Bool.or_eq_true]
  by_cases hpart : part = []
  · rw [hpart]
    exact .inl (beq_self_eq_true head)
  · rw [ofPart_of_ne_nil hpart, List.isPrefixOf_iff_prefix]
    exact .inr (List.prefix_append _ _)

/-- If the names of dots only have all been used, the search goes from one to the next and
    steps over the head voice at the last. -/
theorem headReached_allDots (m : Nat) :
    ∀ k, k < m → headReached ((List.range m).map dots) (k + 1) = false := by
  intro k
  induction k with
  | zero =>
      intro _
      rfl
  | succ k ih =>
      intro hk
      have hin : ((List.range m).map dots).contains (dots (k + 1)) = true :=
        List.contains_iff_mem.mpr (List.mem_map_of_mem (List.mem_range.mpr hk))
      rw [headReached, if_pos hin, ih (by omega)]

theorem voices_cons_map (names : List Text) : Voices (head :: names.map ofPart) names := by
  intro v
  rw [List.mem_cons, List.mem_map]
  simp only [eq_comm]

/-- **THE SEARCH FOR PARENTS** has the head voice above the parts whose names do not start
    with a dot. -/
theorem governs_isGoverned_iff {part : Text} :
    Governs isGoverned part ↔ leadingDots part = 0 := by
  constructor
  · intro h
    cases hdots : leadingDots part with
    | zero => rfl
    | succ k =>
        have hgoverned := h _ _ (voices_cons_map ((List.range (k + 1)).map dots))
        rw [isGoverned_eq (voices_cons_map _), hdots, headReached_allDots (k + 1) k (by omega)]
          at hgoverned
        cases hgoverned
  · intro hdots known names h
    rw [isGoverned_eq h, hdots, headReached]

end SketchMerge.Voice
