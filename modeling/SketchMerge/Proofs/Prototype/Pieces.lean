import SketchMerge.Proofs.Text.Splitting
import SketchMerge.Proofs.Text.Trimming
import SketchMerge.Prototype.Parameters

/-! # How a parameter list is found and cut

    Two counts run over a declaration.  One counts the parentheses and finds where
    the parameter list ends; the other counts the brackets of all kinds and finds the
    commas between parameters.  Neither looks at anything else, so what they make of
    a text is said in terms of the counts: how far it leads into brackets (`rise`),
    that it closes what is open and never more (`Closes`), and that no comma of it
    separates (`Uncut`).

    A text that has none of the three to answer for is a PIECE.  Pieces that are put
    together with commas are found again one by one (`split_joinWith`), and around
    them the parameter list is found again (`span?_eq_some_iff`), whatever else is
    written in them. -/

namespace SketchMerge.Parameters

-- ── Counting brackets ───────────────────────────────────────────────────────

/-- How far a text leads into the brackets that `change` counts. -/
def rise (change : Glyph → Int) : Text → Int
  | [] => 0
  | g :: rest => change g + rise change rest

/-- How far one glyph leads into parentheses. -/
def parenthesisChange (g : Glyph) : Int :=
  if g.is '(' then 1 else if g.is ')' then -1 else 0

/-- The text closes the `depth` brackets that are open in front of it, and nowhere in it
    are more closed than are open. -/
def Closes (change : Glyph → Int) : Int → Text → Prop
  | depth, [] => depth = 0
  | depth, g :: rest => 0 ≤ depth ∧ Closes change (depth + change g) rest

/-- No comma of the text stands outside of all brackets, if `depth` are open in front
    of it. -/
def Uncut : Int → Text → Prop
  | _, [] => True
  | depth, g :: rest => (g = .char ',' → depth ≠ 0) ∧ Uncut (depth + depthChange g) rest

instance decidableCloses (change : Glyph → Int) : ∀ depth t, Decidable (Closes change depth t)
  | depth, [] => inferInstanceAs (Decidable (depth = 0))
  | depth, g :: rest =>
    have := decidableCloses change (depth + change g) rest
    inferInstanceAs (Decidable (0 ≤ depth ∧ Closes change (depth + change g) rest))

instance decidableUncut : ∀ depth t, Decidable (Uncut depth t)
  | _, [] => inferInstanceAs (Decidable True)
  | depth, g :: rest =>
    have := decidableUncut (depth + depthChange g) rest
    inferInstanceAs (Decidable ((g = .char ',' → depth ≠ 0) ∧ Uncut (depth + depthChange g) rest))

/-- A text that the counts take as one parameter or as a part of one. -/
structure Piece (t : Text) : Prop where
  /-- Its parentheses are closed in it, and it closes no other. -/
  closes : Closes parenthesisChange 0 t
  /-- It closes as many brackets as it opens. -/
  level : rise depthChange t = 0
  /-- Its commas stand in brackets. -/
  uncut : Uncut 0 t

instance (t : Text) : Decidable (Piece t) :=
  decidable_of_iff (Closes parenthesisChange 0 t ∧ rise depthChange t = 0 ∧ Uncut 0 t)
    ⟨fun h => ⟨h.1, h.2.1, h.2.2⟩, fun h => ⟨h.closes, h.level, h.uncut⟩⟩

section

variable {change : Glyph → Int} {depth : Int} {s t : Text}

@[simp] theorem rise_nil (change : Glyph → Int) : rise change [] = 0 := rfl

@[simp] theorem rise_cons (change : Glyph → Int) (g : Glyph) (t : Text) :
    rise change (g :: t) = change g + rise change t := rfl

@[simp] theorem rise_append (change : Glyph → Int) (s t : Text) :
    rise change (s ++ t) = rise change s + rise change t := by
  induction s with
  | nil => simp
  | cons g s ih =>
      rw [List.cons_append, rise_cons, rise_cons, ih]
      omega

theorem Closes.nonneg (h : Closes change depth t) : 0 ≤ depth := by
  cases t with
  | nil => exact Int.le_of_eq h.symm
  | cons g t => exact h.1

theorem Closes.append (hs : Closes change depth s) (ht : Closes change 0 t) :
    Closes change depth (s ++ t) := by
  induction s generalizing depth with
  | nil =>
      obtain rfl : depth = 0 := hs
      exact ht
  | cons g s ih => exact ⟨hs.1, ih hs.2⟩

theorem Closes.behind (h : Closes change depth (s ++ t)) :
    Closes change (depth + rise change s) t := by
  induction s generalizing depth with
  | nil => simpa using h
  | cons g s ih =>
      rw [rise_cons, ← Int.add_assoc]
      exact ih h.2

theorem Closes.total (h : Closes change depth t) : depth + rise change t = 0 := by
  rw [← List.append_nil t] at h
  exact h.behind

/-- No start of the text closes more than is open. -/
theorem Closes.take_nonneg (h : Closes change depth t) (n : Nat) :
    0 ≤ depth + rise change (t.take n) := by
  rw [← List.take_append_drop n t] at h
  exact h.behind.nonneg

/-- Glyphs that are not counted make no difference in front of a text. -/
theorem closes_idle_append (hs : ∀ g ∈ s, change g = 0) :
    Closes change depth (s ++ t) ↔ Closes change depth t := by
  induction s with
  | nil => rfl
  | cons g s ih =>
      have ih := ih fun x hx => hs x (List.mem_cons_of_mem _ hx)
      rw [List.cons_append, Closes, hs g (List.mem_cons_self ..), Int.add_zero, ih]
      exact and_iff_right_of_imp Closes.nonneg

/-- Nor do they behind it. -/
theorem closes_append_idle (hs : ∀ g ∈ s, change g = 0) :
    Closes change depth (t ++ s) ↔ Closes change depth t := by
  induction t generalizing depth with
  | nil =>
      have h : Closes change depth (s ++ []) ↔ Closes change depth [] := closes_idle_append hs
      rwa [List.append_nil] at h
  | cons g t ih => rw [List.cons_append, Closes, Closes, ih]

theorem uncut_append :
    Uncut depth (s ++ t) ↔ Uncut depth s ∧ Uncut (depth + rise depthChange s) t := by
  induction s generalizing depth with
  | nil => simp [Uncut]
  | cons g s ih =>
      rw [List.cons_append, Uncut, Uncut, ih, rise_cons, and_assoc, Int.add_assoc]

end

-- ── Glyphs that are not counted ─────────────────────────────────────────────

/-- A glyph that a count looks at: a bracket or a comma. -/
def isCounted (g : Glyph) : Bool :=
  isOpener g || isCloser g || g.is ','

section

variable {g : Glyph} {s t u : Text}

theorem depthChange_of_not_counted (h : isCounted g = false) : depthChange g = 0 := by
  simp only [isCounted, Bool.or_eq_false_iff] at h
  simp [depthChange, h.1.1, h.1.2]

theorem parenthesisChange_of_not_counted (h : isCounted g = false) : parenthesisChange g = 0 := by
  simp only [isCounted, isOpener, isCloser, Bool.or_eq_false_iff] at h
  obtain ⟨⟨⟨⟨hopen, -⟩, -⟩, ⟨hclose, -⟩, -⟩, -⟩ := h
  simp [parenthesisChange, hopen, hclose]

theorem isCounted_of_isBlank (h : g.isBlank = true) : isCounted g = false := by
  cases hcounted : isCounted g with
  | false => rfl
  | true =>
      simp only [isCounted, isOpener, isCloser, Bool.or_eq_true, Glyph.is_iff] at hcounted
      rcases hcounted with (((rfl | rfl) | rfl) | ((rfl | rfl) | rfl)) | rfl <;>
        exact absurd h (by decide)

theorem rise_of_not_counted (h : ∀ g ∈ s, isCounted g = false) : rise depthChange s = 0 := by
  induction s with
  | nil => rfl
  | cons g s ih =>
      rw [rise_cons, depthChange_of_not_counted (h g (List.mem_cons_self ..)),
        ih fun x hx => h x (List.mem_cons_of_mem _ hx), Int.add_zero]

theorem uncut_of_not_counted (h : ∀ g ∈ s, isCounted g = false) (depth : Int) :
    Uncut depth s := by
  induction s generalizing depth with
  | nil => trivial
  | cons g s ih =>
      refine ⟨?_, ih (fun x hx => h x (List.mem_cons_of_mem _ hx)) _⟩
      rintro rfl
      exact absurd (h _ (List.mem_cons_self ..)) (by decide)

theorem Piece.append (hs : Piece s) (ht : Piece t) : Piece (s ++ t) where
  closes := hs.closes.append ht.closes
  level := by rw [rise_append, hs.level, ht.level, Int.add_zero]
  uncut := uncut_append.mpr ⟨hs.uncut, by rw [hs.level]; exact ht.uncut⟩

/-- **PIECES AMONG PLAIN TEXT.**  What no count looks at may be put around a piece or
    taken away from it. -/
theorem piece_around (hs : ∀ g ∈ s, isCounted g = false) (hu : ∀ g ∈ u, isCounted g = false) :
    Piece (s ++ (t ++ u)) ↔ Piece t := by
  have hcloses : Closes parenthesisChange 0 (s ++ (t ++ u)) ↔ Closes parenthesisChange 0 t := by
    rw [closes_idle_append fun g hg => parenthesisChange_of_not_counted (hs g hg),
      closes_append_idle fun g hg => parenthesisChange_of_not_counted (hu g hg)]
  have hlevel : rise depthChange (s ++ (t ++ u)) = rise depthChange t := by
    rw [rise_append, rise_append, rise_of_not_counted hs, rise_of_not_counted hu]
    omega
  have huncut : Uncut 0 (s ++ (t ++ u)) ↔ Uncut 0 t := by
    rw [uncut_append, uncut_append, rise_of_not_counted hs, Int.add_zero]
    simp [uncut_of_not_counted hs, uncut_of_not_counted hu]
  constructor
  · intro h
    exact ⟨hcloses.mp h.closes, hlevel ▸ h.level, huncut.mp h.uncut⟩
  · intro h
    exact ⟨hcloses.mpr h.closes, hlevel.trans h.level, huncut.mpr h.uncut⟩

theorem piece_of_not_counted (h : ∀ g ∈ s, isCounted g = false) : Piece s := by
  have hnil : Piece [] := ⟨rfl, rfl, trivial⟩
  have := (piece_around (t := []) h (fun g hg => absurd hg List.not_mem_nil)).mpr hnil
  simpa using this

theorem Piece.trim (h : Piece t) : Piece (Text.trim t) := by
  obtain ⟨lead, trail, hlead, htrail, ht⟩ := Text.exists_around_trim t
  rw [ht] at h
  exact (piece_around (fun g hg => isCounted_of_isBlank (hlead g hg))
    (fun g hg => isCounted_of_isBlank (htrail g hg))).mp h

end

-- ── Cutting at commas ───────────────────────────────────────────────────────

section

variable {depth : Int} {s t part : Text} {parts : List Text}

theorem splitFrom_ne_nil (depth : Int) (t : Text) : splitFrom depth t ≠ [] := by
  cases t with
  | nil => simp [splitFrom]
  | cons g rest =>
      rw [splitFrom]
      split
      · simp
      · cases splitFrom (depth + depthChange g) rest <;> simp [consFirst]

theorem splitFrom_comma (t : Text) : splitFrom 0 (.char ',' :: t) = [] :: splitFrom 0 t := by
  rw [splitFrom, if_pos (by decide)]

theorem splitFrom_kept {g : Glyph} (h : g = .char ',' → depth ≠ 0)
    (hparts : splitFrom (depth + depthChange g) t = part :: parts) :
    splitFrom depth (g :: t) = (g :: part) :: parts := by
  have hcut : ¬ (g.is ',' && depth == 0) = true := by
    rw [Bool.and_eq_true, Glyph.is_iff, beq_iff_eq]
    rintro ⟨hcomma, hzero⟩
    exact h hcomma hzero
  rw [splitFrom, if_neg hcut, hparts, consFirst]

/-- What is not cut goes to the first part. -/
theorem splitFrom_append (hs : Uncut depth s)
    (hparts : splitFrom (depth + rise depthChange s) t = part :: parts) :
    splitFrom depth (s ++ t) = (s ++ part) :: parts := by
  induction s generalizing depth with
  | nil => simpa using hparts
  | cons g s ih =>
      rw [rise_cons, ← Int.add_assoc] at hparts
      exact splitFrom_kept hs.1 (ih hs.2 hparts)

/-- A text without a comma to cut at is its only part. -/
theorem splitFrom_of_uncut (h : Uncut depth t) : splitFrom depth t = [t] := by
  have := splitFrom_append (t := []) h (by rw [splitFrom])
  simpa using this

/-- Where the text is cut, no part has more glyphs. -/
theorem subset_of_mem_cut {g : Glyph} {rest : Text} (h : ∀ part ∈ parts, part ⊆ rest)
    (hpart : part ∈ [] :: parts) : part ⊆ g :: rest := by
  rcases List.mem_cons.mp hpart with rfl | hpart
  · exact List.nil_subset _
  · exact List.subset_cons_of_subset _ (h part hpart)

/-- Where it is not, one part has one more. -/
theorem subset_of_mem_consFirst {g : Glyph} {rest : Text} (h : ∀ part ∈ parts, part ⊆ rest)
    (hpart : part ∈ consFirst g parts) : part ⊆ g :: rest := by
  cases parts with
  | nil =>
      rw [List.mem_singleton.mp hpart]
      exact List.cons_subset_cons _ (List.nil_subset _)
  | cons first others =>
      rcases List.mem_cons.mp hpart with rfl | hpart
      · exact List.cons_subset_cons _ (h first (List.mem_cons_self ..))
      · exact List.subset_cons_of_subset _ (h part (List.mem_cons_of_mem _ hpart))

theorem splitFrom_subset (depth : Int) (t : Text) :
    ∀ part ∈ splitFrom depth t, part ⊆ t := by
  induction t generalizing depth with
  | nil => exact fun part hpart => List.mem_singleton.mp hpart ▸ List.Subset.refl _
  | cons g rest ih =>
      intro part hpart
      rw [splitFrom] at hpart
      split at hpart
      · exact subset_of_mem_cut (ih depth) hpart
      · exact subset_of_mem_consFirst (ih _) hpart

/-- **NOTHING IS LOST**: the parts put together with commas are the text. -/
theorem joinWith_splitFrom (depth : Int) (t : Text) :
    Text.joinWith "," (splitFrom depth t) = t := by
  induction t generalizing depth with
  | nil => rfl
  | cons g t ih =>
      by_cases hcut : g = .char ',' ∧ depth = 0
      · obtain ⟨rfl, rfl⟩ := hcut
        obtain ⟨part, parts, hparts⟩ := List.exists_cons_of_ne_nil (splitFrom_ne_nil 0 t)
        have ht := ih 0
        rw [hparts] at ht
        rw [splitFrom_comma, hparts, Text.joinWith_cons_cons, ht]
        rfl
      · obtain ⟨part, parts, hparts⟩ :=
          List.exists_cons_of_ne_nil (splitFrom_ne_nil (depth + depthChange g) t)
        have ht := ih (depth + depthChange g)
        rw [splitFrom_kept (fun hg hdepth => hcut ⟨hg, hdepth⟩) hparts]
        rw [hparts] at ht
        -- the glyph goes in front of the first part, whether it is the only one or not
        cases parts with
        | nil =>
            rw [Text.joinWith_singleton] at ht ⊢
            rw [ht]
        | cons second parts =>
            rw [Text.joinWith_cons_cons] at ht ⊢
            rw [List.cons_append, ht]

/-- A text that is cut has a comma outside of all brackets. -/
theorem exists_comma_of_not_uncut (h : ¬ Uncut depth t) :
    ∃ before after, t = before ++ .char ',' :: after ∧ Uncut depth before ∧
      depth + rise depthChange before = 0 := by
  induction t generalizing depth with
  | nil => exact absurd trivial h
  | cons g t ih =>
      by_cases hcut : g = .char ',' ∧ depth = 0
      · obtain ⟨rfl, rfl⟩ := hcut
        exact ⟨[], t, rfl, trivial, rfl⟩
      · have hkept : g = .char ',' → depth ≠ 0 := fun hg hdepth => hcut ⟨hg, hdepth⟩
        obtain ⟨before, after, rfl, hbefore, hzero⟩ := ih fun ht => h ⟨hkept, ht⟩
        refine ⟨g :: before, after, rfl, ⟨hkept, hbefore⟩, ?_⟩
        rw [rise_cons]
        omega

/-- **PIECES ARE FOUND AGAIN** when they are put together with commas, with the blank
    behind its comma in front of each piece but the first. -/
theorem split_joinWith {first : Text} {pieces : List Text}
    (h : ∀ piece ∈ first :: pieces, Piece piece) :
    split (Text.joinWith ", " (first :: pieces))
      = first :: pieces.map (Text.ofString " " ++ ·) := by
  induction pieces generalizing first with
  | nil =>
      rw [Text.joinWith_singleton]
      exact splitFrom_of_uncut (h first (List.mem_cons_self ..)).uncut
  | cons second pieces ih =>
      have hfirst := h first (List.mem_cons_self ..)
      have hrest := ih fun piece hpiece => h piece (List.mem_cons_of_mem _ hpiece)
      -- behind the comma, the blank goes to the second piece
      have hbehind : splitFrom 0 (.char ' ' :: Text.joinWith ", " (second :: pieces))
          = (.char ' ' :: second) :: pieces.map (Text.ofString " " ++ ·) :=
        splitFrom_kept (by simp) hrest
      have hcut : splitFrom 0 (first ++ (", " ++ Text.joinWith ", " (second :: pieces)))
          = (first ++ []) :: splitFrom 0 (.char ' ' :: Text.joinWith ", " (second :: pieces)) :=
        splitFrom_append hfirst.uncut (by rw [hfirst.level]; exact splitFrom_comma _)
      rw [Text.joinWith_cons_cons, split, hcut, hbehind, List.append_nil]
      rfl

theorem closes_joinWith {pieces : List Text} (h : ∀ piece ∈ pieces, Piece piece) :
    Closes parenthesisChange 0 (Text.joinWith ", " pieces) := by
  induction pieces with
  | nil => exact rfl
  | cons first pieces ih =>
      have hfirst := (h first (List.mem_cons_self ..)).closes
      cases pieces with
      | nil => rwa [Text.joinWith_singleton]
      | cons second pieces =>
          have hrest := ih fun piece hpiece => h piece (List.mem_cons_of_mem _ hpiece)
          rw [Text.joinWith_cons_cons]
          exact hfirst.append ((closes_idle_append (by decide)).mpr hrest)

end

-- ── Finding the list ────────────────────────────────────────────────────────

/-- A parenthesis that is not the one looked for, or another glyph, is stepped over. -/
theorem closing?_step {g : Glyph} {depth deeper : Nat} (hopen : g = .char ')' → depth ≠ 0)
    (hdeeper : (depth : Int) + parenthesisChange g = deeper) (rest : Text) :
    closing? (depth + 1) (g :: rest) = (closing? (deeper + 1) rest).map (· + 1) := by
  rw [parenthesisChange] at hdeeper
  rw [closing?]
  by_cases hleft : g.is '(' = true
  · rw [if_pos hleft] at hdeeper ⊢
    obtain rfl : deeper = depth + 1 := by omega
    rfl
  · rw [if_neg hleft] at hdeeper ⊢
    by_cases hright : g.is ')' = true
    · have hdepth := hopen (Glyph.is_iff.mp hright)
      rw [if_pos hright] at hdeeper ⊢
      obtain rfl : depth = deeper + 1 := by omega
      rw [if_neg (by omega), Nat.add_sub_cancel]
    · rw [if_neg hright] at hdeeper ⊢
      obtain rfl : deeper = depth := by omega
      rfl

/-- **WHERE THE COUNT ENDS**: at the parenthesis behind a text that closes all others. -/
theorem closing?_eq_some_iff {depth n : Nat} {t : Text} :
    closing? (depth + 1) t = some n ↔
      ∃ inner after, t = inner ++ .char ')' :: after ∧ inner.length = n ∧
        Closes parenthesisChange depth inner := by
  induction t generalizing depth n with
  | nil => simp [closing?]
  | cons g rest ih =>
      by_cases hlast : g = .char ')' ∧ depth = 0
      · obtain ⟨rfl, rfl⟩ := hlast
        have hfound : closing? (0 + 1) (.char ')' :: rest) = some 0 := rfl
        rw [hfound, Option.some.injEq]
        constructor
        · rintro rfl
          exact ⟨[], rest, rfl, rfl, rfl⟩
        · rintro ⟨inner, after, ht, hn, hcloses⟩
          cases inner with
          | nil => exact hn
          | cons g inner =>
              -- the text would close a parenthesis that is not open
              obtain ⟨rfl, -⟩ := List.cons.inj ht
              exact absurd hcloses.2.nonneg (by decide)
      · have hopen : g = .char ')' → depth ≠ 0 := fun hg hdepth => hlast ⟨hg, hdepth⟩
        have hnonneg : 0 ≤ (depth : Int) + parenthesisChange g := by
          rw [parenthesisChange]
          split
          · omega
          · split
            · rename_i hright
              have := hopen (Glyph.is_iff.mp hright)
              omega
            · omega
        obtain ⟨deeper, hdeeper⟩ := Int.eq_ofNat_of_zero_le hnonneg
        rw [closing?_step hopen hdeeper, Option.map_eq_some_iff]
        constructor
        · rintro ⟨m, hm, rfl⟩
          obtain ⟨inner, after, rfl, rfl, hcloses⟩ := ih.mp hm
          exact ⟨g :: inner, after, rfl, rfl, by omega, hdeeper ▸ hcloses⟩
        · rintro ⟨inner, after, ht, rfl, hcloses⟩
          cases inner with
          | nil =>
              obtain ⟨rfl, -⟩ := List.cons.inj ht
              exact absurd (Int.ofNat_eq_zero.mp hcloses) (hopen rfl)
          | cons g inner =>
              obtain ⟨rfl, rfl⟩ := List.cons.inj ht
              exact ⟨inner.length, ih.mpr ⟨inner, after, rfl, rfl, hdeeper ▸ hcloses.2⟩, rfl⟩

/-- A text in which `inner` is the parameter list: `before` it no parenthesis opens, and
    the one that opens it is closed behind it. -/
structure Framed (before inner after t : Text) : Prop where
  whole : t = before ++ .char '(' :: (inner ++ .char ')' :: after)
  first : .char '(' ∉ before
  closes : Closes parenthesisChange 0 inner

theorem findIdx?_opening {before : Text} (h : .char '(' ∉ before) (rest : Text) :
    (before ++ .char '(' :: rest).findIdx? (·.is '(') = some before.length := by
  have hnone : before.findIdx? (·.is '(') = none := by
    rw [List.findIdx?_eq_none_iff]
    intro g hg
    exact Bool.eq_false_iff.mpr fun hopen => h (Glyph.is_iff.mp hopen ▸ hg)
  rw [List.findIdx?_append, hnone, List.findIdx?_cons, if_pos (by decide)]
  simp

/-- Behind the first parenthesis that opens, the one that closes it is looked for. -/
theorem span?_behind {before : Text} (h : .char '(' ∉ before) (rest : Text) :
    span? (before ++ .char '(' :: rest)
      = (closing? 1 rest).map fun n => (before.length + 1, before.length + 1 + n) := by
  rw [span?, findIdx?_opening h]
  simp

theorem mem_of_span? {t : Text} (h : span? t ≠ none) : .char '(' ∈ t := by
  rw [span?] at h
  split at h
  · exact absurd rfl h
  · rename_i i hi
    have hsome : (t.findIdx? (·.is '(')).isSome = true := by rw [hi]; rfl
    exact any_is.mp (List.findIdx?_isSome ▸ hsome)

/-- **WHERE THE PARAMETERS ARE**: between the first parenthesis and the one that closes
    it. -/
theorem span?_eq_some_iff {t : Text} {i j : Nat} :
    span? t = some (i, j) ↔
      ∃ before inner after, Framed before inner after t ∧ i = before.length + 1 ∧
        j = i + inner.length := by
  constructor
  · intro h
    obtain ⟨before, rest, rfl, hfirst⟩ :=
      List.eq_append_cons_of_mem (mem_of_span? (by rw [h]; exact Option.some_ne_none _))
    rw [span?_behind hfirst, Option.map_eq_some_iff] at h
    obtain ⟨n, hn, hij⟩ := h
    obtain ⟨inner, after, rfl, rfl, hcloses⟩ := closing?_eq_some_iff.mp hn
    obtain ⟨rfl, rfl⟩ := Prod.mk.inj hij
    exact ⟨before, inner, after, ⟨rfl, hfirst, hcloses⟩, rfl, rfl⟩
  · rintro ⟨before, inner, after, ⟨rfl, hfirst, hcloses⟩, rfl, rfl⟩
    have hn : closing? 1 (inner ++ .char ')' :: after) = some inner.length :=
      closing?_eq_some_iff.mpr ⟨inner, after, rfl, rfl, hcloses⟩
    rw [span?_behind hfirst, hn]
    rfl

-- ── Clearing the list ───────────────────────────────────────────────────────

/-- A parameter list without default values. -/
def cleared (inner : Text) : Text :=
  if inner.any (·.is '=') then Text.joinWith ", " ((split inner).map withoutDefault) else inner

theorem cleared_of_free {inner : Text} (h : .char '=' ∉ inner) : cleared inner = inner := by
  rw [cleared, if_neg fun hany => h (any_is.mp hany)]

theorem cleared_of_mem {inner : Text} (h : .char '=' ∈ inner) :
    cleared inner = Text.joinWith ", " ((split inner).map withoutDefault) := by
  rw [cleared, if_pos (any_is.mpr h)]

theorem withoutDefault_of_free {parameter : Text} (h : .char '=' ∉ parameter) :
    withoutDefault parameter = Text.trim parameter := by
  rw [withoutDefault, List.takeWhile_eq_self_iff.mpr (not_is_of_not_mem h)]

theorem withoutDefault_append {declarator : Text} (h : .char '=' ∉ declarator) (value : Text) :
    withoutDefault (declarator ++ .char '=' :: value) = Text.trim declarator := by
  rw [withoutDefault, List.takeWhile_append_of_pos (not_is_of_not_mem h),
    List.takeWhile_cons_of_neg (by decide), List.append_nil]

theorem withoutDefault_blank_append {blanks : Text} (h : ∀ g ∈ blanks, g.isBlank = true)
    (parameter : Text) : withoutDefault (blanks ++ parameter) = withoutDefault parameter := by
  have hequals : .char '=' ∉ blanks := fun hmem => absurd (h _ hmem) (by decide)
  rw [withoutDefault, List.takeWhile_append_of_pos (not_is_of_not_mem hequals),
    Text.trim_blank_append h, ← withoutDefault]

theorem equals_not_mem_withoutDefault (parameter : Text) :
    .char '=' ∉ withoutDefault parameter := by
  intro h
  have := List.mem_takeWhile_imp (Text.trim_subset _ h)
  exact absurd this (by decide)

/-- Nothing is left to clear in a list that is cleared. -/
theorem equals_not_mem_cleared (inner : Text) : .char '=' ∉ cleared inner := by
  by_cases hmem : .char '=' ∈ inner
  · rw [cleared_of_mem hmem]
    intro h
    rcases Text.mem_joinWith h with hsep | ⟨part, hpart, hequals⟩
    · exact absurd hsep (by decide)
    · obtain ⟨parameter, -, rfl⟩ := List.mem_map.mp hpart
      exact equals_not_mem_withoutDefault parameter hequals
  · rwa [cleared_of_free hmem]

namespace Framed

variable {before inner after t : Text}

theorem span (h : Framed before inner after t) :
    span? t = some (before.length + 1, before.length + 1 + inner.length) :=
  span?_eq_some_iff.mpr ⟨before, inner, after, h, rfl, rfl⟩

theorem take (h : Framed before inner after t) :
    t.take (before.length + 1) = before ++ [.char '('] := by
  rw [h.whole, List.take_length_add_append]
  rfl

theorem drop (h : Framed before inner after t) :
    t.drop (before.length + 1 + inner.length) = .char ')' :: after := by
  rw [h.whole, Nat.add_assoc, List.drop_length_add_append, Nat.add_comm, List.drop_succ_cons,
    List.drop_left]

theorem slice (h : Framed before inner after t) :
    t.slice (before.length + 1) (before.length + 1 + inner.length) = inner := by
  rw [Text.slice, h.whole, Nat.add_assoc, List.take_length_add_append,
    List.drop_length_add_append, Nat.add_comm 1, List.take_succ_cons, List.take_left,
    List.drop_succ_cons, List.drop_zero]

/-- A parenthesis in front of all else is the one that opens the list. -/
theorem of_cons {rest : Text} (h : Framed before inner after (.char '(' :: rest)) :
    before = [] ∧ rest = inner ++ .char ')' :: after := by
  have hwhole := h.whole
  cases before with
  | nil => exact ⟨rfl, (List.cons.inj hwhole).2⟩
  | cons g before =>
      obtain ⟨rfl, -⟩ := List.cons.inj hwhole
      exact absurd (List.mem_cons_self ..) h.first

/-- **STRIPPING CLEARS THE LIST** and leaves what stands around it. -/
theorem stripDefaults (h : Framed before inner after t) :
    stripDefaults t = before ++ .char '(' :: (cleared inner ++ .char ')' :: after) := by
  rw [Parameters.stripDefaults, h.span]
  dsimp only
  rw [h.slice, h.take, h.drop]
  by_cases hmem : .char '=' ∈ inner
  · rw [if_pos (any_is.mpr hmem), cleared_of_mem hmem, List.append_assoc, List.append_assoc,
      List.singleton_append]
  · rw [if_neg fun hany => hmem (any_is.mp hany), cleared_of_free hmem]
    exact h.whole

end Framed

theorem stripDefaults_of_span?_none {t : Text} (h : span? t = none) : stripDefaults t = t := by
  rw [stripDefaults, h]

end SketchMerge.Parameters
