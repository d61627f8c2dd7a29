import SketchMerge.Proofs.Prototype.Pieces

/-! # Stripping keeps the parameters

    In a parameter list whose brackets are properly nested, the parts between the
    commas are properly nested too (`nested_of_mem_split`), and so is what stands in
    front of an equals sign outside of all brackets.  What is left of a parameter is
    therefore a piece, and the pieces put together again make a list that is found
    and cut at the SAME places: count and order of the parameters are kept, and so
    is all that stands around the list (`stripDefaults_keeps_parameters`). -/

namespace SketchMerge.Parameters

-- ── Proper nesting ──────────────────────────────────────────────────────────

/-- The bracket that closes an opening one. -/
def closerOf? (g : Glyph) : Option Glyph :=
  if g.is '(' then some (.char ')')
  else if g.is '[' then some (.char ']')
  else if g.is '\x7b' then some (.char '\x7d')
  else none

/-- The brackets that are still to be closed, the next one first, after one more glyph;
    nothing, if the glyph closes a bracket that is not the next one. -/
def owe (owed : List Glyph) (g : Glyph) : Option (List Glyph) :=
  match closerOf? g with
  | some closer => some (closer :: owed)
  | none =>
    if isCloser g then
      if owed.head? = some g then some owed.tail else none
    else some owed

/-- The brackets that are still to be closed after a text. -/
def pending : List Glyph → Text → Option (List Glyph)
  | owed, [] => some owed
  | owed, g :: rest => (owe owed g).bind (pending · rest)

/-- The brackets of the text are properly nested: each is closed by one of its own
    kind, and what is opened last is closed first. -/
def Nested (t : Text) : Prop :=
  pending [] t = some []

instance (t : Text) : Decidable (Nested t) :=
  inferInstanceAs (Decidable (pending [] t = some []))

section

variable {owed left : List Glyph} {g : Glyph} {s t : Text}

/-- **ONE GLYPH** opens a bracket, closes the next one, or is no bracket at all. -/
theorem owe_cases (h : owe owed g = some left) :
    (∃ closer, closerOf? g = some closer ∧ left = closer :: owed) ∨
      (isOpener g = false ∧ isCloser g = true ∧ owed = g :: left) ∨
      (isOpener g = false ∧ isCloser g = false ∧ left = owed) := by
  have hopener (hnone : closerOf? g = none) : isOpener g = false := by
    simp only [closerOf?] at hnone
    simp only [isOpener]
    grind
  rw [owe] at h
  split at h
  · rename_i closer hcloser
    exact .inl ⟨closer, hcloser, (Option.some.inj h).symm⟩
  · rename_i hnone
    split at h
    · rename_i hclose
      split at h
      · rename_i hnext
        obtain ⟨rest, rfl⟩ := List.head?_eq_some_iff.mp hnext
        obtain rfl := Option.some.inj h
        exact .inr (.inl ⟨hopener hnone, hclose, rfl⟩)
      · exact absurd h (by simp)
    · rename_i hclose
      exact .inr (.inr ⟨hopener hnone, Bool.eq_false_iff.mpr hclose, (Option.some.inj h).symm⟩)

theorem closerOf?_cases {closer : Glyph} (h : closerOf? g = some closer) :
    (g = .char '(' ∧ closer = .char ')') ∨ (g = .char '[' ∧ closer = .char ']') ∨
      (g = .char '\x7b' ∧ closer = .char '\x7d') := by
  simp only [closerOf?, Glyph.is, beq_iff_eq] at h
  grind

/-- The count of brackets is the number of those that are to be closed. -/
theorem length_owe (h : owe owed g = some left) :
    (left.length : Int) = owed.length + depthChange g := by
  rcases owe_cases h with ⟨closer, hcloser, rfl⟩ | ⟨hopen, hclose, rfl⟩ | ⟨hopen, hclose, rfl⟩
  · rcases closerOf?_cases hcloser with ⟨rfl, -⟩ | ⟨rfl, -⟩ | ⟨rfl, -⟩ <;> rfl
  · have hchange : depthChange g = -1 := by simp [depthChange, hopen, hclose]
    rw [List.length_cons, hchange]
    omega
  · have hchange : depthChange g = 0 := by simp [depthChange, hopen, hclose]
    rw [hchange, Int.add_zero]

/-- The count of parentheses is the number of those among them. -/
theorem count_owe (h : owe owed g = some left) :
    (left.count (.char ')') : Int) = owed.count (.char ')') + parenthesisChange g := by
  rcases owe_cases h with ⟨closer, hcloser, rfl⟩ | ⟨hopen, hclose, rfl⟩ | ⟨hopen, hclose, rfl⟩
  · rcases closerOf?_cases hcloser with ⟨rfl, rfl⟩ | ⟨rfl, rfl⟩ | ⟨rfl, rfl⟩ <;>
      simp [parenthesisChange, Glyph.is]
  · simp only [isCloser, Bool.or_eq_true, Glyph.is_iff] at hclose
    rcases hclose with (rfl | rfl) | rfl
    · rw [List.count_cons_self, show parenthesisChange (.char ')') = -1 from rfl]
      omega
    · rw [List.count_cons_of_ne (by decide), show parenthesisChange (.char ']') = 0 from rfl]
      omega
    · rw [List.count_cons_of_ne (by decide), show parenthesisChange (.char '\x7d') = 0 from rfl]
      omega
  · simp only [isOpener, isCloser, Bool.or_eq_false_iff] at hopen hclose
    simp [parenthesisChange, hopen.1.1, hclose.1.1]

theorem pending_append (owed : List Glyph) (s t : Text) :
    pending owed (s ++ t) = (pending owed s).bind (pending · t) := by
  induction s generalizing owed with
  | nil => rfl
  | cons g s ih =>
      rw [List.cons_append, pending, pending, Option.bind_assoc]
      exact congrArg _ (funext ih)

theorem pending_cons (h : pending owed (g :: t) = some left) :
    ∃ next, owe owed g = some next ∧ pending next t = some left :=
  Option.bind_eq_some_iff.mp h

theorem length_pending (h : pending owed t = some left) :
    (left.length : Int) = owed.length + rise depthChange t := by
  induction t generalizing owed with
  | nil =>
      obtain rfl := Option.some.inj h
      simp
  | cons g t ih =>
      obtain ⟨next, hnext, ht⟩ := pending_cons h
      rw [ih ht, length_owe hnext, rise_cons]
      omega

theorem closes_of_pending (h : pending owed t = some []) :
    Closes parenthesisChange (owed.count (.char ')')) t := by
  induction t generalizing owed with
  | nil =>
      obtain rfl := Option.some.inj h
      rfl
  | cons g t ih =>
      obtain ⟨next, hnext, ht⟩ := pending_cons h
      exact ⟨by omega, count_owe hnext ▸ ih ht⟩

theorem nested_of_not_counted (h : ∀ g ∈ t, isCounted g = false) : Nested t := by
  induction t with
  | nil => rfl
  | cons g t ih =>
      have hg := h g (List.mem_cons_self ..)
      simp only [isCounted, isOpener, isCloser, Bool.or_eq_false_iff] at hg
      have howe : owe [] g = some [] := by simp [owe, closerOf?, isCloser, hg]
      rw [Nested, pending, howe]
      exact ih fun x hx => h x (List.mem_cons_of_mem _ hx)

/-- What stands in front of a place outside of all brackets is nested. -/
theorem Nested.front (h : Nested (s ++ t)) (hlevel : rise depthChange s = 0) : Nested s := by
  rw [Nested, pending_append, Option.bind_eq_some_iff] at h
  obtain ⟨left, hleft, -⟩ := h
  have hlength := length_pending hleft
  rw [hlevel] at hlength
  obtain rfl : left = [] := List.eq_nil_of_length_eq_zero (by simpa using hlength)
  exact hleft

theorem Nested.piece (h : Nested t) (huncut : Uncut 0 t) : Piece t where
  closes := closes_of_pending h
  level := by simpa using (length_pending h).symm
  uncut := huncut

/-- **THE PARTS OF A NESTED TEXT**: the first closes what is open in front of the text,
    and each of the others is nested. -/
theorem nested_of_splitFrom {part : Text} {parts : List Text} (h : pending owed t = some [])
    (hparts : splitFrom owed.length t = part :: parts) :
    (pending owed part = some [] ∧ Uncut owed.length part) ∧
      ∀ other ∈ parts, Nested other ∧ Uncut 0 other := by
  induction t generalizing owed part parts with
  | nil =>
      obtain ⟨rfl, rfl⟩ := List.cons.inj hparts
      exact ⟨⟨h, trivial⟩, by simp⟩
  | cons g t ih =>
      obtain ⟨next, hnext, ht⟩ := pending_cons h
      obtain ⟨first, others, hrest⟩ :=
        List.exists_cons_of_ne_nil (splitFrom_ne_nil next.length t)
      obtain ⟨⟨hfirst, huncut⟩, hothers⟩ := ih ht hrest
      by_cases hcut : g = .char ',' ∧ owed = []
      · -- the text is cut here, and no bracket is open
        obtain ⟨rfl, rfl⟩ := hcut
        obtain rfl : [] = next := Option.some.inj hnext
        rw [List.length_nil, Int.natCast_zero] at hparts hrest huncut
        rw [splitFrom_comma, hrest] at hparts
        obtain ⟨rfl, rfl⟩ := List.cons.inj hparts
        refine ⟨⟨rfl, trivial⟩, ?_⟩
        intro other hother
        rcases List.mem_cons.mp hother with rfl | hother
        · exact ⟨hfirst, huncut⟩
        · exact hothers other hother
      · have hkept : g = .char ',' → (owed.length : Int) ≠ 0 := by
          intro hg hzero
          exact hcut ⟨hg, List.eq_nil_of_length_eq_zero (by omega)⟩
        rw [length_owe hnext] at hrest huncut
        rw [splitFrom_kept hkept hrest] at hparts
        obtain ⟨rfl, rfl⟩ := List.cons.inj hparts
        exact ⟨⟨by rw [pending, hnext]; exact hfirst, hkept, huncut⟩, hothers⟩

theorem nested_of_mem_split (h : Nested t) {part : Text} (hpart : part ∈ split t) :
    Nested part ∧ Uncut 0 part := by
  obtain ⟨first, others, hparts⟩ := List.exists_cons_of_ne_nil (splitFrom_ne_nil 0 t)
  obtain ⟨hfirst, hothers⟩ := nested_of_splitFrom h hparts
  rw [split, hparts] at hpart
  rcases List.mem_cons.mp hpart with rfl | hpart
  · exact hfirst
  · exact hothers part hpart

end

-- ── Stripping a nested list ─────────────────────────────────────────────────

/-- What stands in a parameter in front of its default value. -/
def beforeDefault (parameter : Text) : Text :=
  parameter.takeWhile (!·.is '=')

/-- No parameter of the list has a bracket open where its default value starts. -/
def OuterDefaults (inner : Text) : Prop :=
  ∀ part ∈ split inner, .char '=' ∈ part → rise depthChange (beforeDefault part) = 0

instance (inner : Text) : Decidable (OuterDefaults inner) :=
  inferInstanceAs (Decidable (∀ part ∈ split inner, _ → _))

section

variable {inner part : Text}

theorem piece_withoutDefault (hnested : Nested inner) (houter : OuterDefaults inner)
    (hpart : part ∈ split inner) : Piece (withoutDefault part) := by
  obtain ⟨hnested, huncut⟩ := nested_of_mem_split hnested hpart
  by_cases hequals : .char '=' ∈ part
  · have hsplit : part = beforeDefault part ++ part.dropWhile (!·.is '=') :=
      List.takeWhile_append_dropWhile.symm
    rw [hsplit] at hnested huncut
    have hfront := hnested.front (houter part hpart hequals)
    exact (hfront.piece (uncut_append.mp huncut).1).trim
  · rw [withoutDefault_of_free hequals]
    exact (hnested.piece huncut).trim

/-- What is left of the parameters can be put together again. -/
theorem pieces_withoutDefault (hnested : Nested inner) (houter : OuterDefaults inner) :
    ∀ piece ∈ (split inner).map withoutDefault, Piece piece := by
  rw [List.forall_mem_map]
  intro part hpart
  exact piece_withoutDefault hnested houter hpart

/-- The list that is put together again closes its parentheses. -/
theorem closes_cleared (hcloses : Closes parenthesisChange 0 inner) (hnested : Nested inner)
    (houter : OuterDefaults inner) : Closes parenthesisChange 0 (cleared inner) := by
  by_cases hequals : .char '=' ∈ inner
  · rw [cleared_of_mem hequals]
    exact closes_joinWith (pieces_withoutDefault hnested houter)
  · rwa [cleared_of_free hequals]

theorem trim_withoutDefault (parameter : Text) :
    Text.trim (withoutDefault parameter) = withoutDefault parameter :=
  Text.trim_trim _

/-- **THE PARAMETERS STAY**: the list that is put together again is cut into what was
    left of each, in the same order. -/
theorem split_cleared (hnested : Nested inner) (houter : OuterDefaults inner) :
    (split (cleared inner)).map Text.trim = (split inner).map withoutDefault := by
  by_cases hequals : .char '=' ∈ inner
  · obtain ⟨first, others, hparts⟩ := List.exists_cons_of_ne_nil (splitFrom_ne_nil 0 inner)
    have hpieces : ∀ piece ∈ withoutDefault first :: others.map withoutDefault, Piece piece := by
      rw [← List.map_cons, ← hparts]
      exact pieces_withoutDefault hnested houter
    have hblank (part : Text) : Text.trim (Text.ofString " " ++ withoutDefault part)
        = withoutDefault part := by
      rw [Text.trim_blank_append (by decide), trim_withoutDefault]
    rw [cleared_of_mem hequals, split, split, hparts, List.map_cons, ← split,
      split_joinWith hpieces]
    simp [trim_withoutDefault, hblank]
  · rw [cleared_of_free hequals]
    refine List.map_congr_left ?_
    intro part hpart
    rw [withoutDefault_of_free]
    exact fun hmem => hequals (splitFrom_subset 0 inner part hpart hmem)

end

/-- **STRIPPING KEEPS COUNT, ORDER AND EVERYTHING ELSE.**  Let the brackets of a parameter
    list be properly nested, and let its default values start outside of all brackets.
    Stripping leaves what stands in front of the list and behind it; it leaves a list
    that is found at the same place and has no equals sign; it leaves as many
    parameters, each of them, but for blanks, what stood in front of its default value,
    or the whole where it had none; and stripping again changes nothing. -/
theorem stripDefaults_keeps_parameters {p : Text} {start stop : Nat}
    (hspan : span? p = some (start, stop)) (hnested : Nested (p.slice start stop))
    (houter : OuterDefaults (p.slice start stop)) :
    (stripDefaults p).take start = p.take start ∧
      ∃ stop', span? (stripDefaults p) = some (start, stop') ∧
        (stripDefaults p).drop stop' = p.drop stop ∧
        .char '=' ∉ (stripDefaults p).slice start stop' ∧
        (split ((stripDefaults p).slice start stop')).map Text.trim
          = (split (p.slice start stop)).map (fun part => Text.trim (beforeDefault part)) ∧
        stripDefaults (stripDefaults p) = stripDefaults p := by
  obtain ⟨before, inner, after, hframed, rfl, rfl⟩ := span?_eq_some_iff.mp hspan
  rw [hframed.slice] at hnested houter ⊢
  -- the stripped declaration has the cleared list in the same frame
  have hstripped : Framed before (cleared inner) after (stripDefaults p) :=
    ⟨hframed.stripDefaults, hframed.first, closes_cleared hframed.closes hnested houter⟩
  refine ⟨?_, before.length + 1 + (cleared inner).length, hstripped.span, ?_, ?_, ?_, ?_⟩
  · rw [hstripped.take, hframed.take]
  · rw [hstripped.drop, hframed.drop]
  · rw [hstripped.slice]
    exact equals_not_mem_cleared inner
  · rw [hstripped.slice]
    exact split_cleared hnested houter
  · rw [hstripped.stripDefaults, cleared_of_free (equals_not_mem_cleared inner), hstripped.whole]

/-- A pointer to a function with parameters of its own, and a default value that is a call:
    two parameters are left. -/
theorem stripDefaults_keeps_pointer :
    let p : Text := "void attach(void (*run)(int, int) = pick(a, b[0]), int mode=0);"
    span? p = some (12, 61) ∧
      ∃ stop, span? (stripDefaults p) = some (12, stop) ∧
        (split ((stripDefaults p).slice 12 stop)).map Text.trim
          = ["void (*run)(int, int)", "int mode"].map Text.ofString := by
  intro p
  have hspan : span? p = some (12, 61) := by decide +kernel
  obtain ⟨-, stop, hstop, -, -, hparts, -⟩ :=
    stripDefaults_keeps_parameters hspan (by decide +kernel) (by decide +kernel)
  refine ⟨hspan, stop, hstop, hparts.trans ?_⟩
  decide +kernel

end SketchMerge.Parameters
