import SketchMerge.Text.Lines

/-! # Cutting texts into parts

    A text is cut at every glyph of a class.  A cut separates what stands in
    front of it from what stands behind it, so the parts of two texts with a cut
    between them are the parts of one followed by the parts of the other. -/

namespace SketchMerge

-- ── Single characters ───────────────────────────────────────────────────────

theorem Glyph.is_iff {g : Glyph} {c : Char} : g.is c = true ↔ g = .char c :=
  beq_iff_eq

theorem any_is {c : Char} {t : Text} : t.any (·.is c) = true ↔ Glyph.char c ∈ t := by
  rw [List.any_eq_true]
  constructor
  · rintro ⟨g, hg, h⟩
    exact Glyph.is_iff.mp h ▸ hg
  · intro h
    exact ⟨_, h, Glyph.is_iff.mpr rfl⟩

/-- Everything in a text without the character `c` is kept by a run of other glyphs. -/
theorem not_is_of_not_mem {c : Char} {t : Text} (h : Glyph.char c ∉ t) :
    ∀ g ∈ t, (!g.is c) = true := by
  intro g hg
  rw [Bool.not_eq_true', Glyph.is, beq_eq_false_iff_ne]
  exact fun heq => h (heq ▸ hg)

-- ── A list around one of its entries ────────────────────────────────────────

theorem exists_around {α : Type} {xs : List α} {i : Nat} {x : α} (h : xs[i]? = some x) :
    ∃ before after, xs = before ++ x :: after ∧ before.length = i := by
  obtain ⟨hlt, rfl⟩ := List.getElem?_eq_some_iff.mp h
  refine ⟨xs.take i, xs.drop (i + 1), ?_, List.length_take_of_le (Nat.le_of_lt hlt)⟩
  rw [List.getElem_cons_drop hlt, List.take_append_drop]

theorem getElem?_around {α : Type} (before : List α) (x : α) (after : List α) :
    (before ++ x :: after)[before.length]? = some x := by
  rw [List.getElem?_append_right (Nat.le_refl _), Nat.sub_self, List.getElem?_cons_zero]

/-- Of two entries of a list, they are the same one or one comes before the other. -/
theorem around_order {α : Type} {before before' after after' : List α} {x x' : α}
    (h : before ++ x :: after = before' ++ x' :: after') :
    (before = before' ∧ x = x' ∧ after = after') ∨ (∃ mid, before' = before ++ x :: mid)
      ∨ ∃ mid, before = before' ++ x' :: mid := by
  rcases List.append_eq_append_iff.mp h with ⟨mid, hbefore, hcons⟩ | ⟨mid, hbefore, hcons⟩
  · rcases List.cons_eq_append_iff.mp hcons with ⟨rfl, hrest⟩ | ⟨rest, rfl, -⟩
    · obtain ⟨rfl, rfl⟩ := List.cons.inj hrest
      exact .inl ⟨by rw [hbefore, List.append_nil], rfl, rfl⟩
    · exact .inr (.inl ⟨rest, hbefore⟩)
  · rcases List.cons_eq_append_iff.mp hcons with ⟨rfl, hrest⟩ | ⟨rest, rfl, -⟩
    · obtain ⟨rfl, rfl⟩ := List.cons.inj hrest
      exact .inl ⟨by rw [hbefore, List.append_nil], rfl, rfl⟩
    · exact .inr (.inr ⟨rest, hbefore⟩)

/-- An entry of two lists put together is one of the first or one of the second. -/
theorem entry_of_append {α : Type} {xs ys before after : List α} {x : α}
    (h : xs ++ ys = before ++ x :: after) :
    (∃ mid, xs = before ++ x :: mid) ∨ ∃ mid, before = xs ++ mid ∧ ys = mid ++ x :: after := by
  rcases List.append_eq_append_iff.mp h with ⟨mid, hbefore, hys⟩ | ⟨mid, hxs, hcons⟩
  · exact .inr ⟨mid, hbefore, hys⟩
  · rcases List.cons_eq_append_iff.mp hcons with ⟨rfl, hys⟩ | ⟨rest, rfl, -⟩
    · exact .inr ⟨[], by rw [hxs, List.append_nil, List.append_nil], hys⟩
    · exact .inl ⟨rest, hxs⟩

/-- What stands in front of a list and is without an entry stands in front of the entry. -/
theorem prefix_before_iff {α : Type} {w before rest : List α} {x : α} (hw : x ∉ w) :
    w <+: before ++ x :: rest ↔ w <+: before := by
  constructor
  · intro h
    rcases List.prefix_or_prefix_of_prefix h (List.prefix_append before _) with hw' | ⟨u, rfl⟩
    · exact hw'
    · cases u with
      | nil => exact (List.append_nil before).symm ▸ List.prefix_rfl
      | cons y u =>
          obtain ⟨rfl, -⟩ := List.cons_prefix_cons.mp ((List.prefix_append_right_inj before).mp h)
          exact absurd (List.mem_append_right before (List.mem_cons_self ..)) hw
  · intro h
    exact h.trans (List.prefix_append _ _)

/-- A member has a last occurrence. -/
theorem exists_last_of_mem {α : Type} {x : α} {xs : List α} (h : x ∈ xs) :
    ∃ before after, xs = before ++ x :: after ∧ x ∉ after := by
  obtain ⟨after, before, hxs, hafter⟩ := List.eq_append_cons_of_mem (List.mem_reverse.mpr h)
  refine ⟨before.reverse, after.reverse, ?_, fun h => hafter (List.mem_reverse.mp h)⟩
  rw [← List.reverse_reverse xs, hxs]
  simp

namespace Text

variable {p : Glyph → Bool}

theorem splitAtEach_ne_nil (p : Glyph → Bool) (t : Text) : splitAtEach p t ≠ [] := by
  cases t with
  | nil => exact List.cons_ne_nil _ _
  | cons g rest =>
      rw [splitAtEach]
      by_cases hg : p g = true
      · rw [if_pos hg]
        exact List.cons_ne_nil _ _
      · rw [if_neg hg]
        cases splitAtEach p rest with
        | nil => exact List.cons_ne_nil _ _
        | cons part parts => exact List.cons_ne_nil _ _

theorem splitAtEach_cons_cut {g : Glyph} (hg : p g = true) (rest : Text) :
    splitAtEach p (g :: rest) = [] :: splitAtEach p rest := by
  rw [splitAtEach, if_pos hg]

theorem splitAtEach_cons_kept {g : Glyph} (hg : p g = false) {rest part : Text}
    {parts : List Text} (h : splitAtEach p rest = part :: parts) :
    splitAtEach p (g :: rest) = (g :: part) :: parts := by
  rw [splitAtEach, if_neg (by rw [hg]; exact Bool.false_ne_true), h]

/-- **A CUT SEPARATES**: the parts in front of it and the parts behind it. -/
theorem splitAtEach_append_cut {g : Glyph} (hg : p g = true) (s t : Text) :
    splitAtEach p (s ++ g :: t) = splitAtEach p s ++ splitAtEach p t := by
  induction s with
  | nil => exact splitAtEach_cons_cut hg t
  | cons a s ih =>
      rw [List.cons_append]
      by_cases ha : p a = true
      · rw [splitAtEach_cons_cut ha, splitAtEach_cons_cut ha, ih]
        rfl
      · have ha : p a = false := Bool.not_eq_true _ ▸ ha
        obtain ⟨part, parts, hparts⟩ := List.exists_cons_of_ne_nil (splitAtEach_ne_nil p s)
        rw [hparts, List.cons_append] at ih
        rw [splitAtEach_cons_kept ha ih, splitAtEach_cons_kept ha hparts]
        rfl

/-- A text without a cut is its only part. -/
theorem splitAtEach_of_free {t : Text} (h : ∀ g ∈ t, p g = false) : splitAtEach p t = [t] := by
  induction t with
  | nil => rfl
  | cons g rest ih =>
      have hrest : ∀ x ∈ rest, p x = false := fun x hx => h x (List.mem_cons_of_mem _ hx)
      exact splitAtEach_cons_kept (h g (List.mem_cons_self ..)) (ih hrest)

theorem joinWith_singleton (sep part : Text) : joinWith sep [part] = part := by
  simp [joinWith]

theorem joinWith_cons_cons (sep first second : Text) (parts : List Text) :
    joinWith sep (first :: second :: parts)
      = first ++ (sep ++ joinWith sep (second :: parts)) := by
  simp [joinWith, List.intersperse]

theorem joinWith_prefix_concat (sep : Text) (parts : List Text) (last : Text) :
    joinWith sep parts <+: joinWith sep (parts ++ [last]) := by
  induction parts with
  | nil => exact List.nil_prefix
  | cons first parts ih =>
      cases parts with
      | nil =>
          rw [joinWith_singleton]
          exact List.prefix_append _ _
      | cons second parts =>
          rw [joinWith_cons_cons]
          refine (List.prefix_append_right_inj first).mpr ?_
          exact (List.prefix_append_right_inj sep).mpr ih

/-- A glyph of parts put together is one of a part or of what stands between them. -/
theorem mem_joinWith {sep : Text} {parts : List Text} {g : Glyph} (h : g ∈ joinWith sep parts) :
    g ∈ sep ∨ ∃ part ∈ parts, g ∈ part := by
  induction parts with
  | nil => exact nomatch h
  | cons first parts ih =>
      cases parts with
      | nil =>
          rw [joinWith_singleton] at h
          exact .inr ⟨first, List.mem_cons_self .., h⟩
      | cons second parts =>
          rw [joinWith_cons_cons, List.mem_append, List.mem_append] at h
          rcases h with h | h | h
          · exact .inr ⟨first, List.mem_cons_self .., h⟩
          · exact .inl h
          · rcases ih h with hsep | ⟨part, hpart, hg⟩
            · exact .inl hsep
            · exact .inr ⟨part, List.mem_cons_of_mem _ hpart, hg⟩

theorem mem_joinWith_of_mem (sep : Text) {parts : List Text} {part : Text} (hpart : part ∈ parts)
    {g : Glyph} (hg : g ∈ part) : g ∈ joinWith sep parts := by
  induction parts with
  | nil => exact absurd hpart List.not_mem_nil
  | cons first parts ih =>
      cases parts with
      | nil =>
          rw [joinWith_singleton]
          exact List.mem_singleton.mp hpart ▸ hg
      | cons second parts =>
          rw [joinWith_cons_cons]
          rcases List.mem_cons.mp hpart with rfl | hpart
          · exact List.mem_append_left _ hg
          · exact List.mem_append_right _ (List.mem_append_right _ (ih hpart))

/-- Parts put together with a cut between neighbours are found again. -/
theorem splitAtEach_joinWith {g : Glyph} (hg : p g = true) :
    ∀ (first : Text) (parts : List Text), (∀ t ∈ first :: parts, ∀ x ∈ t, p x = false) →
      splitAtEach p (joinWith [g] (first :: parts)) = first :: parts := by
  intro first parts
  induction parts generalizing first with
  | nil =>
      intro h
      rw [joinWith_singleton]
      exact splitAtEach_of_free (h first (List.mem_cons_self ..))
  | cons second parts ih =>
      intro h
      rw [joinWith_cons_cons, List.singleton_append, splitAtEach_append_cut hg,
        ih second (fun t ht => h t (List.mem_cons_of_mem _ ht)),
        splitAtEach_of_free (h first (List.mem_cons_self ..))]
      rfl

/-- The same with a first part that is cut itself. -/
theorem splitAtEach_joinWith_behind {g : Glyph} (hg : p g = true) (first : Text)
    {parts : List Text} (h : ∀ t ∈ parts, ∀ x ∈ t, p x = false) :
    splitAtEach p (joinWith [g] (first :: parts)) = splitAtEach p first ++ parts := by
  cases parts with
  | nil => rw [joinWith_singleton, List.append_nil]
  | cons second parts =>
      rw [joinWith_cons_cons, List.singleton_append, splitAtEach_append_cut hg,
        splitAtEach_joinWith hg second parts h]

/-- The parts stand in the text, and the first one in front. -/
theorem splitAtEach_infix (p : Glyph → Bool) (t : Text) :
    (∀ part parts, splitAtEach p t = part :: parts → part <+: t) ∧
      ∀ part ∈ splitAtEach p t, part <:+: t := by
  induction t with
  | nil =>
      refine ⟨fun _ _ h => (List.cons.inj h).1 ▸ List.nil_prefix, fun part hpart => ?_⟩
      exact List.mem_singleton.mp hpart ▸ List.nil_infix
  | cons g t ih =>
      obtain ⟨part, parts, hparts⟩ := List.exists_cons_of_ne_nil (splitAtEach_ne_nil p t)
      rw [hparts] at ih
      by_cases hg : p g = true
      · rw [splitAtEach_cons_cut hg, hparts]
        refine ⟨fun _ _ h => (List.cons.inj h).1 ▸ List.nil_prefix, fun x hx => ?_⟩
        rcases List.mem_cons.mp hx with rfl | hx
        · exact List.nil_infix
        · exact List.infix_cons (ih.2 x hx)
      · rw [splitAtEach_cons_kept (Bool.eq_false_iff.mpr hg) hparts]
        have hfirst : g :: part <+: g :: t :=
          List.cons_prefix_cons.mpr ⟨rfl, ih.1 part parts rfl⟩
        refine ⟨fun _ _ h => (List.cons.inj h).1 ▸ hfirst, fun x hx => ?_⟩
        rcases List.mem_cons.mp hx with rfl | hx
        · exact hfirst.isInfix
        · exact List.infix_cons (ih.2 x (List.mem_cons_of_mem _ hx))

-- ── The line that is not over ───────────────────────────────────────────────

/-- The lines of a text that only newlines end. -/
def linesOf (t : Text) : List Text :=
  splitAtEach (· == Glyph.newline) t

theorem linesOf_line {l : Text} (hl : Glyph.newline ∉ l) (t : Text) :
    linesOf (l ++ Glyph.newline :: t) = l :: linesOf t := by
  have hfree : ∀ g ∈ l, (g == Glyph.newline) = false :=
    fun g hg => beq_eq_false_iff_ne.mpr fun h => hl (h ▸ hg)
  rw [linesOf, splitAtEach_append_cut (p := (· == Glyph.newline)) (beq_self_eq_true _),
    splitAtEach_of_free hfree]
  rfl

/-- The line that is being read after a text, if `l` was being read before it. -/
def lastLineAfter (l t : Text) : Text :=
  t.foldl (fun l g => if g = Glyph.newline then [] else l ++ [g]) l

/-- The part of a text behind its last newline. -/
def lastLine (t : Text) : Text :=
  lastLineAfter [] t

theorem lastLineAfter_cons (l t : Text) {g : Glyph} (hg : g ≠ Glyph.newline) :
    lastLineAfter l (g :: t) = lastLineAfter (l ++ [g]) t := by
  rw [lastLineAfter, List.foldl_cons, if_neg hg, lastLineAfter]

theorem lastLineAfter_append (l s t : Text) :
    lastLineAfter l (s ++ t) = lastLineAfter (lastLineAfter l s) t :=
  List.foldl_append ..

theorem lastLineAfter_of_free (l : Text) {t : Text} (ht : Glyph.newline ∉ t) :
    lastLineAfter l t = l ++ t := by
  induction t generalizing l with
  | nil => exact (List.append_nil l).symm
  | cons g t ih =>
      obtain ⟨hg, ht⟩ := not_or.mp (fun h => ht (List.mem_cons.mpr h))
      rw [lastLineAfter_cons l t (Ne.symm hg), ih _ ht, List.append_assoc]
      rfl

theorem lastLine_append (s : Text) {t : Text} (ht : Glyph.newline ∉ t) :
    lastLine (s ++ t) = lastLine s ++ t := by
  rw [lastLine, lastLineAfter_append, lastLineAfter_of_free _ ht, lastLine]

theorem lastLine_newline (t : Text) : lastLine (t ++ [Glyph.newline]) = [] := by
  rw [lastLine, lastLineAfter_append]
  rfl

/-- What is being read stands at the end. -/
theorem lastLineAfter_suffix (l t : Text) : lastLineAfter l t <:+ l ++ t := by
  induction t generalizing l with
  | nil =>
      rw [List.append_nil]
      exact List.suffix_refl l
  | cons g t ih =>
      by_cases hg : g = Glyph.newline
      · subst hg
        exact (ih []).trans ⟨l ++ [Glyph.newline], by simp⟩
      · rw [lastLineAfter_cons l t hg, List.append_cons l g t]
        exact ih _

theorem lastLine_suffix (t : Text) : lastLine t <:+ t :=
  lastLineAfter_suffix [] t

/-- The line that is being read is the last one. -/
theorem lastLineAfter_mem {l : Text} (hl : Glyph.newline ∉ l) (t : Text) :
    lastLineAfter l t ∈ linesOf (l ++ t) := by
  induction t generalizing l with
  | nil =>
      have hfree : ∀ g ∈ l, (g == Glyph.newline) = false :=
        fun g hg => beq_eq_false_iff_ne.mpr fun h => hl (h ▸ hg)
      rw [List.append_nil, linesOf, splitAtEach_of_free hfree]
      exact List.mem_singleton.mpr rfl
  | cons g t ih =>
      by_cases hg : g = Glyph.newline
      · subst hg
        rw [linesOf, splitAtEach_append_cut (p := (· == Glyph.newline)) (beq_self_eq_true _)]
        exact List.mem_append_right _ (ih (List.not_mem_nil))
      · have hl' : Glyph.newline ∉ l ++ [g] := by
          intro h
          rcases List.mem_append.mp h with h | h
          · exact hl h
          · exact hg (List.mem_singleton.mp h).symm
        rw [lastLineAfter_cons l t hg, List.append_cons]
        exact ih hl'

/-- The part behind the last newline is a line of the whole as soon as it is over. -/
theorem lastLine_mem (s t : Text) : lastLine s ∈ linesOf (s ++ Glyph.newline :: t) := by
  rw [linesOf, splitAtEach_append_cut (p := (· == Glyph.newline)) (beq_self_eq_true _)]
  exact List.mem_append_left _ (lastLineAfter_mem List.not_mem_nil s)

end Text

end SketchMerge
