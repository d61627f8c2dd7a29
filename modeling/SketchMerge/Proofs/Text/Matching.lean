import SketchMerge.Text.Pattern

/-! # What a match consumes

    A pattern describes a set of texts, and matching picks one of them that
    stands at the front of what is left.  Two facts are used again and again:
    a match ALWAYS leads over a described text (`run_leads`), and a repetition at
    the end of a pattern goes on until no further round can be made
    (`many_exhausted`). -/

namespace SketchMerge.Pattern

-- ── What the cases of matching say ──────────────────────────────────────────

theorem run_choice (q r : Pattern) (next : Continuation) (p : Place) :
    (choice q r).run next p = (q.run next p).or (r.run next p) := by
  rw [run]
  dsimp only
  cases q.run next p <;> rfl

theorem rounds_cons (round : Continuation → Continuation) (b : Glyph) (bound : Text)
    (next : Continuation) (p : Place) :
    rounds round (b :: bound) next p = (round (rounds round bound next) p).or (next p) := by
  rw [rounds]
  dsimp only
  cases round (rounds round bound next) p <;> rfl

theorem run_one_cons (accepts : Glyph → Bool) (g : Glyph) (next : Continuation) (taken : Nat)
    (rest : Text) :
    (one accepts).run next ⟨taken, g :: rest⟩
      = if accepts g then next ⟨taken + 1, rest⟩ else none := rfl

theorem run_many (q : Pattern) (next : Continuation) (p : Place) :
    (many q).run next p = rounds q.run p.left next p := rfl

-- ── What a match leads over ─────────────────────────────────────────────────

/-- The texts that a pattern describes, whatever is preferred among them. -/
inductive Describes : Pattern → Text → Prop
  | empty : Describes .empty []
  | one {accepts : Glyph → Bool} {g : Glyph} : accepts g = true → Describes (.one accepts) [g]
  | seq {q r : Pattern} {s t : Text} :
      Describes q s → Describes r t → Describes (.seq q r) (s ++ t)
  | left {q r : Pattern} {s : Text} : Describes q s → Describes (.choice q r) s
  | right {q r : Pattern} {s : Text} : Describes r s → Describes (.choice q r) s
  | done {q : Pattern} : Describes (.many q) []
  | more {q : Pattern} {s t : Text} :
      Describes q s → Describes (.many q) t → Describes (.many q) (s ++ t)

theorem not_describes_one_nil (accepts : Glyph → Bool) : ¬ (one accepts).Describes [] := by
  intro h
  cases h

/-- A pattern that starts with a glyph describes no empty text. -/
theorem not_describes_seq_one_nil (accepts : Glyph → Bool) (q : Pattern) :
    ¬ (seq (one accepts) q).Describes [] := by
  intro h
  generalize hw : ([] : Text) = w at h
  cases h with
  | seq hs _ =>
      cases hs with
      | one _ => exact absurd hw (List.cons_ne_nil _ _).symm

/-- The place `p'` lies behind `p`, with the text `w` between them. -/
structure Place.Past (p : Place) (w : Text) (p' : Place) : Prop where
  left : p.left = w ++ p'.left
  taken : p'.taken = p.taken + w.length

theorem Place.Past.refl (p : Place) : p.Past [] p :=
  ⟨rfl, rfl⟩

theorem Place.Past.trans {p p' p'' : Place} {v w : Text} (h : p.Past v p')
    (h' : p'.Past w p'') : p.Past (v ++ w) p'' := by
  refine ⟨?_, ?_⟩
  · rw [h.left, h'.left, List.append_assoc]
  · rw [h'.taken, h.taken, List.length_append, Nat.add_assoc]

/-- A pattern leads from one place to another over a text that it describes. -/
def Leads (q : Pattern) (p p' : Place) : Prop :=
  ∃ w, q.Describes w ∧ p.Past w p'

/-- The rounds of a repetition lead over rounds, if each round does. -/
theorem rounds_leads {q : Pattern}
    (ih : ∀ (next : Continuation) (p stop : Place),
      q.run next p = some stop → ∃ p', Leads q p p' ∧ next p' = some stop)
    (next : Continuation) :
    ∀ (bound : Text) (p stop : Place), rounds q.run bound next p = some stop →
      ∃ p', Leads (.many q) p p' ∧ next p' = some stop := by
  intro bound
  induction bound with
  | nil =>
      intro p stop h
      exact ⟨p, ⟨[], .done, .refl p⟩, h⟩
  | cons b bound ihb =>
      intro p stop h
      rw [rounds_cons] at h
      cases hr : q.run (rounds q.run bound next) p with
      | none =>
          rw [hr] at h
          exact ⟨p, ⟨[], .done, .refl p⟩, h⟩
      | some stop' =>
          rw [hr] at h
          obtain ⟨p₁, ⟨v, hv, past⟩, h₁⟩ := ih _ p stop' hr
          obtain ⟨p₂, ⟨w, hw, past'⟩, h₂⟩ := ihb p₁ stop' h₁
          rw [Option.some.inj h] at h₂
          exact ⟨p₂, ⟨v ++ w, .more hv hw, past.trans past'⟩, h₂⟩

/-- **A MATCH LEADS OVER A DESCRIBED TEXT**, and goes on from there. -/
theorem run_leads {q : Pattern} :
    ∀ (next : Continuation) (p stop : Place), q.run next p = some stop →
      ∃ p', Leads q p p' ∧ next p' = some stop := by
  induction q with
  | empty =>
      intro next p stop h
      exact ⟨p, ⟨[], .empty, .refl p⟩, h⟩
  | one accepts =>
      intro next p stop h
      obtain ⟨taken, left⟩ := p
      cases left with
      | nil => exact nomatch h
      | cons g rest =>
          rw [run_one_cons] at h
          by_cases hg : accepts g = true
          · rw [if_pos hg] at h
            exact ⟨⟨taken + 1, rest⟩, ⟨[g], .one hg, rfl, rfl⟩, h⟩
          · rw [if_neg hg] at h
            exact nomatch h
  | seq q r ihq ihr =>
      intro next p stop h
      obtain ⟨p₁, ⟨v, hv, past⟩, h₁⟩ := ihq _ p stop h
      obtain ⟨p₂, ⟨w, hw, past'⟩, h₂⟩ := ihr _ p₁ stop h₁
      exact ⟨p₂, ⟨v ++ w, .seq hv hw, past.trans past'⟩, h₂⟩
  | choice q r ihq ihr =>
      intro next p stop h
      rw [run_choice] at h
      cases hq : q.run next p with
      | some stop' =>
          rw [hq] at h
          obtain ⟨p', ⟨w, hw, past⟩, h'⟩ := ihq next p stop' hq
          exact ⟨p', ⟨w, .left hw, past⟩, h'.trans h⟩
      | none =>
          rw [hq] at h
          obtain ⟨p', ⟨w, hw, past⟩, h'⟩ := ihr next p stop h
          exact ⟨p', ⟨w, .right hw, past⟩, h'⟩
  | many q ih =>
      intro next p stop h
      rw [run_many] at h
      exact rounds_leads ih next p.left p stop h

/-- The first of two patterns leads to where the second one matches. -/
theorem run_seq_leads {q r : Pattern} {next : Continuation} {p stop : Place}
    (h : (seq q r).run next p = some stop) :
    ∃ p', Leads q p p' ∧ r.run next p' = some stop :=
  run_leads (r.run next) p stop h

theorem stop?_leads {q : Pattern} {p stop : Place} (h : q.stop? p = some stop) :
    Leads q p stop := by
  obtain ⟨p', hp, h'⟩ := run_leads some p stop h
  rw [← Option.some.inj h']
  exact hp

-- ── Repetitions at the end of a pattern ─────────────────────────────────────

/-- A continuation that never fails. -/
def Total (next : Continuation) : Prop :=
  ∀ p, (next p).isSome = true

theorem total_some : Total some := fun _ => rfl

/-- A repetition can always end where it is. -/
theorem total_rounds {round : Continuation → Continuation} {next : Continuation}
    (h : Total next) (bound : Text) : Total (rounds round bound next) := by
  intro p
  cases bound with
  | nil => exact h p
  | cons b bound =>
      rw [rounds_cons]
      cases round (rounds round bound next) p with
      | some stop => rfl
      | none => exact h p

theorem total_many {q : Pattern} {next : Continuation} (h : Total next) :
    Total ((many q).run next) :=
  fun p => total_rounds h p.left p

/-- No further round can be made at a place: the text ends, or a round fails
    whatever could come after it. -/
def Exhausted (q : Pattern) (p : Place) : Prop :=
  p.left = [] ∨ ∃ next, Total next ∧ q.run next p = none

theorem rounds_exhausted {q : Pattern} (hq : ¬ q.Describes []) :
    ∀ (bound : Text) (p stop : Place), p.left.length ≤ bound.length →
      rounds q.run bound some p = some stop → q.Exhausted stop := by
  intro bound
  induction bound with
  | nil =>
      intro p stop hb h
      rw [← Option.some.inj h]
      exact .inl (List.length_eq_zero_iff.mp (Nat.le_zero.mp hb))
  | cons b bound ih =>
      intro p stop hb h
      rw [rounds_cons] at h
      cases hr : q.run (rounds q.run bound some) p with
      | none =>
          rw [hr] at h
          rw [← Option.some.inj h]
          exact .inr ⟨_, total_rounds total_some bound, hr⟩
      | some stop' =>
          rw [hr] at h
          obtain ⟨p', ⟨w, hw, past⟩, h'⟩ := run_leads _ p stop' hr
          -- a round consumes something, so what is left keeps within the bound
          have hne : w ≠ [] := fun hnil => hq (hnil ▸ hw)
          have hlen := congrArg List.length past.left
          have hpos := List.length_pos_iff.mpr hne
          rw [List.length_append] at hlen
          rw [List.length_cons] at hb
          exact ih p' stop (by omega) (h'.trans h)

/-- **A REPETITION AT THE END IS GREEDY**: it stops only where no further round
    can be made. -/
theorem many_exhausted {q : Pattern} (hq : ¬ q.Describes []) {p stop : Place}
    (h : (many q).run some p = some stop) : q.Exhausted stop :=
  rounds_exhausted hq p.left p stop (Nat.le_refl _) h

/-- A class of glyphs is exhausted at the end or before a glyph outside it. -/
theorem run_one_eq_none {accepts : Glyph → Bool} {next : Continuation} {p : Place}
    (hn : Total next) (h : (one accepts).run next p = none) :
    ∀ g ∈ p.left.head?, accepts g = false := by
  intro g hg
  obtain ⟨taken, left⟩ := p
  cases left with
  | nil => exact nomatch hg
  | cons g' rest =>
      rw [← Option.some.inj hg]
      rw [run_one_cons] at h
      cases ha : accepts g' with
      | false => rfl
      | true =>
          rw [if_pos ha] at h
          have := hn ⟨taken + 1, rest⟩
          rw [h] at this
          exact nomatch this

theorem run_choice_eq_none {q r : Pattern} {next : Continuation} {p : Place}
    (h : (choice q r).run next p = none) : q.run next p = none ∧ r.run next p = none := by
  rw [run_choice] at h
  exact Option.or_eq_none_iff.mp h

end SketchMerge.Pattern
