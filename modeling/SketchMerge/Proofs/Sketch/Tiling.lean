import SketchMerge.Proofs.Text.Matching
import SketchMerge.Sketch.Trivia
import SketchMerge.Text.Lines

/-! # Where tiles end

    The tiles of leading trivia are taken one after the other.  Each kind of tile
    ends in its own way: a run of blanks holds nothing else, a block comment ends
    in a slash, and a directive or a line comment goes on to the end of its line
    (`tile?_spec`).  At the insertion point neither a blank nor a number sign
    stands, for either would start one more tile.

    From this follows that a line which starts with a number sign and holds no
    slash is never cut: the insertion point lies in front of it or behind its
    line end (`locate_avoids_line`). -/

namespace SketchMerge.Trivia

open Pattern

/-- How a tile of a kind ends, given the tile and the text behind it. -/
def Ends : Trivia → Text → Text → Prop
  | .whitespace, w, _ => ∀ g ∈ w, g.isBlank = true
  | .blockComment, w, _ => w.getLast? = some (.char '/')
  | .directive, _, rest => ∀ g ∈ rest.head?, g = Glyph.newline
  | .lineComment, _, rest => ∀ g ∈ rest.head?, g = Glyph.newline

/-- A described text of one glyph class, taken apart. -/
theorem describes_one {accepts : Glyph → Bool} {w : Text} (h : (one accepts).Describes w) :
    ∃ g, w = [g] ∧ accepts g = true := by
  cases h with
  | one hg => exact ⟨_, rfl, hg⟩

theorem describes_many_one {accepts : Glyph → Bool} {w : Text}
    (h : (many (one accepts)).Describes w) : ∀ g ∈ w, accepts g = true := by
  generalize hq : many (one accepts) = q at h
  induction h with
  | more hs _ _ ih =>
      cases hq
      obtain ⟨g, rfl, hg⟩ := describes_one hs
      intro x hx
      rcases List.mem_append.mp hx with hx | hx
      · rw [List.mem_singleton.mp hx]
        exact hg
      · exact ih rfl x hx
  | done =>
      intro x hx
      exact nomatch hx
  | empty => cases hq
  | one _ => cases hq
  | seq _ _ => cases hq
  | left _ => cases hq
  | right _ => cases hq

/-- Behind a pattern that ends in the rest of a line there is a line end or the end
    of the text. -/
theorem newline_of_not_except {g : Glyph} (h : (!g.is '\n') = false) : g = Glyph.newline := by
  rw [Bool.not_eq_false'] at h
  exact beq_iff_eq.mp h

theorem lineComment_ends {p stop : Place} (h : lineCommentPattern.stop? p = some stop) :
    ∀ g ∈ stop.left.head?, g = Glyph.newline := by
  obtain ⟨p₁, -, h₁⟩ := run_seq_leads h
  obtain ⟨p₂, -, h₂⟩ := run_seq_leads h₁
  intro g hg
  rcases many_exhausted (not_describes_one_nil _) h₂ with hnil | ⟨next, hn, hnone⟩
  · rw [hnil] at hg
    exact nomatch hg
  · exact newline_of_not_except (run_one_eq_none hn hnone g hg)

/-- What is repeated behind the number sign of a directive. -/
def directiveRound : Pattern :=
  firstOf (chain [char '\\', optional (char '\r'), char '\n'])
    [lineCommentPattern, blockCommentPattern, except '\n']

theorem directivePattern_eq :
    directivePattern
      = seq (many (one fun g => g.is ' ' || g.is '\t'))
          (seq (one (·.is '#')) (many directiveRound)) := rfl

/-- One round of the rest of a directive consumes something. -/
theorem directiveRound_nonempty : ¬ directiveRound.Describes [] := by
  intro h
  cases h with
  | left h => exact not_describes_seq_one_nil _ _ h
  | right h =>
      cases h with
      | left h => exact not_describes_seq_one_nil _ _ h
      | right h =>
          cases h with
          | left h => exact not_describes_seq_one_nil _ _ h
          | right h => exact not_describes_one_nil _ h

theorem directive_ends {p stop : Place} (h : directivePattern.stop? p = some stop) :
    ∀ g ∈ stop.left.head?, g = Glyph.newline := by
  obtain ⟨p₁, -, h₁⟩ := run_seq_leads h
  obtain ⟨p₂, -, h₂⟩ := run_seq_leads h₁
  intro g hg
  rcases many_exhausted directiveRound_nonempty h₂ with hnil | ⟨next, hn, hnone⟩
  · rw [hnil] at hg
    exact nomatch hg
  · -- the last alternative takes any glyph of the line
    have h₃ := (run_choice_eq_none hnone).2
    have h₄ := (run_choice_eq_none h₃).2
    have h₅ := (run_choice_eq_none h₄).2
    exact newline_of_not_except (run_one_eq_none hn h₅ g hg)

theorem blockComment_ends {w : Text} (h : blockCommentPattern.Describes w) :
    w.getLast? = some (.char '/') := by
  have hlast : ∀ {q r : Pattern} {w : Text}, (seq q r).Describes w →
      ∃ s t, w = s ++ t ∧ r.Describes t := by
    intro q r w h
    cases h with
    | seq _ ht => exact ⟨_, _, rfl, ht⟩
  obtain ⟨s₁, t₁, rfl, h₁⟩ := hlast h
  obtain ⟨s₂, t₂, rfl, h₂⟩ := hlast h₁
  obtain ⟨s₃, t₃, rfl, h₃⟩ := hlast h₂
  obtain ⟨s₄, t₄, rfl, h₄⟩ := hlast h₃
  obtain ⟨s₅, t₅, rfl, h₅⟩ := hlast h₄
  obtain ⟨g, rfl, hg⟩ := describes_one h₅
  rw [beq_iff_eq.mp hg]
  simp

theorem whitespace_ends {w : Text} (h : whitespacePattern.Describes w) :
    ∀ g ∈ w, g.isBlank = true := by
  cases h with
  | seq hs ht =>
      obtain ⟨g, rfl, hg⟩ := describes_one hs
      intro x hx
      rcases List.mem_cons.mp hx with rfl | hx
      · exact hg
      · exact describes_many_one ht x hx

/-- **WHAT A TILE IS**: it is not empty, stands at the front of what is left, and ends
    in the way of its kind. -/
theorem tile?_spec {kind : Trivia} {p q : Place} (h : kind.tile? p = some q) :
    ∃ w, w ≠ [] ∧ p.Past w q ∧ kind.Ends w q.left := by
  obtain ⟨hstop, hlt⟩ := Option.filter_eq_some_iff.mp h
  obtain ⟨w, hw, past⟩ := stop?_leads hstop
  have hne : w ≠ [] := by
    rintro rfl
    have := past.taken
    rw [List.length_nil] at this
    rw [decide_eq_true_eq] at hlt
    omega
  refine ⟨w, hne, past, ?_⟩
  cases kind with
  | directive => exact directive_ends hstop
  | lineComment => exact lineComment_ends hstop
  | blockComment => exact blockComment_ends hw
  | whitespace => exact whitespace_ends hw

-- ── Which tile is taken ─────────────────────────────────────────────────────

theorem longer_mem {a b : Option (Trivia × Place)} {x : Trivia × Place}
    (h : longer a b = some x) : a = some x ∨ b = some x := by
  cases a with
  | none => exact .inr h
  | some y =>
      cases b with
      | none => exact .inl h
      | some z =>
          rw [longer] at h
          by_cases hlt : y.2.taken < z.2.taken
          · rw [if_pos hlt] at h
            exact .inr h
          · rw [if_neg hlt] at h
            exact .inl h

theorem longer_eq_none {a b : Option (Trivia × Place)} (h : longer a b = none) :
    a = none ∧ b = none := by
  cases a with
  | none => exact ⟨rfl, h⟩
  | some y =>
      cases b with
      | none => exact nomatch h
      | some z =>
          rw [longer] at h
          split at h
          · exact nomatch h
          · exact nomatch h

/-- The tile that is taken is a tile of its kind. -/
theorem longest?_tile {p q : Place} {kind : Trivia} (h : longest? p = some (kind, q)) :
    kind.tile? p = some q := by
  have hmap : ∀ k : Trivia, (k.tile? p).map (k, ·) = some (kind, q) → kind.tile? p = some q := by
    intro k hk
    obtain ⟨q', hq', heq⟩ := Option.map_eq_some_iff.mp hk
    cases heq
    exact hq'
  rcases longer_mem h with h | h
  · rcases longer_mem h with h | h
    · rcases longer_mem h with h | h
      · rcases longer_mem h with h | h
        · exact nomatch h
        · exact hmap .directive h
      · exact hmap .lineComment h
    · exact hmap .blockComment h
  · exact hmap .whitespace h

/-- Where no tile is taken, none fits. -/
theorem tile?_eq_none {p : Place} (h : longest? p = none) (kind : Trivia) :
    kind.tile? p = none := by
  obtain ⟨h, h₄⟩ := longer_eq_none h
  obtain ⟨h, h₃⟩ := longer_eq_none h
  obtain ⟨h, h₂⟩ := longer_eq_none h
  obtain ⟨-, h₁⟩ := longer_eq_none h
  cases kind with
  | directive => exact Option.map_eq_none_iff.mp h₁
  | lineComment => exact Option.map_eq_none_iff.mp h₂
  | blockComment => exact Option.map_eq_none_iff.mp h₃
  | whitespace => exact Option.map_eq_none_iff.mp h₄

/-- A pattern that takes one glyph and then repeats something makes a tile. -/
theorem tile?_ne_none {kind : Trivia} {r : Pattern} {taken : Nat} {g : Glyph} {rest : Text}
    (h : kind.pattern.stop? ⟨taken, g :: rest⟩ = (many r).run some ⟨taken + 1, rest⟩) :
    kind.tile? ⟨taken, g :: rest⟩ ≠ none := by
  have htotal := total_many (q := r) total_some ⟨taken + 1, rest⟩
  obtain ⟨stop, hstop⟩ := Option.isSome_iff_exists.mp htotal
  obtain ⟨p', ⟨w, -, past⟩, hp'⟩ := run_leads some _ stop hstop
  have hlt : taken < stop.taken := by
    rw [← Option.some.inj hp', past.taken]
    show taken < taken + 1 + w.length
    omega
  rw [tile?, h, hstop, Option.filter_some, if_pos (decide_eq_true hlt)]
  exact Option.some_ne_none stop

/-- A blank starts a tile. -/
theorem not_blank_of_no_tile {p : Place} (h : longest? p = none) :
    ∀ g ∈ p.left.head?, g.isBlank = false := by
  obtain ⟨taken, left⟩ := p
  cases left with
  | nil => exact fun g hg => nomatch hg
  | cons g rest =>
      intro g' hg
      rw [← Option.some.inj hg]
      cases hb : g.isBlank with
      | false => rfl
      | true =>
          have hrun : whitespacePattern.stop? ⟨taken, g :: rest⟩
              = (many (one Glyph.isBlank)).run some ⟨taken + 1, rest⟩ := by
            rw [stop?, whitespacePattern, oneOrMore, run, run_one_cons, if_pos hb]
          exact absurd (tile?_eq_none h .whitespace) (tile?_ne_none hrun)

/-- A number sign starts a tile. -/
theorem not_number_sign_of_no_tile {p : Place} (h : longest? p = none) :
    ∀ g ∈ p.left.head?, g ≠ .char '#' := by
  obtain ⟨taken, left⟩ := p
  cases left with
  | nil => exact fun g hg => nomatch hg
  | cons g rest =>
      intro g' hg hsign
      rw [← Option.some.inj hg] at hsign
      subst hsign
      -- no blank stands in front, so the repetition of blanks ends at once
      have hrun : directivePattern.stop? ⟨taken, .char '#' :: rest⟩
          = (many directiveRound).run some ⟨taken + 1, rest⟩ := by
        rw [stop?, directivePattern_eq, run, run_many, rounds_cons, run_one_cons,
          if_neg (by decide), Option.none_or, run, run_one_cons, if_pos (by decide)]
      exact absurd (tile?_eq_none h .directive) (tile?_ne_none hrun)

-- ── The insertion point ─────────────────────────────────────────────────────

/-- The place behind the last of at most `fuel` tiles. -/
def lastPlace : Nat → Place → Place
  | 0, p => p
  | fuel + 1, p =>
    match longest? p with
    | none => p
    | some (_, q) => lastPlace fuel q

theorem lastPlace_of_none {p : Place} (h : longest? p = none) (fuel : Nat) :
    lastPlace (fuel + 1) p = p := by
  rw [lastPlace, h]

theorem lastPlace_of_some {p q : Place} {kind : Trivia} (h : longest? p = some (kind, q))
    (fuel : Nat) : lastPlace (fuel + 1) p = lastPlace fuel q := by
  rw [lastPlace, h]

theorem spansFrom_of_none {p : Place} (h : longest? p = none) (fuel : Nat) :
    spansFrom (fuel + 1) p = [] := by
  rw [spansFrom, h]

theorem spansFrom_of_some {p q : Place} {kind : Trivia} (h : longest? p = some (kind, q))
    (fuel : Nat) :
    spansFrom (fuel + 1) p = ⟨kind, p.taken, q.taken⟩ :: spansFrom fuel q := by
  rw [spansFrom, h]

/-- What one tile keeps is kept up to the last place. -/
theorem lastPlace_keeps {P : Place → Prop}
    (step : ∀ {p q : Place} {kind : Trivia}, P p → kind.tile? p = some q → P q) :
    ∀ (fuel : Nat) (p : Place), P p → P (lastPlace fuel p) := by
  intro fuel
  induction fuel with
  | zero => exact fun p hp => hp
  | succ fuel ih =>
      intro p hp
      cases h : longest? p with
      | none =>
          rw [lastPlace_of_none h]
          exact hp
      | some x =>
          obtain ⟨kind, q⟩ := x
          rw [lastPlace_of_some h]
          exact ih q (step hp (longest?_tile h))

/-- At the last place no tile fits any more. -/
theorem longest?_lastPlace :
    ∀ (fuel : Nat) (p : Place), p.left.length ≤ fuel → longest? (lastPlace fuel p) = none := by
  intro fuel
  induction fuel with
  | zero =>
      intro p hp
      cases h : longest? p with
      | none => exact h
      | some x =>
          obtain ⟨kind, q⟩ := x
          obtain ⟨w, hne, past, -⟩ := tile?_spec (longest?_tile h)
          have hlen := congrArg List.length past.left
          have hpos := List.length_pos_iff.mpr hne
          rw [List.length_append] at hlen
          omega
  | succ fuel ih =>
      intro p hp
      cases h : longest? p with
      | none =>
          rw [lastPlace_of_none h]
          exact h
      | some x =>
          obtain ⟨kind, q⟩ := x
          obtain ⟨w, hne, past, -⟩ := tile?_spec (longest?_tile h)
          have hlen := congrArg List.length past.left
          have hpos := List.length_pos_iff.mpr hne
          rw [List.length_append] at hlen
          rw [lastPlace_of_some h]
          exact ih q (by omega)

/-- The last span ends at the last place. -/
theorem spansFrom_stop :
    ∀ (fuel : Nat) (p : Place),
      ((spansFrom fuel p).getLast?.map Span.stop).getD p.taken = (lastPlace fuel p).taken := by
  intro fuel
  induction fuel with
  | zero => exact fun p => rfl
  | succ fuel ih =>
      intro p
      cases h : longest? p with
      | none =>
          rw [spansFrom_of_none h, lastPlace_of_none h]
          rfl
      | some x =>
          obtain ⟨kind, q⟩ := x
          rw [spansFrom_of_some h, lastPlace_of_some h, ← ih q]
          cases spansFrom fuel q with
          | nil => rfl
          | cons s rest => simp [List.getLast?_cons]

/-- The place of the insertion point in a text. -/
def insertionPlace (t : Text) : Place :=
  lastPlace t.length ⟨0, t⟩

theorem locate_eq_taken (t : Text) : locate t = (insertionPlace t).taken := by
  rw [insertionPlace, ← spansFrom_stop, locate]
  cases h : (spans t).getLast? with
  | none =>
      rw [spans] at h
      rw [h]
      rfl
  | some last =>
      rw [spans] at h
      rw [h]
      rfl

theorem longest?_insertionPlace (t : Text) : longest? (insertionPlace t) = none :=
  longest?_lastPlace t.length ⟨0, t⟩ (Nat.le_refl _)

/-- A place in a text: so many of its glyphs are taken, and the others are left. -/
def Within (t : Text) (p : Place) : Prop :=
  p.taken ≤ t.length ∧ p.left = t.drop p.taken

theorem within_start (t : Text) : Within t ⟨0, t⟩ :=
  ⟨Nat.zero_le _, rfl⟩

theorem Within.past {t w : Text} {p q : Place} (h : Within t p) (past : p.Past w q) :
    Within t q ∧ ∀ i, i < w.length → t[p.taken + i]? = w[i]? := by
  obtain ⟨hle, hleft⟩ := h
  have hdrop : t.drop p.taken = w ++ q.left := hleft.symm.trans past.left
  have hlen : t.length - p.taken = w.length + q.left.length := by
    rw [← List.length_drop, hdrop, List.length_append]
  refine ⟨⟨?_, ?_⟩, ?_⟩
  · rw [past.taken]
    omega
  · rw [past.taken, ← List.drop_drop, hdrop, List.drop_left]
  · intro i hi
    rw [← List.getElem?_drop, hdrop, List.getElem?_append_left hi]

theorem Within.head? {t : Text} {p : Place} (h : Within t p) : p.left.head? = t[p.taken]? := by
  rw [h.2, List.head?_drop]

theorem within_insertionPlace (t : Text) : Within t (insertionPlace t) := by
  refine lastPlace_keeps ?_ t.length ⟨0, t⟩ (within_start t)
  intro p q kind hp hq
  obtain ⟨w, -, past, -⟩ := tile?_spec hq
  exact (hp.past past).1

theorem locate_le_length (t : Text) : locate t ≤ t.length := by
  rw [locate_eq_taken]
  exact (within_insertionPlace t).1

/-- Neither a blank nor a number sign stands at the insertion point. -/
theorem locate_not_trivia (t : Text) :
    ∀ g ∈ t[locate t]?, g.isBlank = false ∧ g ≠ .char '#' := by
  intro g hg
  rw [locate_eq_taken, ← (within_insertionPlace t).head?] at hg
  exact ⟨not_blank_of_no_tile (longest?_insertionPlace t) g hg,
    not_number_sign_of_no_tile (longest?_insertionPlace t) g hg⟩

/-- What stands in front of a place between tiles: nothing, a blank, a slash, or the
    rest of a line that is over. -/
def Settled (t : Text) (p : Place) : Prop :=
  p.taken = 0 ∨ (∃ g, t[p.taken - 1]? = some g ∧ (g.isBlank = true ∨ g = .char '/'))
    ∨ ∀ g ∈ t[p.taken]?, g = Glyph.newline

theorem Within.settled {t : Text} {p q : Place} {kind : Trivia} (h : Within t p)
    (hq : kind.tile? p = some q) : Settled t q := by
  obtain ⟨w, hne, past, hends⟩ := tile?_spec hq
  obtain ⟨hw, hget⟩ := h.past past
  have hpos := List.length_pos_iff.mpr hne
  have hlast : t[q.taken - 1]? = w.getLast? := by
    rw [past.taken, Nat.add_sub_assoc hpos, hget _ (by omega), List.getLast?_eq_getElem?]
  have hmem : ∃ g ∈ w, w.getLast? = some g :=
    ⟨w.getLast hne, List.getLast_mem hne, List.getLast?_eq_some_getLast hne⟩
  cases kind with
  | directive => exact .inr (.inr (fun g hg => hends g (by rw [hw.head?]; exact hg)))
  | lineComment => exact .inr (.inr (fun g hg => hends g (by rw [hw.head?]; exact hg)))
  | blockComment => exact .inr (.inl ⟨_, hlast.trans hends, .inr rfl⟩)
  | whitespace =>
      obtain ⟨g, hg, hlg⟩ := hmem
      exact .inr (.inl ⟨g, hlast.trans hlg, .inl (hends g hg)⟩)

/-- **WHAT STANDS IN FRONT OF THE INSERTION POINT**: nothing at all, a blank or a
    slash, unless the text ends there. -/
theorem locate_settled (t : Text) (h : locate t < t.length) :
    locate t = 0 ∨ ∃ g, t[locate t - 1]? = some g ∧ (g.isBlank = true ∨ g = .char '/') := by
  have hkept : Within t (insertionPlace t) ∧ Settled t (insertionPlace t) := by
    refine lastPlace_keeps (P := fun p => Within t p ∧ Settled t p) ?_ t.length ⟨0, t⟩
      ⟨within_start t, .inl rfl⟩
    intro p q kind hp hq
    obtain ⟨w, -, past, -⟩ := tile?_spec hq
    exact ⟨(hp.1.past past).1, hp.1.settled hq⟩
  have hsome : t[locate t]? = some t[locate t] := List.getElem?_eq_getElem h
  rcases hkept.2 with hzero | hbefore | hover
  · exact .inl ((locate_eq_taken t).trans hzero)
  · rw [← locate_eq_taken] at hbefore
    exact .inr hbefore
  · -- a line end would itself be one more tile
    rw [← locate_eq_taken] at hover
    have hblank := (locate_not_trivia t _ hsome).1
    rw [hover _ hsome] at hblank
    exact nomatch hblank

-- ── Lines that are never cut ────────────────────────────────────────────────

/-- A line of a directive that holds no slash, without its line end. -/
structure Bar (line : Text) : Prop where
  sign : line.head? = some (.char '#')
  noSlash : Glyph.char '/' ∉ line
  noNewline : Glyph.newline ∉ line

/-- The place does not cut the line that starts behind `n` glyphs. -/
def Clear (n : Nat) (line : Text) (p : Place) : Prop :=
  p.taken ≤ n ∨ n + line.length ≤ p.taken

theorem getElem?_line (before after : Text) {s : Text} {i : Nat} (h : i < s.length) :
    (before ++ s ++ Glyph.newline :: after)[before.length + i]? = s[i]? := by
  rw [List.append_assoc, List.getElem?_append_right (Nat.le_add_right _ _),
    Nat.add_sub_cancel_left, List.getElem?_append_left h]

theorem getElem?_line_end (before line after : Text) :
    (before ++ line ++ Glyph.newline :: after)[before.length + line.length]?
      = some Glyph.newline := by
  rw [List.getElem?_append_right (Nat.le_of_eq List.length_append),
    List.length_append, Nat.sub_self]
  rfl

/-- One more tile does not cut such a line. -/
theorem clear_step {before line after : Text} (bar : Bar line) {p q : Place} {kind : Trivia}
    (hp : Within (before ++ line ++ Glyph.newline :: after) p)
    (hc : Clear before.length line p) (hq : kind.tile? p = some q) :
    Clear before.length line q := by
  obtain ⟨w, hne, past, hends⟩ := tile?_spec hq
  obtain ⟨hw, hget⟩ := hp.past past
  have hpos := List.length_pos_iff.mpr hne
  have htaken := past.taken
  rcases Nat.lt_or_ge before.length q.taken with hlo | hle
  case inr => exact .inl hle
  rcases Nat.lt_or_ge q.taken (before.length + line.length) with hhi | hge
  case inr => exact .inr hge
  exfalso
  have hstop : ∀ rest : Text, q.left = rest → (∀ g ∈ rest.head?, g = Glyph.newline) → False := by
    rintro rest rfl hrest
    have hin : q.taken - before.length < line.length := by omega
    have hat := getElem?_line before after hin
    rw [Nat.add_sub_cancel' (Nat.le_of_lt hlo), List.getElem?_eq_getElem hin, ← hw.head?] at hat
    exact bar.noNewline (hrest _ hat ▸ List.getElem_mem _)
  cases kind with
  | directive => exact hstop _ rfl hends
  | lineComment => exact hstop _ rfl hends
  | blockComment =>
      -- the slash at its end would stand in the line
      have hlast := hget (w.length - 1) (by omega)
      rw [← List.getLast?_eq_getElem?, hends] at hlast
      have hat := getElem?_line before after
        (show q.taken - 1 - before.length < line.length by omega)
      rw [show before.length + (q.taken - 1 - before.length) = p.taken + (w.length - 1) by omega,
        hlast] at hat
      exact bar.noSlash (List.mem_of_getElem? hat.symm)
  | whitespace =>
      -- the number sign at the start of the line would be a blank
      have hle : p.taken ≤ before.length := by
        rcases hc with hc | hc
        · exact hc
        · omega
      have hat := getElem?_line before after
        (show 0 < line.length by omega)
      have hsign := hget (before.length - p.taken) (by omega)
      rw [show p.taken + (before.length - p.taken) = before.length + 0 by omega, hat,
        ← List.head?_eq_getElem?, bar.sign] at hsign
      have hblank := hends _ (List.mem_of_getElem? hsign.symm)
      exact nomatch hblank

/-- **THE INSERTION POINT CUTS NO BAR**: it lies in front of it or behind its line
    end. -/
theorem locate_avoids_line {before line after : Text} (bar : Bar line) :
    locate (before ++ line ++ Glyph.newline :: after) < before.length
      ∨ before.length + line.length < locate (before ++ line ++ Glyph.newline :: after) := by
  generalize ht : before ++ line ++ Glyph.newline :: after = t
  have hkept : Within t (insertionPlace t) ∧ Clear before.length line (insertionPlace t) := by
    refine lastPlace_keeps (P := fun p => Within t p ∧ Clear before.length line p) ?_ t.length
      ⟨0, t⟩ ⟨within_start t, .inl (Nat.zero_le _)⟩
    intro p q kind hp hq
    obtain ⟨w, -, past, -⟩ := tile?_spec hq
    subst ht
    exact ⟨(hp.1.past past).1, clear_step bar hp.1 hp.2 hq⟩
  have hnot := locate_not_trivia t
  have hpos : 0 < line.length := by
    cases hl : line with
    | nil =>
        have := bar.sign
        rw [hl] at this
        exact nomatch this
    | cons g rest => exact Nat.succ_pos _
  rcases hkept.2 with hle | hge
  · rw [← locate_eq_taken] at hle
    refine .inl (Nat.lt_of_le_of_ne hle fun heq => ?_)
    have hat := getElem?_line before after hpos
    rw [ht, Nat.add_zero, ← heq, ← List.head?_eq_getElem?, bar.sign] at hat
    exact (hnot _ hat).2 rfl
  · rw [← locate_eq_taken] at hge
    refine .inr (Nat.lt_of_le_of_ne hge fun heq => ?_)
    have hat := getElem?_line_end before line after
    rw [ht, heq] at hat
    exact nomatch (hnot _ hat).1

end SketchMerge.Trivia
