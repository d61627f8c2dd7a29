import SketchMerge.Proofs.Sketch.Tiling
import SketchMerge.Proofs.Text.Repetition
import SketchMerge.Proofs.Text.Splitting

/-! # Trivia without backtracking

    The patterns of trivia are matched by trying: a repetition is made longer and
    then, if nothing comes of it, shorter again.  None of that is needed.  A block
    comment ends at the FIRST star and slash behind its opening (`run_blockComment`),
    however its pattern groups the stars in between.  A directive is read from left
    to right by one small step after the other, and the first step that applies is
    the one that matching takes too (`run_directiveRound`).

    So each pattern equals a scanner that moves forward only
    (`patterns_scan_forward`). -/

namespace SketchMerge

/-- Where a text is found first. -/
theorem Text.find?_eq_some_iff {s t : Text} {k : Nat} (hs : s ≠ []) :
    find? s t = some k ↔ s <+: t.drop k ∧ ∀ j, j < k → ¬ s <+: t.drop j := by
  induction t generalizing k with
  | nil =>
      have hnot : s.isEmpty = false := List.isEmpty_eq_false_iff.mpr hs
      simp [find?, hnot, List.prefix_nil, hs]
  | cons g rest ih =>
      rw [find?]
      by_cases hfirst : s <+: g :: rest
      · rw [if_pos (List.isPrefixOf_iff_prefix.mpr hfirst)]
        constructor
        · intro h
          cases h
          exact ⟨hfirst, fun j hj => absurd hj (Nat.not_lt_zero j)⟩
        · rintro ⟨-, hnone⟩
          cases k with
          | zero => rfl
          | succ k => exact absurd hfirst (hnone 0 (Nat.succ_pos k))
      · rw [if_neg (fun h => hfirst (List.isPrefixOf_iff_prefix.mp h)), Option.map_eq_some_iff]
        constructor
        · rintro ⟨k', hk', rfl⟩
          obtain ⟨hat, hbefore⟩ := ih.mp hk'
          refine ⟨hat, fun j hj => ?_⟩
          cases j with
          | zero => exact hfirst
          | succ j => exact hbefore j (by omega)
        · rintro ⟨hat, hbefore⟩
          cases k with
          | zero => exact absurd hat hfirst
          | succ k => exact ⟨k, ih.mpr ⟨hat, fun j hj => hbefore (j + 1) (by omega)⟩, rfl⟩

namespace Pattern

/-- The place `n` glyphs further on. -/
def Place.ahead (n : Nat) (p : Place) : Place :=
  ⟨p.taken + n, p.left.drop n⟩

/-- The text `s` stands at the place. -/
def Place.shows (p : Place) (s : Text) : Bool :=
  s.isPrefixOf p.left

theorem Place.shows_iff {p : Place} {s : Text} : p.shows s = true ↔ s <+: p.left :=
  List.isPrefixOf_iff_prefix

theorem Place.shows_two_iff {p : Place} {c d : Char} :
    p.shows [.char c, .char d] = true ↔ ∃ rest, p.left = .char c :: .char d :: rest := by
  rw [Place.shows_iff]
  constructor
  · rintro ⟨rest, hrest⟩
    exact ⟨rest, hrest.symm⟩
  · rintro ⟨rest, hrest⟩
    exact ⟨rest, hrest.symm⟩

theorem Place.shows_cons (n : Nat) (g : Glyph) (rest : Text) (c : Char) (s : Text) :
    Place.shows ⟨n, g :: rest⟩ (.char c :: s) = (g.is c && Place.shows ⟨n + 1, rest⟩ s) := by
  show ((Glyph.char c == g) && s.isPrefixOf rest) = ((g == Glyph.char c) && s.isPrefixOf rest)
  rw [Bool.beq_comm]

end Pattern

namespace Trivia

open Pattern

-- ── Block comments end at the first star and slash ──────────────────────────

/-- The place behind the first star and slash. -/
def closing? (p : Place) : Option Place :=
  (Text.find? "*/" p.left).map fun k => p.ahead (k + 2)

/-- The place behind a block comment. -/
def blockStop? (p : Place) : Option Place :=
  if p.shows "/*" then closing? (p.ahead 2) else none

theorem closing?_closed (n : Nat) (rest : Text) :
    closing? ⟨n, .char '*' :: .char '/' :: rest⟩ = some ⟨n + 2, rest⟩ := rfl

theorem closing?_cons (n : Nat) (g : Glyph) (rest : Text)
    (h : g = .char '*' → rest.head? ≠ some (.char '/')) :
    closing? ⟨n, g :: rest⟩ = closing? ⟨n + 1, rest⟩ := by
  have hfirst : ¬ ("*/" : Text).isPrefixOf (g :: rest) = true := by
    intro hp
    obtain ⟨rest', hrest⟩ := List.isPrefixOf_iff_prefix.mp hp
    obtain ⟨hg, hr⟩ := List.cons.inj hrest
    exact h hg.symm (by rw [← hr]; rfl)
  rw [closing?, Text.find?, if_neg hfirst, closing?, Option.map_map]
  congr 1
  funext k
  simp only [Function.comp, Place.ahead, List.drop_succ_cons]
  congr 1
  omega

/-- The middle of the pattern of block comments: what stands between two runs of
    stars, with the second run. -/
def betweenStars : Pattern :=
  chain [one fun g => !g.is '/' && !g.is '*', many (except '*'), oneOrMore (char '*')]

/-- The end of the pattern of block comments, from behind a run of stars on. -/
def behindStars (next : Continuation) : Continuation :=
  (many betweenStars).run ((char '/').run next)

theorem behindStars_unfold (next : Continuation) (p : Place) :
    behindStars next p = (betweenStars.run (behindStars next) p).or ((char '/').run next p) :=
  run_many_unfold (not_describes_seq_one_nil _ _) _ p

theorem run_char_cons (c : Char) (next : Continuation) (n : Nat) (g : Glyph) (rest : Text) :
    (char c).run next ⟨n, g :: rest⟩ = if g.is c then next ⟨n + 1, rest⟩ else none := rfl

theorem run_except_cons (c : Char) (next : Continuation) (n : Nat) (g : Glyph) (rest : Text) :
    (except c).run next ⟨n, g :: rest⟩ = if !g.is c then next ⟨n + 1, rest⟩ else none := rfl

/-- Behind a run of stars, any glyph but a slash leads to the next run of stars. -/
theorem behindStars_other (next : Continuation) (n : Nat) {g : Glyph} (rest : Text)
    (hslash : g.is '/' = false) (hstar : g.is '*' = false) :
    behindStars next ⟨n, g :: rest⟩
      = (many (except '*')).run ((oneOrMore (char '*')).run (behindStars next)) ⟨n + 1, rest⟩ := by
  have hround : betweenStars.run (behindStars next) ⟨n, g :: rest⟩
      = (many (except '*')).run ((oneOrMore (char '*')).run (behindStars next)) ⟨n + 1, rest⟩ := by
    rw [show betweenStars.run (behindStars next) ⟨n, g :: rest⟩
        = if !g.is '/' && !g.is '*' then (many (except '*')).run
            ((oneOrMore (char '*')).run (behindStars next)) ⟨n + 1, rest⟩ else none from rfl,
      hslash, hstar]
    rfl
  rw [behindStars_unfold, hround, run_char_cons, hslash, if_neg Bool.false_ne_true, Option.or_none]

/-- The pattern of block comments finds the first star and slash: from any place in the
    comment on, and from a place with a star in front. -/
theorem run_toStars (next : Continuation) (rest : Text) :
    ∀ n, ((many (except '*')).run ((oneOrMore (char '*')).run (behindStars next)) ⟨n, rest⟩
        = (closing? ⟨n, rest⟩).bind next)
      ∧ ((many (char '*')).run (behindStars next) ⟨n + 1, rest⟩
        = (closing? ⟨n, .char '*' :: rest⟩).bind next) := by
  induction rest with
  | nil =>
      intro n
      constructor
      · rfl
      · rfl
  | cons g rest ih =>
      intro n
      rw [run_many_unfold (q := except '*') (not_describes_one_nil _), run_except_cons,
        run_many_unfold (q := char '*') (not_describes_one_nil _), run_char_cons,
        show (oneOrMore (char '*')).run (behindStars next) ⟨n, g :: rest⟩
          = if g.is '*' then (many (char '*')).run (behindStars next) ⟨n + 1, rest⟩ else none
          from rfl]
      cases hstar : g.is '*' with
      | true =>
          rw [Glyph.is_iff.mp hstar]
          constructor
          · exact (ih n).2
          · -- one more star of the run: nothing can end at it
            rw [behindStars_unfold, closing?_cons n (.char '*') (.char '*' :: rest) (by simp)]
            exact Option.or_none.trans (ih (n + 1)).2
      | false =>
          have hne : g ≠ .char '*' := fun h => Bool.eq_false_iff.mp hstar (Glyph.is_iff.mpr h)
          constructor
          · rw [closing?_cons n g rest fun h => absurd h hne]
            exact Option.or_none.trans (ih (n + 1)).1
          · cases hslash : g.is '/' with
            | true =>
                rw [Glyph.is_iff.mp hslash, behindStars_unfold]
                rfl
            | false =>
                have hne' : g ≠ .char '/' := fun h =>
                  Bool.eq_false_iff.mp hslash (Glyph.is_iff.mpr h)
                rw [behindStars_other next (n + 1) rest hslash hstar,
                  closing?_cons n (.char '*') (g :: rest) fun _ h => hne' (Option.some.inj h),
                  closing?_cons (n + 1) g rest fun h => absurd h hne]
                exact Option.none_or.trans (ih (n + 2)).1

/-- **A BLOCK COMMENT ENDS AT THE FIRST STAR AND SLASH**, whatever comes next. -/
theorem run_blockComment (next : Continuation) (p : Place) :
    blockCommentPattern.run next p = (blockStop? p).bind next := by
  obtain ⟨n, left⟩ := p
  have hrun : blockCommentPattern.run next
      = (char '/').run ((char '*').run
          ((many (except '*')).run ((oneOrMore (char '*')).run (behindStars next)))) := rfl
  rw [hrun, blockStop?]
  by_cases hshows : Place.shows ⟨n, left⟩ "/*" = true
  · obtain ⟨rest, rfl⟩ := Place.shows_iff.mp hshows
    rw [if_pos hshows]
    exact (run_toStars next rest (n + 2)).1
  · rw [if_neg hshows]
    -- one of the two glyphs is missing
    cases left with
    | nil => rfl
    | cons g rest =>
        rw [run_char_cons]
        cases hg : g.is '/' with
        | false => rfl
        | true =>
            cases rest with
            | nil => rfl
            | cons g' rest =>
                rw [if_pos rfl, run_char_cons]
                cases hg' : g'.is '*' with
                | false => rfl
                | true =>
                    refine absurd (Place.shows_iff.mpr ⟨rest, ?_⟩) hshows
                    rw [Glyph.is_iff.mp hg, Glyph.is_iff.mp hg']
                    rfl

-- ── Directives are read by steps ────────────────────────────────────────────

/-- The next newline, or the end of the text. -/
def lineStop (p : Place) : Place :=
  p.behind (!·.is '\n')

/-- Over any glyph but a newline. -/
def glyphStep? (p : Place) : Option Place :=
  match p.left with
  | [] => none
  | g :: _ => if g.is '\n' then none else some (p.ahead 1)

theorem run_except_newline (next : Continuation) (p : Place) :
    (except '\n').run next p = (glyphStep? p).bind next := by
  obtain ⟨n, left⟩ := p
  cases left with
  | nil => rfl
  | cons g rest =>
      rw [run_except_cons, glyphStep?]
      dsimp only
      cases g.is '\n' with
      | false => rfl
      | true => rfl

/-- One step of reading a directive, the first of these that applies: over a backslash and
    the line end behind it; over a line comment; over a block comment; over any glyph but
    a newline. -/
def directiveStep? (p : Place) : Option Place :=
  if p.shows "\\\n" then some (p.ahead 2)
  else if p.shows "\\\r\n" then some (p.ahead 3)
  else if p.shows "//" then some (lineStop p)
  else (blockStop? p).or (glyphStep? p)

/-- A backslash and the line end behind it, which may have a carriage return. -/
def splicePattern : Pattern :=
  chain [char '\\', optional (char '\r'), char '\n']

theorem run_splice (next : Continuation) (p : Place) :
    splicePattern.run next p
      = if p.shows "\\\n" then next (p.ahead 2)
        else if p.shows "\\\r\n" then next (p.ahead 3) else none := by
  obtain ⟨n, left⟩ := p
  have hrun : splicePattern.run next
      = (char '\\').run ((optional (char '\r')).run ((char '\n').run next)) := rfl
  rw [hrun, show Text.ofString "\\\n" = [.char '\\', .char '\n'] from rfl,
    show Text.ofString "\\\r\n" = [.char '\\', .char '\r', .char '\n'] from rfl]
  cases left with
  | nil => rfl
  | cons g rest =>
      rw [run_char_cons, Place.shows_cons, Place.shows_cons]
      cases g.is '\\' with
      | false => rfl
      | true =>
          rw [Bool.true_and, Bool.true_and, if_pos rfl, Pattern.optional, run_choice]
          cases rest with
          | nil => rfl
          | cons g' rest =>
              rw [run_char_cons, Place.shows_cons, Place.shows_cons, run, run_char_cons]
              cases hret : g'.is '\r' with
              | false =>
                  cases g'.is '\n' with
                  | false => rfl
                  | true => rfl
              | true =>
                  rw [Glyph.is_iff.mp hret]
                  cases rest with
                  | nil => rfl
                  | cons g'' rest =>
                      rw [Place.shows_cons, if_pos rfl, run_char_cons]
                      cases g''.is '\n' with
                      | false => rfl
                      | true => exact Option.or_none

/-- A line comment is taken up to the next newline, if what comes next cannot fail. -/
theorem run_lineComment {next : Continuation} (hn : Total next) (p : Place) :
    lineCommentPattern.run next p = if p.shows "//" then next (lineStop p) else none := by
  obtain ⟨n, left⟩ := p
  have hrun : lineCommentPattern.run next
      = (char '/').run ((char '/').run ((many (except '\n')).run next)) := rfl
  rw [hrun, show Text.ofString "//" = [.char '/', .char '/'] from rfl]
  cases left with
  | nil => rfl
  | cons g rest =>
      rw [run_char_cons, Place.shows_cons]
      cases hg : g.is '/' with
      | false => rfl
      | true =>
          cases rest with
          | nil => rfl
          | cons g' rest =>
              rw [run_char_cons, Place.shows_cons]
              cases hg' : g'.is '/' with
              | false => rfl
              | true =>
                  rw [Glyph.is_iff.mp hg, Glyph.is_iff.mp hg', lineStop,
                    Place.behind_cons_of_pos (by decide), Place.behind_cons_of_pos (by decide)]
                  exact run_many_one _ (.inl (hn _))

/-- What cannot fail leaves nothing to try. -/
theorem Total.or_eq {next : Continuation} (hn : Total next) (p : Place) (other : Option Place) :
    (next p).or other = next p := by
  obtain ⟨stop, hstop⟩ := Option.isSome_iff_exists.mp (hn p)
  rw [hstop, Option.some_or]

/-- **THE FIRST STEP THAT APPLIES IS THE ONE THAT IS TAKEN**, if what comes next cannot
    fail. -/
theorem run_directiveRound {next : Continuation} (hn : Total next) (p : Place) :
    directiveRound.run next p = (directiveStep? p).bind next := by
  have hround : directiveRound
      = choice splicePattern (choice lineCommentPattern
          (choice blockCommentPattern (except '\n'))) := rfl
  rw [hround, run_choice, run_choice, run_choice, run_splice, run_lineComment hn,
    run_blockComment, run_except_newline, directiveStep?]
  by_cases hsplice : p.shows "\\\n" = true
  · rw [if_pos hsplice, if_pos hsplice, Total.or_eq hn, Option.bind_some]
  rw [if_neg hsplice, if_neg hsplice]
  by_cases hreturn : p.shows "\\\r\n" = true
  · rw [if_pos hreturn, if_pos hreturn, Total.or_eq hn, Option.bind_some]
  rw [if_neg hreturn, if_neg hreturn, Option.none_or]
  by_cases hslashes : p.shows "//" = true
  · rw [if_pos hslashes, if_pos hslashes, Total.or_eq hn, Option.bind_some]
  rw [if_neg hslashes, if_neg hslashes, Option.none_or]
  cases blockStop? p with
  | none => rw [Option.bind_none, Option.none_or, Option.none_or]
  | some q => rw [Option.bind_some, Option.some_or, Option.bind_some, Total.or_eq hn]

/-- A step of reading a directive leads on. -/
theorem directiveStep?_shorter {p q : Place} (h : directiveStep? p = some q) :
    q.left.length < p.left.length := by
  -- with nothing to come, a step is a round of the pattern, and no round is empty
  have hrun : directiveRound.run some p = some q := by
    rw [run_directiveRound total_some, h, Option.bind_some]
  obtain ⟨p', hlead, hp'⟩ := run_leads some p q hrun
  rw [← Option.some.inj hp']
  exact hlead.shorter directiveRound_nonempty

/-- Where the directive ends that is read from a place behind its number sign: steps are
    made as long as one applies. -/
def directiveStop (p : Place) : Place :=
  match _h : directiveStep? p with
  | none => p
  | some q => directiveStop q
termination_by p.left.length
decreasing_by exact directiveStep?_shorter _h

theorem directiveStop_of_none {p : Place} (h : directiveStep? p = none) : directiveStop p = p := by
  rw [directiveStop]
  split
  · rfl
  · rename_i q hq
    rw [h] at hq
    exact absurd hq.symm (Option.some_ne_none q)

theorem directiveStop_of_some {p q : Place} (h : directiveStep? p = some q) :
    directiveStop p = directiveStop q := by
  rw [directiveStop]
  split
  · rename_i hnone
    rw [h] at hnone
    exact absurd hnone (Option.some_ne_none q)
  · rename_i q' hq'
    rw [h] at hq'
    rw [Option.some.inj hq']

theorem run_directiveRounds (p : Place) :
    (many directiveRound).run some p = some (directiveStop p) := by
  fun_induction directiveStop p with
  | case1 p h =>
      rw [run_many_unfold directiveRound_nonempty, run_directiveRound (total_many total_some), h]
      rfl
  | case2 p q h ih =>
      rw [run_many_unfold directiveRound_nonempty, run_directiveRound (total_many total_some), h,
        Option.bind_some, ih, Option.some_or]

-- ── The scanner of each kind ────────────────────────────────────────────────

/-- A blank or a tab. -/
def isIndent (g : Glyph) : Bool :=
  g.is ' ' || g.is '\t'

/-- The scanner of each kind.  Nothing is tried twice: it moves forward only. -/
def forward? : Trivia → Place → Option Place
  | .directive, p =>
    match (p.behind isIndent).left with
    | g :: _ => if g.is '#' then some (directiveStop ((p.behind isIndent).ahead 1)) else none
    | [] => none
  | .lineComment, p => if p.shows "//" then some (lineStop p) else none
  | .blockComment, p => blockStop? p
  | .whitespace, p =>
    match p.left with
    | g :: _ => if g.isBlank then some (p.behind Glyph.isBlank) else none
    | [] => none

theorem stop?_directive (p : Place) : directivePattern.stop? p = Trivia.directive.forward? p := by
  have hrun : directivePattern.stop? p
      = (many (one isIndent)).run ((char '#').run ((many directiveRound).run some)) p := rfl
  rw [hrun, run_many_one, forward?]
  · generalize p.behind isIndent = q
    obtain ⟨n, left⟩ := q
    cases left with
    | nil => rfl
    | cons g rest =>
        rw [run_char_cons, run_directiveRounds]
        rfl
  · -- no indentation starts with a number sign
    right
    rintro ⟨n, left⟩ ⟨g, hg, hindent⟩
    cases left with
    | nil => exact absurd hg (Option.not_mem_none g)
    | cons g' rest =>
        rw [Option.mem_def, List.head?_cons, Option.some.injEq] at hg
        subst hg
        rw [run_char_cons, if_neg]
        intro hsign
        rw [Glyph.is_iff.mp hsign] at hindent
        exact absurd hindent (by decide)

theorem stop?_whitespace (p : Place) :
    whitespacePattern.stop? p = Trivia.whitespace.forward? p := by
  obtain ⟨n, left⟩ := p
  cases left with
  | nil => rfl
  | cons g rest =>
      have hrun : whitespacePattern.stop? ⟨n, g :: rest⟩
          = if g.isBlank then (many (one Glyph.isBlank)).run some ⟨n + 1, rest⟩ else none := rfl
      rw [hrun, forward?]
      dsimp only
      by_cases hg : g.isBlank = true
      · rw [if_pos hg, if_pos hg, Place.behind_cons_of_pos hg]
        exact run_many_one _ (.inl rfl)
      · rw [if_neg hg, if_neg hg]

/-- Matching a kind of trivia is scanning forward. -/
theorem stop?_eq_forward? (kind : Trivia) (p : Place) :
    kind.pattern.stop? p = kind.forward? p := by
  cases kind with
  | directive => exact stop?_directive p
  | lineComment => exact run_lineComment total_some p
  | blockComment => exact (run_blockComment some p).trans (Option.bind_fun_some _)
  | whitespace => exact stop?_whitespace p

-- ── What the two long patterns match ────────────────────────────────────────

/-- A block comment in a text, by the positions of its ends. -/
theorem blockStop?_eq_some_iff (t : Text) (n : Nat) (q : Place) :
    blockStop? ⟨n, t.drop n⟩ = some q ↔
      ("/*" : Text) <+: t.drop n ∧ ∃ k, n + 2 ≤ k ∧ ("*/" : Text) <+: t.drop k
        ∧ (∀ j, n + 2 ≤ j → j < k → ¬ ("*/" : Text) <+: t.drop j)
        ∧ q = ⟨k + 2, t.drop (k + 2)⟩ := by
  have hfound : ∀ k, Text.find? "*/" (t.drop (n + 2)) = some k ↔
      ("*/" : Text) <+: t.drop (n + 2 + k)
        ∧ ∀ j, j < k → ¬ ("*/" : Text) <+: t.drop (n + 2 + j) := by
    intro k
    rw [Text.find?_eq_some_iff (by decide)]
    simp only [List.drop_drop]
  have hclosing : closing? (Place.ahead 2 ⟨n, t.drop n⟩) = some q ↔
      ∃ k, Text.find? "*/" (t.drop (n + 2)) = some k
        ∧ q = ⟨n + 2 + k + 2, t.drop (n + 2 + k + 2)⟩ := by
    rw [closing?, Option.map_eq_some_iff]
    simp only [Place.ahead, List.drop_drop, Nat.add_assoc]
    constructor
    · rintro ⟨k, hk, rfl⟩
      exact ⟨k, hk, rfl⟩
    · rintro ⟨k, hk, rfl⟩
      exact ⟨k, hk, rfl⟩
  rw [blockStop?]
  constructor
  · intro h
    obtain ⟨hshows, h⟩ := Option.ite_none_right_eq_some.mp h
    obtain ⟨k, hk, hq⟩ := hclosing.mp h
    obtain ⟨hat, hbefore⟩ := (hfound k).mp hk
    refine ⟨Place.shows_iff.mp hshows, n + 2 + k, by omega, hat, fun j hj hlt => ?_, hq⟩
    have := hbefore (j - (n + 2)) (by omega)
    rwa [show n + 2 + (j - (n + 2)) = j by omega] at this
  · rintro ⟨hshows, k, hk, hat, hbefore, hq⟩
    obtain ⟨i, rfl⟩ := Nat.exists_eq_add_of_le hk
    rw [if_pos (Place.shows_iff.mpr hshows), hclosing]
    refine ⟨i, (hfound i).mpr ⟨hat, fun j hj => ?_⟩, hq⟩
    exact hbefore (n + 2 + j) (by omega) (by omega)

/-- A directive at a place, by what stands there. -/
theorem directive_eq_some_iff (p q : Place) :
    Trivia.directive.forward? p = some q ↔
      ∃ indent rest, p.left = indent ++ .char '#' :: rest ∧ (∀ g ∈ indent, isIndent g = true)
        ∧ q = directiveStop ⟨p.taken + indent.length + 1, rest⟩ := by
  rw [forward?]
  constructor
  · intro h
    have hsplit := (Place.past_behind isIndent p).left
    cases hleft : (p.behind isIndent).left with
    | nil =>
        rw [hleft] at h
        exact absurd h.symm (Option.some_ne_none q)
    | cons g rest =>
        rw [hleft] at h hsplit
        obtain ⟨hsign, hq⟩ := Option.ite_none_right_eq_some.mp h
        rw [Glyph.is_iff.mp hsign] at hsplit
        refine ⟨_, rest, hsplit, List.all_eq_true.mp List.all_takeWhile, ?_⟩
        rw [← Option.some.inj hq, Place.ahead, hleft]
        rfl
  · rintro ⟨indent, rest, hsplit, hindent, rfl⟩
    have hbehind : p.behind isIndent = ⟨p.taken + indent.length, .char '#' :: rest⟩ := by
      rw [Place.behind, hsplit, List.takeWhile_append_of_pos hindent,
        List.dropWhile_append_of_pos hindent, List.takeWhile_cons_of_neg (by decide),
        List.dropWhile_cons_of_neg (by decide), List.append_nil]
    rw [hbehind]
    rfl

/-- **THE PATTERNS OF TRIVIA SCAN FORWARD.**  At every position of every text each pattern
    matches what its scanner finds.  A block comment opens with a slash and a star, and ends
    behind the first star and slash that follow; without them there is none.  A directive is
    a number sign behind blanks and tabs, and ends where no further step applies. -/
theorem patterns_scan_forward (t : Text) (n : Nat) :
    (∀ kind : Trivia, kind.pattern.stop? ⟨n, t.drop n⟩ = kind.forward? ⟨n, t.drop n⟩)
    ∧ (∀ q, blockCommentPattern.stop? ⟨n, t.drop n⟩ = some q ↔
        ("/*" : Text) <+: t.drop n ∧ ∃ k, n + 2 ≤ k ∧ ("*/" : Text) <+: t.drop k
          ∧ (∀ j, n + 2 ≤ j → j < k → ¬ ("*/" : Text) <+: t.drop j)
          ∧ q = ⟨k + 2, t.drop (k + 2)⟩)
    ∧ ∀ q, directivePattern.stop? ⟨n, t.drop n⟩ = some q ↔
        ∃ indent rest, t.drop n = indent ++ .char '#' :: rest ∧ (∀ g ∈ indent, isIndent g = true)
          ∧ q = directiveStop ⟨n + indent.length + 1, rest⟩ := by
  refine ⟨fun kind => stop?_eq_forward? kind _, fun q => ?_, fun q => ?_⟩
  · rw [← blockStop?_eq_some_iff t n q]
    exact Eq.to_iff (congrArg (· = some q) (stop?_eq_forward? .blockComment _))
  · rw [stop?_directive]
    exact directive_eq_some_iff ⟨n, t.drop n⟩ q

/-- Three scans: a comment that a run of stars closes, a comment in a directive that runs on
    over a line end, and one that is never closed and ends with its line. -/
example :
    (Trivia.blockComment.forward? ⟨0, "/*/ **/ x"⟩).map Place.taken = some 7
      ∧ (Trivia.directive.forward? ⟨0, " # a \\\n b /* c\n d */ e\nf"⟩).map Place.taken = some 22
      ∧ (Trivia.directive.forward? ⟨0, "#a /* b\nc"⟩).map Place.taken = some 7 := by
  decide +kernel

end Trivia

end SketchMerge
