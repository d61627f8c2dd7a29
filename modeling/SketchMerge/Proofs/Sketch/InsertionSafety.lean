import SketchMerge.Proofs.Cpp.DirectiveEnd
import SketchMerge.Proofs.Sketch.LongestTiles

/-! # The insertion point and C++

    Forward declarations may go in front of the first statement of a sketch only if
    nothing is torn apart there and nothing has been passed over.  The leading trivia
    are found glyph by glyph; this file compares them with what C++ reads.

    The two KEEP IN STEP as long as there is no trap (`Cpp.isPlain`): where a tile ends,
    a lexeme ends, and the lexemes passed are trivia for C++ too (`Aligned`).  A blank
    tile is a row of blanks and newlines, a comment tile is a comment, and a directive
    tile is a line that starts with a number sign.

    So the insertion point is never inside of a comment or a directive
    (`locate_not_inside`), and only trivia stand in front of it (`trivia_before_locate`).
    With a trap in the text both can fail. -/

namespace SketchMerge.Trivia

open Pattern Cpp

-- ── Lexemes in step with tiles ──────────────────────────────────────────────

/-- A position that C++ passes over: a blank, or a part of a comment or of a directive. -/
def Covered (t : Text) (i : Nat) : Prop :=
  (∃ g, t[i]? = some g ∧ g.isBlank = true)
    ∨ ∃ start stop, (CommentAt t start stop ∨ DirectiveAt t start stop) ∧ start ≤ i ∧ i < stop

/-- A place in a text at which the lexemes `done` are read.  None of them is code; if the
    last of them belong to a directive, it ends there. -/
structure Aligned (t : Text) (done : List Lexeme) (p : Place) : Prop where
  within : Within t p
  split : read t = done ++ lexemes (lettersAt p)
  before : ∀ a ∈ done.flatMap Lexeme.letters, a.place < p.taken
  tame : tame .fresh done = true
  lineOver : modeAfter done = .directive → LineOver t.length p.taken (lettersAt p)
  covered : ∀ i, i < p.taken → Covered t i

namespace Aligned

theorem start (t : Text) : Aligned t [] ⟨0, t⟩ where
  within := within_start t
  split := rfl
  before := fun a ha => absurd ha List.not_mem_nil
  tame := rfl
  lineOver := fun h => absurd h (by decide)
  covered := fun i hi => absurd hi (Nat.not_lt_zero i)

theorem size {t : Text} {done : List Lexeme} {p : Place} (h : Aligned t done p) :
    p.taken + p.left.length = t.length := by
  have hle := h.within.1
  rw [h.within.2, List.length_drop]
  omega

/-- More lexemes are read. -/
theorem extend {t : Text} {done body : List Lexeme} {p q : Place} (h : Aligned t done p)
    (hreads : Reads p (body.flatMap Lexeme.letters) q)
    (hsplit : lexemes (lettersAt p) = body ++ lexemes (lettersAt q))
    (htame : Cpp.tame (modeAfter done) body = true)
    (hover : modeAfter (done ++ body) = .directive → LineOver t.length q.taken (lettersAt q))
    (hcovered : ∀ i, p.taken ≤ i → i < q.taken → Covered t i) :
    Aligned t (done ++ body) q := by
  obtain ⟨w, past⟩ := hreads.past
  refine ⟨(h.within.past past).1, ?_, ?_, ?_, hover, ?_⟩
  · rw [h.split, hsplit, List.append_assoc]
  · intro a ha
    rw [List.flatMap_append] at ha
    rcases List.mem_append.mp ha with ha | ha
    · have := h.before a ha
      have := past.taken
      omega
    · exact hreads.before a ha
  · rw [tame_append, h.tame]
    exact htame
  · intro i hi
    by_cases hp : i < p.taken
    · exact h.covered i hp
    · exact hcovered i (by omega) hi

/-- No trap lies ahead. -/
theorem plain {t : Text} {done : List Lexeme} {p : Place} (h : Aligned t done p)
    (ht : isPlain t = true) :
    plainFrom t.length (modeAfter done) (lexemes (lettersAt p)) = true := by
  rw [isPlain, h.split] at ht
  exact plainFrom_append h.tame ht

/-- A comment ahead is no trap. -/
theorem plain_comment {t : Text} {done xs : List Lexeme} {x : Lexeme} {p : Place}
    (h : Aligned t done p) (ht : isPlain t = true) (hfresh : modeAfter done = .fresh)
    (hx : lexemes (lettersAt p) = x :: xs) (hk : x.isComment = true)
    (hj : startsJoined x.letters = true) : x.isPlain t.length xs = true := by
  have hplain := h.plain ht
  rw [hfresh, hx] at hplain
  exact (plainFrom_cons hplain (Mode.stops_comment hk hj)).1

/-- Where the text goes on, the line is fresh or ends. -/
theorem mode_cases {t : Text} {done : List Lexeme} {p : Place} {g : Glyph} {rest : Text}
    (h : Aligned t done p) (hleft : p.left = g :: rest) :
    modeAfter done = .fresh ∨ g = .char '\n' := by
  cases hmode : modeAfter done with
  | fresh => exact .inl rfl
  | code => exact absurd hmode (mode_of_tame (by decide) h.tame)
  | directive =>
      have hover := h.lineOver hmode
      have hsize := h.size
      cases hls : lettersAt p with
      | nil =>
          rw [hls] at hover
          have hend : p.taken = t.length := hover
          rw [hleft, List.length_cons] at hsize
          omega
      | cons a ls =>
          rw [hls] at hover
          obtain ⟨r, hp, -, -⟩ := letter_here hls hover.2.symm
          rw [hp] at hleft
          exact .inr ((List.cons.inj hleft).1.symm.trans (Letter.is_iff.mp hover.1))

theorem fresh_of_ne {t : Text} {done : List Lexeme} {p : Place} {g : Glyph} {rest : Text}
    (h : Aligned t done p) (hleft : p.left = g :: rest) (hg : g ≠ .char '\n') :
    modeAfter done = .fresh :=
  (h.mode_cases hleft).resolve_right hg

end Aligned

-- ── Blanks ──────────────────────────────────────────────────────────────────

/-- A row of blanks as lexemes. -/
def blanks : Nat → Text → List Lexeme
  | _, [] => []
  | n, g :: w => ⟨if g.is '\n' then .newline else .blank, ⟨n, g⟩, []⟩ :: blanks (n + 1) w

theorem front_of_isBlank {a : Letter} (ls : List Letter) (h : a.glyph.isBlank = true) :
    front a ls = (if a.glyph.is '\n' then .newline else .blank, 0) := by
  by_cases hnew : a.glyph.is '\n' = true
  · rw [if_pos hnew]
    exact front_newline ls hnew
  · rw [if_neg hnew]
    exact front_blank ls (Bool.eq_false_iff.mpr hnew) h

theorem blanks_read (w rest : Text) (n : Nat) (hw : ∀ g ∈ w, g.isBlank = true) :
    Reads ⟨n, w ++ rest⟩ ((blanks n w).flatMap Lexeme.letters) ⟨n + w.length, rest⟩
      ∧ lexemes (lettersAt ⟨n, w ++ rest⟩)
          = blanks n w ++ lexemes (lettersAt ⟨n + w.length, rest⟩) := by
  induction w generalizing n with
  | nil => exact ⟨.refl _, rfl⟩
  | cons g w ih =>
      have hg : g.isBlank = true := hw g (List.mem_cons_self ..)
      have hun : Unspliced ⟨n, g :: (w ++ rest)⟩ := by
        apply unspliced_of_ne
        rintro rfl
        exact absurd hg (by decide)
      obtain ⟨hreads, hsplit⟩ := ih (n + 1) fun b hb => hw b (List.mem_cons_of_mem _ hb)
      rw [List.length_cons, Nat.add_comm w.length 1, ← Nat.add_assoc]
      refine ⟨(Reads.one hun).trans hreads, ?_⟩
      rw [lettersAt, List.cons_append, letters_cons hun, lexemes_cons, front_of_isBlank _ hg]
      exact congrArg _ hsplit

/-- Behind a row of blanks, the line is fresh if it was so before or if a newline comes
    first. -/
theorem blanks_mode {m : Mode} {w : Text} (n : Nat)
    (h : m = .fresh ∨ w.head? = some (.char '\n')) :
    (blanks n w).foldl Mode.next m = .fresh ∧ tame m (blanks n w) = true := by
  induction w generalizing n m with
  | nil =>
      rcases h with rfl | h
      · exact ⟨rfl, rfl⟩
      · exact absurd h.symm (Option.some_ne_none _)
  | cons g w ih =>
      have hnext : m.next ⟨if g.is '\n' then .newline else .blank, ⟨n, g⟩, []⟩ = .fresh := by
        by_cases hg : g.is '\n' = true
        · rw [if_pos hg]
          exact Mode.next_newline m rfl
        · rw [if_neg hg, Mode.next_blank m rfl]
          rcases h with h | h
          · exact h
          · exact absurd (Glyph.is_iff.mpr (Option.some.inj h)) hg
      have hcomment : Lexeme.isComment ⟨if g.is '\n' then .newline else .blank, ⟨n, g⟩, []⟩
          = false := by
        by_cases hg : g.is '\n' = true
        · rw [if_pos hg]
          rfl
        · rw [if_neg hg]
          rfl
      rw [blanks, List.foldl_cons, tame, Mode.stops_single hnext hcomment rfl, hnext]
      exact ih (n + 1) (.inl rfl)

/-- A row of blanks is read. -/
theorem Aligned.passBlanks {t w rest : Text} {done : List Lexeme} {p : Place}
    (h : Aligned t done p) (hleft : p.left = w ++ rest) (hw : ∀ g ∈ w, g.isBlank = true)
    (hmode : modeAfter done = .fresh ∨ w.head? = some (.char '\n')) :
    Aligned t (done ++ blanks p.taken w) ⟨p.taken + w.length, rest⟩
      ∧ modeAfter (done ++ blanks p.taken w) = .fresh := by
  obtain ⟨n, left⟩ := p
  dsimp only at hleft
  subst hleft
  obtain ⟨hreads, hsplit⟩ := blanks_read w rest n hw
  obtain ⟨hfresh, htame⟩ := blanks_mode n hmode
  have hafter : modeAfter (done ++ blanks n w) = .fresh := by
    rw [modeAfter, List.foldl_append]
    exact hfresh
  refine ⟨h.extend hreads hsplit htame ?_ ?_, hafter⟩
  · rw [hafter]
    exact fun hno => absurd hno (by decide)
  · intro i hi hlt
    have past : Place.Past ⟨n, w ++ rest⟩ w ⟨n + w.length, rest⟩ := ⟨rfl, rfl⟩
    have hget := (h.within.past past).2 (i - n) (by dsimp only at *; omega)
    rw [Nat.add_sub_cancel' hi] at hget
    refine .inl ⟨w.get ⟨i - n, by dsimp only at *; omega⟩, ?_, hw _ (List.get_mem ..)⟩
    rw [hget]
    exact List.getElem?_eq_getElem _

-- ── Comments and directives ─────────────────────────────────────────────────

/-- A comment is read. -/
theorem Aligned.passComment {t : Text} {done xs : List Lexeme} {x : Lexeme} {p q : Place}
    (h : Aligned t done p) (hfresh : modeAfter done = .fresh)
    (hx : lexemes (lettersAt p) = x :: xs) (hk : x.isComment = true)
    (hj : startsJoined x.letters = true) (hstart : x.start = p.taken)
    (hreads : Reads p x.letters q) (hstop : q.taken = x.stop) : Aligned t (done ++ [x]) q := by
  have hnext : Mode.fresh.next x = .fresh := Mode.next_comment _ hk
  refine h.extend ?_ ?_ ?_ ?_ ?_
  · rw [List.flatMap_singleton]
    exact hreads
  · rw [hx, hreads.rest hx]
    rfl
  · rw [hfresh, Cpp.tame, Mode.stops_comment hk hj]
    rfl
  · rw [modeAfter, List.foldl_append, ← modeAfter, hfresh, List.foldl_cons, hnext]
    exact fun hno => absurd hno (by decide)
  · intro i hi hlt
    refine .inr ⟨x.start, x.stop, .inl ⟨x, ?_, hk, rfl, rfl⟩, by omega, by omega⟩
    rw [h.split, hx]
    exact List.mem_append_right _ (List.mem_cons_self ..)

/-- A number sign as a lexeme. -/
def sign (n : Nat) : Lexeme :=
  ⟨.token, ⟨n, .char '#'⟩, []⟩

/-- A directive is read, from its number sign on. -/
theorem Aligned.passDirective {t rest : Text} {done : List Lexeme} {n : Nat}
    (ht : isPlain t = true) (h : Aligned t done ⟨n, .char '#' :: rest⟩)
    (hfresh : modeAfter done = .fresh) :
    ∃ body, Aligned t (done ++ body) (directiveStop ⟨n + 1, rest⟩) := by
  have hun : Unspliced ⟨n, .char '#' :: rest⟩ := unspliced_of_ne (by decide)
  have hx : lexemes (lettersAt ⟨n, .char '#' :: rest⟩)
      = sign n :: lexemes (lettersAt ⟨n + 1, rest⟩) := by
    rw [lettersAt, letters_cons hun, lexemes_of_front (front_sign _ (Letter.is_iff.mpr rfl))]
    rfl
  have hstops : Mode.fresh.stops (sign n) = false := rfl
  have hplain := h.plain ht
  rw [hfresh, hx] at hplain
  have hplains := (plainFrom_cons hplain hstops).2
  have hsize : n + 1 + rest.length = t.length := by
    have hall : n + (rest.length + 1) = t.length := h.size
    omega
  obtain ⟨body, hbody, hkinds, hreads, hover⟩ := directive_read _ rfl hsize hplains
  have hdirective : DirectiveAt t n (directiveStop ⟨n + 1, rest⟩).taken := by
    refine ⟨done, sign n, lexemes (lettersAt ⟨n + 1, rest⟩), ?_, hfresh, rfl, rfl, ?_⟩
    · rw [h.split, hx]
    · rw [hbody, lineEnd_append _ hkinds]
      exact lineEnd_of_lineOver hover
  refine ⟨sign n :: body, h.extend ((Reads.one hun).trans hreads) ?_ ?_ (fun _ => hover) ?_⟩
  · rw [hx, hbody]
    rfl
  · rw [hfresh, Cpp.tame, hstops]
    exact (directive_stays hkinds).2
  · exact fun i hi hlt => .inr ⟨n, _, .inr hdirective, hi, hlt⟩

-- ── From tile to tile ───────────────────────────────────────────────────────

theorem isIndent_cases {g : Glyph} (h : isIndent g = true) : g = .char ' ' ∨ g = .char '\t' := by
  rw [isIndent, Bool.or_eq_true, Glyph.is_iff, Glyph.is_iff] at h
  exact h

/-- **ONE TILE** keeps in step, of whatever kind. -/
theorem Aligned.step {t : Text} (ht : isPlain t = true) {done : List Lexeme} {p q : Place}
    {kind : Trivia} (h : Aligned t done p) (hq : kind.tile? p = some q) :
    ∃ done', Aligned t done' q := by
  rw [tile?_eq_stop?, stop?_eq_forward?] at hq
  cases kind with
  | directive =>
      obtain ⟨indent, rest, hleft, hindent, rfl⟩ := (directive_eq_some_iff p q).mp hq
      have hblank : ∀ g ∈ indent, g.isBlank = true := by
        intro g hg
        rcases isIndent_cases (hindent g hg) with rfl | rfl
        · decide
        · decide
      have hfresh : modeAfter done = .fresh := by
        cases indent with
        | nil => exact h.fresh_of_ne hleft (by decide)
        | cons g indent =>
            apply h.fresh_of_ne hleft
            rcases isIndent_cases (hindent g (List.mem_cons_self ..)) with rfl | rfl
            · decide
            · decide
      obtain ⟨hbefore, hfresh'⟩ := h.passBlanks hleft hblank (.inl hfresh)
      obtain ⟨body, hbody⟩ := hbefore.passDirective ht hfresh'
      exact ⟨_, hbody⟩
  | lineComment =>
      obtain ⟨hshows, hq⟩ := Option.ite_none_right_eq_some.mp hq
      obtain ⟨rest, hleft⟩ := (Place.shows_two_iff (c := '/') (d := '/')).mp hshows
      obtain rfl := Option.some.inj hq
      obtain ⟨n, left⟩ := p
      dsimp only at hleft
      subst hleft
      have hfresh := h.fresh_of_ne rfl (by decide)
      have hx := lexemes_of_front (front_lineComment (a := ⟨n, .char '/'⟩)
        (b := ⟨n + 1, .char '/'⟩) (lettersAt ⟨n + 2, rest⟩) rfl rfl)
      rw [← lettersAt_two n rest (by decide) (by decide)] at hx
      have hj := startsJoined_take (lettersAt ⟨n + 2, rest⟩) (lineLength (lettersAt ⟨n + 2, rest⟩))
        (touches_next n (.char '/') (.char '/'))
      have hplain := h.plain_comment ht hfresh hx rfl hj
      obtain ⟨hreads, hstop⟩ := lineStop_read hx h.size rfl hplain rfl
      exact ⟨_, h.passComment hfresh hx rfl hj rfl hreads hstop⟩
  | blockComment =>
      obtain ⟨hshows, hclosing⟩ := Option.ite_none_right_eq_some.mp hq
      obtain ⟨rest, hleft⟩ := (Place.shows_two_iff (c := '/') (d := '*')).mp hshows
      obtain ⟨n, left⟩ := p
      dsimp only at hleft
      subst hleft
      have hfresh := h.fresh_of_ne rfl (by decide)
      obtain ⟨m, hm⟩ : ∃ m, closeLength? (lettersAt ⟨n + 2, rest⟩) = some m :=
        (joinedLength?_of_closing? hclosing).elim fun _ => closeLength?_of_joinedLength?
      have hx := lexemes_of_front (front_blockComment (a := ⟨n, .char '/'⟩)
        (b := ⟨n + 1, .char '*'⟩) rfl rfl hm)
      rw [← lettersAt_two n rest (by decide) (by decide)] at hx
      have hj := startsJoined_take (lettersAt ⟨n + 2, rest⟩) m
        (touches_next n (.char '/') (.char '*'))
      have hplain := h.plain_comment ht hfresh hx rfl hj
      -- The tile and the lexeme end with the same marks.
      obtain ⟨q', hq', hreads, hstop⟩ := blockStop?_read hx rfl hplain rfl
      obtain rfl := Option.some.inj (hq.symm.trans hq')
      exact ⟨_, h.passComment hfresh hx rfl hj rfl hreads hstop⟩
  | whitespace =>
      obtain ⟨n, left⟩ := p
      cases left with
      | nil => exact absurd hq.symm (Option.some_ne_none q)
      | cons g rest =>
          obtain ⟨hg, hq⟩ := Option.ite_none_right_eq_some.mp hq
          obtain rfl := Option.some.inj hq
          refine ⟨_, (h.passBlanks (List.takeWhile_append_dropWhile (p := Glyph.isBlank)).symm
            (fun b hb => List.all_eq_true.mp List.all_takeWhile b hb) ?_).1⟩
          rw [List.takeWhile_cons_of_pos hg, List.head?_cons]
          exact (h.mode_cases rfl).imp_right (congrArg some)

/-- **ALL TILES** keep in step, up to the insertion point. -/
theorem aligned_insertionPlace {t : Text} (ht : isPlain t = true) :
    ∃ done, Aligned t done (insertionPlace t) := by
  refine lastPlace_keeps (P := fun p => ∃ done, Aligned t done p) ?_ t.length ⟨0, t⟩
    ⟨[], .start t⟩
  rintro p q kind ⟨done, h⟩ hq
  exact h.step ht hq

-- ── The insertion point ─────────────────────────────────────────────────────

/-- A lexeme of a text has been read before a place, or starts behind it. -/
theorem Aligned.before_or_behind {t : Text} {done before after : List Lexeme} {x : Lexeme}
    {p : Place} (h : Aligned t done p) (hx : read t = before ++ x :: after) :
    (∃ more, done = before ++ x :: more ∧ after = more ++ lexemes (lettersAt p))
      ∨ p.taken ≤ x.start := by
  have hbehind : x ∈ lexemes (lettersAt p) → p.taken ≤ x.start := by
    intro hmem
    have hfirst : x.first ∈ lettersAt p := by
      rw [← flatMap_lexemes (lettersAt p)]
      exact List.mem_flatMap.mpr ⟨x, hmem, List.mem_cons_self ..⟩
    exact (letters_bounds _ _ _ hfirst).1
  rcases List.append_eq_append_iff.mp (h.split.symm.trans hx) with
    ⟨more, -, hrest⟩ | ⟨more, hdone, hrest⟩
  · right
    apply hbehind
    rw [hrest]
    exact List.mem_append_right _ (List.mem_cons_self ..)
  · cases more with
    | nil =>
        right
        apply hbehind
        rw [← List.nil_append (lexemes _), ← hrest]
        exact List.mem_cons_self ..
    | cons y more =>
        obtain ⟨rfl, hafter⟩ := List.cons.inj hrest
        exact .inl ⟨more, hdone, hafter⟩

/-- A place in step is not inside of a comment. -/
theorem Aligned.not_in_comment {t : Text} {done : List Lexeme} {p : Place} {start stop : Nat}
    (h : Aligned t done p) (hc : CommentAt t start stop) :
    p.taken ≤ start ∨ stop ≤ p.taken := by
  obtain ⟨x, hx, -, rfl, rfl⟩ := hc
  obtain ⟨before, after, hsplit⟩ := List.append_of_mem hx
  rcases h.before_or_behind hsplit with ⟨more, rfl, -⟩ | hstart
  · right
    apply h.before
    rw [List.flatMap_append, List.flatMap_cons]
    exact List.mem_append_right _ (List.mem_append_left _ (List.getLast_mem _))
  · exact .inl hstart

/-- A place in step is not inside of a directive. -/
theorem Aligned.not_in_directive {t : Text} {done : List Lexeme} {p : Place} {start stop : Nat}
    (h : Aligned t done p) (hd : DirectiveAt t start stop) :
    p.taken ≤ start ∨ stop ≤ p.taken := by
  obtain ⟨before, x, after, hsplit, hfresh, hsign, rfl, rfl⟩ := hd
  rcases h.before_or_behind hsplit with ⟨more, rfl, rfl⟩ | hstart
  · right
    by_cases hnew : ∃ y ∈ more, y.kind = .newline
    · apply Nat.le_of_lt (lineEnd_lt _ _ hnew)
      intro a ha
      apply h.before
      rw [List.flatMap_append, List.flatMap_cons]
      exact List.mem_append_right _ (List.mem_append_right _ ha)
    · -- The directive is the last thing read, so the place is where its line is over.
      have hkinds : ∀ y ∈ more, y.kind ≠ .newline := fun y hy hk => hnew ⟨y, hy, hk⟩
      have hmem : x ∈ read t := hsplit ▸ List.mem_append_right _ (List.mem_cons_self ..)
      have hmode : modeAfter (before ++ x :: more) = .directive := by
        rw [modeAfter, List.foldl_append, ← modeAfter, hfresh, List.foldl_cons,
          Mode.next_sign hmem hsign]
        exact (directive_stays hkinds).1
      exact Nat.le_of_eq ((lineEnd_append _ hkinds).trans (lineEnd_of_lineOver (h.lineOver hmode)))
  · exact .inl hstart

/-- **THE INSERTION POINT IS NOT INSIDE** of a comment or of a directive, if there is no trap
    among the leading trivia. -/
theorem locate_not_inside (t : Text) (ht : isPlain t = true) (start stop : Nat)
    (h : CommentAt t start stop ∨ DirectiveAt t start stop) :
    ¬ (start < locate t ∧ locate t < stop) := by
  obtain ⟨done, hdone⟩ := aligned_insertionPlace ht
  rw [locate_eq_taken]
  rintro ⟨hstart, hstop⟩
  have houtside : (insertionPlace t).taken ≤ start ∨ stop ≤ (insertionPlace t).taken :=
    h.elim hdone.not_in_comment hdone.not_in_directive
  omega

/-- A sketch with comments in its directives, and with what looks like comments. -/
def busySketch : Text :=
  "/* a */\n#define U \"http://a\" // b\n#define N \\\n  \"/* c */\" /* d\n */\nint x;\n"

theorem isPlain_busySketch : isPlain busySketch = true := by
  decide +kernel

theorem locate_not_inside_busy : isPlain busySketch = true ∧ DirectiveAt busySketch 34 66 ∧
    ¬ (34 < locate busySketch ∧ locate busySketch < 66) := by
  have hdirective : DirectiveAt busySketch 34 66 := by
    refine ⟨(read busySketch).take 11, sign 34, (read busySketch).drop 12, ?_, ?_, rfl, rfl, ?_⟩
    · decide +kernel
    · decide +kernel
    · decide +kernel
  exact ⟨isPlain_busySketch, hdirective,
    locate_not_inside busySketch isPlain_busySketch 34 66 (.inr hdirective)⟩

/-- A web address and a joined line: to the eye, the address opens a comment that ends with
    the line. -/
def addressSketch : Text :=
  "#define URL \"http://a\" \\\n  \"b\"\nint x;\n"

/-- A comment on two joined lines. -/
def joinedSketch : Text :=
  "// a \\\nint x;\n"

/-- **WITH A TRAP** the insertion point can be inside of a directive, and of a comment. -/
theorem locate_inside_trapped :
    (isPlain addressSketch = false ∧ DirectiveAt addressSketch 0 30 ∧ locate addressSketch = 27)
      ∧ isPlain joinedSketch = false ∧ CommentAt joinedSketch 0 13 ∧ locate joinedSketch = 7 := by
  have hdirective : DirectiveAt addressSketch 0 30 := by
    refine ⟨[], sign 0, (read addressSketch).drop 1, ?_, rfl, rfl, rfl, ?_⟩
    · decide +kernel
    · decide +kernel
  have hcomment : CommentAt joinedSketch 0 13 := by
    unfold CommentAt
    decide +kernel
  exact ⟨⟨by decide +kernel, hdirective, by decide +kernel⟩, by decide +kernel, hcomment,
    by decide +kernel⟩

/-- **ONLY TRIVIA STAND IN FRONT** of the insertion point, if there is no trap among them:
    nothing there is code, and all glyphs are blanks or parts of comments and of directives. -/
theorem trivia_before_locate (t : Text) (ht : isPlain t = true) :
    (∀ start, CodeAt t start → locate t ≤ start) ∧ ∀ i, i < locate t → Covered t i := by
  obtain ⟨done, hdone⟩ := aligned_insertionPlace ht
  rw [locate_eq_taken]
  refine ⟨?_, hdone.covered⟩
  rintro start ⟨before, x, after, hsplit, hcode, rfl⟩
  rcases hdone.before_or_behind hsplit with ⟨more, rfl, -⟩ | hstart
  · exact absurd hcode (tame_split hdone.tame)
  · exact hstart

theorem trivia_before_locate_busy : isPlain busySketch = true ∧ locate busySketch = 67 ∧
    (∀ start, CodeAt busySketch start → locate busySketch ≤ start) ∧
    ∀ i, i < locate busySketch → Covered busySketch i :=
  ⟨isPlain_busySketch, by decide +kernel, trivia_before_locate busySketch isPlain_busySketch⟩

/-- A pattern of paths: to the eye, it opens a comment that ends further down. -/
def globSketch : Text :=
  "#define GLOB \"src/*\"\nint x;\n/* end */\nint y;\n"

/-- **WITH A TRAP** a statement can stand in front of the insertion point. -/
theorem code_before_locate_trapped :
    isPlain globSketch = false ∧ CodeAt globSketch 21 ∧ locate globSketch = 38 := by
  have hcode : CodeAt globSketch 21 := by
    refine ⟨(read globSketch).take 7,
      ⟨.token, ⟨21, .char 'i'⟩, [⟨22, .char 'n'⟩, ⟨23, .char 't'⟩]⟩,
      (read globSketch).drop 8, ?_, ?_, rfl⟩
    · decide +kernel
    · decide +kernel
  exact ⟨by decide +kernel, hcode, by decide +kernel⟩

end SketchMerge.Trivia
