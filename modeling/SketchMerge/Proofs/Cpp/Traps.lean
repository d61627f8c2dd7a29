import SketchMerge.Proofs.Cpp.Lexemes

/-! # Texts without traps

    Leading trivia can be told apart glyph by glyph, without joining lines and without
    a notion of literals, but not in every text.  FIVE TRAPS lead such a reader astray:

    a line comment that goes on behind a backslash at the end of its line;
    a block comment whose closing marks a joined line end keeps apart, or, in a directive,
    its opening marks;
    a literal of a directive that holds a newline;
    a literal of a directive in which a block comment seems to open, if it is closed, but
    only behind the literal;
    a literal of a directive in which a line comment seems to open, if its line is joined to
    the next one or has a comment that holds a newline.

    In particular, the last two leave literals alone that hold a whole comment, or two
    slashes on an ordinary line: whether the rest of the line is skipped as a comment or read
    as what it is, the directive ends with it.

    A text is plain if there is no trap among its leading trivia (`isPlain`). -/

namespace SketchMerge.Cpp

-- ── What seems to be a comment ──────────────────────────────────────────────

/-- The letters start with two slashes. -/
def seemsLine : List Letter → Bool
  | a :: b :: _ => a.is '/' && b.is '/' && a.touches b
  | _ => false

/-- The number of letters up to the end of the first star and slash that nothing keeps
    apart. -/
def joinedLength? : List Letter → Option Nat
  | a :: b :: rest =>
    if a.is '*' && b.is '/' && a.touches b then some 2
    else (joinedLength? (b :: rest)).map (· + 1)
  | _ => none

/-- The letters start with a slash and a star, and are closed further down. -/
def seemsBlock : List Letter → Bool
  | a :: b :: rest => a.is '/' && b.is '*' && a.touches b && (joinedLength? rest).isSome
  | _ => false

/-- The letters stand at position `n` and behind it without a gap, up to `stop`. -/
def unbroken (stop : Nat) : Nat → List Letter → Bool
  | n, [] => n == stop
  | n, a :: rest => a.place == n && unbroken stop (n + 1) rest

/-- Nothing keeps the first two letters apart. -/
def startsJoined : List Letter → Bool
  | a :: b :: _ => a.touches b
  | _ => false

/-- Nothing keeps the last two letters apart. -/
def endsJoined : List Letter → Bool
  | [a, b] => a.touches b
  | _ :: rest => endsJoined rest
  | [] => false

theorem startsJoined_take {a b : Letter} (rest : List Letter) (n : Nat)
    (h : a.touches b = true) : startsJoined (a :: (b :: rest).take (1 + n)) = true := by
  rw [Nat.add_comm, List.take_succ_cons, startsJoined, h]

-- ── Traps ───────────────────────────────────────────────────────────────────

namespace Lexeme

/-- A line comment seems to open in a lexeme, with other lexemes behind. -/
def opensLine (x : Lexeme) (xs : List Lexeme) : Bool :=
  (List.range x.letters.length).any fun i =>
    seemsLine ((x.letters ++ xs.flatMap Lexeme.letters).drop i)

/-- The block comments that seem to open in a lexeme, with other lexemes behind, are closed
    in it. -/
def closesBlocks (x : Lexeme) (xs : List Lexeme) : Bool :=
  (List.range x.letters.length).all fun i =>
    !seemsBlock ((x.letters ++ xs.flatMap Lexeme.letters).drop i)
      || (joinedLength? (x.letters.drop (i + 2))).isSome

/-- From a lexeme on, its line runs out: it holds no newline, and no line is joined to it. -/
def runsOut (size : Nat) (x : Lexeme) (xs : List Lexeme) : Bool :=
  let ls := (x :: xs.takeWhile (·.kind != .newline)).flatMap Lexeme.letters
  ls.all (!·.is '\n') && unbroken (lineEnd size xs) x.start ls

/-- A lexeme in front of others is no trap. -/
def isPlain (size : Nat) (x : Lexeme) (xs : List Lexeme) : Bool :=
  match x.kind with
  | .lineComment => x.runsOut size xs
  | .blockComment => startsJoined x.letters && endsJoined x.letters
  | .literal =>
    x.letters.all (!·.is '\n') && x.closesBlocks xs && (!x.opensLine xs || x.runsOut size xs)
  | _ => true

/-- A comment or a number sign that is not written as one: its marks are kept apart, or
    there are other marks in its place. -/
def isHidden (x : Lexeme) : Bool :=
  if x.isComment then !startsJoined x.letters else x.isSign && !x.first.is '#'

end Lexeme

/-- The leading trivia end with a lexeme: it is code, or no trivia to the eye. -/
def Mode.stops (m : Mode) (x : Lexeme) : Bool :=
  m.next x == .code || (m == .fresh && x.isHidden)

/-- There is no trap among lexemes, up to the end of the leading trivia. -/
def plainFrom (size : Nat) : Mode → List Lexeme → Bool
  | _, [] => true
  | m, x :: xs => m.stops x || (x.isPlain size xs && plainFrom size (m.next x) xs)

/-- There is no trap among the leading trivia of a text. -/
def isPlain (t : Text) : Bool :=
  plainFrom t.length .fresh (read t)

theorem Lexeme.opensLine_iff {x : Lexeme} {xs : List Lexeme} :
    x.opensLine xs = true ↔ ∃ i, i < x.letters.length
      ∧ seemsLine ((x.letters ++ xs.flatMap Lexeme.letters).drop i) = true := by
  simp only [opensLine, List.any_eq_true, List.mem_range]

theorem Lexeme.closed_of_closesBlocks {x : Lexeme} {xs : List Lexeme}
    (h : x.closesBlocks xs = true) {i : Nat} (hi : i < x.letters.length)
    (hb : seemsBlock ((x.letters ++ xs.flatMap Lexeme.letters).drop i) = true) :
    ∃ m, joinedLength? (x.letters.drop (i + 2)) = some m := by
  rw [closesBlocks, List.all_eq_true] at h
  have hclosed := h i (List.mem_range.mpr hi)
  rw [hb, Bool.not_true, Bool.false_or, Option.isSome_iff_exists] at hclosed
  exact hclosed

theorem plainFrom_cons {size : Nat} {m : Mode} {x : Lexeme} {xs : List Lexeme}
    (h : plainFrom size m (x :: xs) = true) (hm : m.stops x = false) :
    x.isPlain size xs = true ∧ plainFrom size (m.next x) xs = true := by
  rw [plainFrom, hm, Bool.false_or, Bool.and_eq_true] at h
  exact h

-- ── Modes ───────────────────────────────────────────────────────────────────

theorem Mode.next_newline (m : Mode) {x : Lexeme} (h : x.kind = .newline) : m.next x = .fresh := by
  rw [next, h]

theorem Mode.next_blank (m : Mode) {x : Lexeme} (h : x.kind = .blank) : m.next x = m := by
  rw [next, h]

theorem Mode.next_comment (m : Mode) {x : Lexeme} (h : x.isComment = true) : m.next x = m := by
  rw [Lexeme.isComment, Bool.or_eq_true, beq_iff_eq, beq_iff_eq] at h
  rcases h with h | h
  · rw [next, h]
  · rw [next, h]

theorem Mode.next_sign {x : Lexeme} {ls : List Letter} (h : x ∈ lexemes ls)
    (hs : x.isSign = true) : Mode.fresh.next x = .directive := by
  have hfirst : x.first.is '#' = true ∨ x.first.is '%' = true := by
    rw [Lexeme.isSign, Bool.or_eq_true, beq_iff_eq, beq_iff_eq] at hs
    rcases hs with hs | hs
    · exact .inl (Letter.is_iff.mpr (List.cons.inj hs).1)
    · exact .inr (Letter.is_iff.mpr (List.cons.inj hs).1)
  have hother : ∀ c : Char, c ≠ '#' → c ≠ '%' → x.first.is c = false := by
    intro c hc hc'
    rcases hfirst with hfirst | hfirst
    · exact Letter.is_eq_false hfirst hc.symm
    · exact Letter.is_eq_false hfirst hc'.symm
  have hblank : x.first.glyph.isBlank = false := by
    rcases hfirst with hfirst | hfirst
    · rw [Letter.is_iff.mp hfirst]
      decide
    · rw [Letter.is_iff.mp hfirst]
      decide
  obtain ⟨rest, n, hfront, -⟩ := front_of_mem h
  obtain ⟨kind, first, more⟩ := x
  dsimp only at *
  have hnew := hother '\n' (by decide) (by decide)
  have hslash := hother '/' (by decide) (by decide)
  have hnext : ∀ {k : Kind}, k = .literal ∨ k = .token →
      Lexeme.isSign ⟨k, first, more⟩ = true → Mode.fresh.next ⟨k, first, more⟩ = .directive := by
    rintro k (rfl | rfl) hs
    · rw [next, if_pos rfl, if_pos hs]
    · rw [next, if_pos rfl, if_pos hs]
  cases hfront with
  | newline ha => exact absurd (hnew.symm.trans ha) Bool.false_ne_true
  | blank _ ha => exact absurd (hblank.symm.trans ha) Bool.false_ne_true
  | lineComment b rest hrest ha => exact absurd (hslash.symm.trans ha) Bool.false_ne_true
  | blockComment b rest n hrest ha => exact absurd (hslash.symm.trans ha) Bool.false_ne_true
  | literal => exact hnext (.inl rfl) hs
  | token => exact hnext (.inr rfl) hs

/-- A directive goes on to the end of its line. -/
theorem Mode.next_directive {x : Lexeme} (h : x.kind ≠ .newline) :
    Mode.directive.next x = .directive := by
  rw [next]
  cases hk : x.kind with
  | newline => exact absurd hk h
  | blank => rfl
  | lineComment => rfl
  | blockComment => rfl
  | literal => rfl
  | token => rfl

/-- No lexeme of a directive is the end of the trivia. -/
theorem Mode.stops_directive {x : Lexeme} (h : x.kind ≠ .newline) :
    Mode.directive.stops x = false := by
  rw [stops, next_directive h]
  rfl

/-- The trivia go on over a comment that is written as one. -/
theorem Mode.stops_comment {x : Lexeme} (h : x.isComment = true)
    (hj : startsJoined x.letters = true) : Mode.fresh.stops x = false := by
  rw [stops, next_comment _ h, Lexeme.isHidden, if_pos h, hj]
  rfl

/-- The trivia go on over a single blank. -/
theorem Mode.stops_single {m : Mode} {x : Lexeme} (hnext : m.next x = .fresh)
    (hcomment : x.isComment = false) (hmore : x.more = []) : m.stops x = false := by
  have hhidden : x.isHidden = false := by
    rw [Lexeme.isHidden, hcomment, if_neg Bool.false_ne_true]
    by_cases hs : x.first.is '#' = true
    · rw [hs, Bool.not_true, Bool.and_false]
    · rw [Bool.and_eq_false_imp]
      intro hsign
      rw [Lexeme.isSign, Lexeme.letters, hmore, Bool.or_eq_true, beq_iff_eq, beq_iff_eq] at hsign
      rcases hsign with hsign | hsign
      · exact absurd (Letter.is_iff.mpr (List.cons.inj hsign).1) hs
      · exact absurd (List.cons.inj hsign).2.symm (List.cons_ne_nil _ _)
  rw [stops, hnext, hhidden, Bool.and_false]
  rfl

/-- The leading trivia go on over lexemes, if the line has turned out to be `m` so far. -/
def tame : Mode → List Lexeme → Bool
  | _, [] => true
  | m, x :: xs => !m.stops x && tame (m.next x) xs

theorem tame_append (m : Mode) (xs ys : List Lexeme) :
    tame m (xs ++ ys) = (tame m xs && tame (xs.foldl Mode.next m) ys) := by
  induction xs generalizing m with
  | nil => rfl
  | cons x xs ih => rw [List.cons_append, tame, tame, ih, List.foldl_cons, Bool.and_assoc]

theorem tame_cons {m : Mode} {x : Lexeme} {xs : List Lexeme} (h : tame m (x :: xs) = true) :
    m.stops x = false ∧ m.next x ≠ .code ∧ tame (m.next x) xs = true := by
  rw [tame, Bool.and_eq_true, Bool.not_eq_true'] at h
  refine ⟨h.1, ?_, h.2⟩
  have hstops := h.1
  rw [Mode.stops, Bool.or_eq_false_iff, beq_eq_false_iff_ne] at hstops
  exact hstops.1

theorem tame_split {m : Mode} {before after : List Lexeme} {x : Lexeme}
    (h : tame m (before ++ x :: after) = true) :
    (before ++ [x]).foldl Mode.next m ≠ .code := by
  rw [tame_append, Bool.and_eq_true] at h
  rw [List.foldl_append]
  exact (tame_cons h.2).2.1

theorem mode_of_tame {m : Mode} {xs : List Lexeme} (hm : m ≠ .code) (h : tame m xs = true) :
    xs.foldl Mode.next m ≠ .code := by
  induction xs generalizing m with
  | nil => exact hm
  | cons x xs ih =>
      obtain ⟨-, hx, hxs⟩ := tame_cons h
      exact ih hx hxs

/-- Behind trivia, a text is as plain as it was. -/
theorem plainFrom_append {size : Nat} {m : Mode} {xs ys : List Lexeme} (ht : tame m xs = true)
    (h : plainFrom size m (xs ++ ys) = true) :
    plainFrom size (xs.foldl Mode.next m) ys = true := by
  induction xs generalizing m with
  | nil => exact h
  | cons x xs ih =>
      obtain ⟨hx, -, hxs⟩ := tame_cons ht
      exact ih hxs (plainFrom_cons h hx).2

/-- A line without a newline stays a directive. -/
theorem directive_stays {xs : List Lexeme} (h : ∀ x ∈ xs, x.kind ≠ .newline) :
    xs.foldl Mode.next .directive = .directive ∧ tame .directive xs = true := by
  induction xs with
  | nil => exact ⟨rfl, rfl⟩
  | cons x xs ih =>
      have hx := h x (List.mem_cons_self ..)
      have hxs := ih fun y hy => h y (List.mem_cons_of_mem _ hy)
      rw [List.foldl_cons, tame, Mode.stops_directive hx, Mode.next_directive hx]
      exact ⟨hxs.1, hxs.2⟩

end SketchMerge.Cpp
