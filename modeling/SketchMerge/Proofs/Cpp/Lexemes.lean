import SketchMerge.Text.Blank
import SketchMerge.Text.Lines

/-! # How C++ reads a text

    A sketch is a C++ text, and C++ reads it in phases.  FIRST the lines are joined
    that end in a backslash: what is left of the text are its letters, and each of
    them knows at which position it stands (`letters`).  THEN the letters are cut
    into lexemes: comments, literals, other tokens, blanks and newlines (`lexemes`).
    LAST the lines whose first token is a number sign are taken as directives
    (`Mode`).

    The order of the phases is what makes the reading subtle.  A comment goes on
    behind a backslash at the end of its line; what looks like the start of a
    comment is none inside of a literal; and a directive goes on to the end of its
    joined line, over all comments in it. -/

namespace SketchMerge.Cpp

-- ── Letters ─────────────────────────────────────────────────────────────────

/-- A glyph of a text, with its position. -/
structure Letter where
  place : Nat
  glyph : Glyph
  deriving DecidableEq

/-- The letters of a text that starts at position `n`: all its glyphs, but for the
    backslashes at the ends of lines and these line ends. -/
def letters : Nat → Text → List Letter
  | n, .char '\\' :: .char '\n' :: rest => letters (n + 2) rest
  | n, .char '\\' :: .char '\r' :: .char '\n' :: rest => letters (n + 3) rest
  | n, g :: rest => ⟨n, g⟩ :: letters (n + 1) rest
  | _, [] => []

/-- The letter is the character `c`. -/
def Letter.is (a : Letter) (c : Char) : Bool :=
  a.glyph.is c

/-- Nothing stands between two letters, not even a line end that joins lines. -/
def Letter.touches (a b : Letter) : Bool :=
  b.place == a.place + 1

/-- The letters from position `n` on spell a text, with nothing in between. -/
def spell : Nat → Text → List Letter → Bool
  | _, [], _ => true
  | _, _ :: _, [] => false
  | n, g :: s, a :: rest => a.place == n && a.glyph == g && spell (n + 1) s rest

-- ── Comments ────────────────────────────────────────────────────────────────

/-- The number of letters up to the next newline. -/
def lineLength (ls : List Letter) : Nat :=
  (ls.takeWhile (!·.is '\n')).length

/-- The number of letters up to the end of the first star and slash. -/
def closeLength? : List Letter → Option Nat
  | a :: b :: rest =>
    if a.is '*' && b.is '/' then some 2 else (closeLength? (b :: rest)).map (· + 1)
  | _ => none

/-- The kinds of lexemes.  A token is a word, a number, or a single mark. -/
inductive Kind where
  | newline
  | blank
  | lineComment
  | blockComment
  | literal
  | token
  deriving DecidableEq

/-- The comment that starts with a letter, and the number of its further letters.  What
    is never closed is no comment. -/
def comment? (a : Letter) : List Letter → Option (Kind × Nat)
  | b :: rest =>
    if a.is '/' && b.is '/' then some (.lineComment, 1 + lineLength rest)
    else if a.is '/' && b.is '*' then (closeLength? rest).map fun n => (.blockComment, 1 + n)
    else none
  | [] => none

-- ── Literals ────────────────────────────────────────────────────────────────

/-- The letters of names and numbers. -/
def Letter.isWord (a : Letter) : Bool :=
  match a.glyph with
  | .char c => c.isAlphanum || c == '_' || c == '$' || (128 ≤ c.toNat && !a.glyph.isBlank)
  | .surrogate _ => true

/-- The number of letters up to the end of the quotation that a mark closes.  A backslash
    shields the letter behind it, and no quotation goes on over the end of a line. -/
def quotedLength? (mark : Char) : List Letter → Option Nat
  | [] => none
  | a :: rest =>
    if a.is mark then some 1
    else if a.is '\n' then none
    else if a.is '\\' then
      match rest with
      | [] => none
      | b :: rest => if b.is '\n' then none else (quotedLength? mark rest).map (· + 2)
    else (quotedLength? mark rest).map (· + 1)

/-- The number of letters up to the end of the first place where `s` is spelled. -/
def spelledLength? (s : Text) : List Letter → Option Nat
  | [] => none
  | a :: rest =>
    if spell a.place s (a :: rest) then some s.length
    else (spelledLength? s rest).map (· + 1)

/-- The glyphs that may name the end of a raw literal. -/
def Letter.isMark (a : Letter) : Bool :=
  !a.glyph.isBlank && !a.glyph.isOneOf "()\\"

/-- The number of letters of a raw literal behind its opening quote `q`: its mark, an
    opening bracket, any text, a closing bracket, the mark again and a quote.  Lines are
    not joined in it. -/
def rawLength? (q : Letter) (ls : List Letter) : Option Nat :=
  let mark := ls.takeWhile Letter.isMark
  let glyphs := mark.map Letter.glyph
  if mark.length ≤ 16 && spell (q.place + 1) (glyphs ++ "(") ls then
    (spelledLength? (")" ++ glyphs ++ "\"") (ls.drop (mark.length + 1))).map
      (mark.length + 1 + ·)
  else none

/-- The words in front of a raw literal. -/
def rawWords : List Text :=
  ["R", "LR", "uR", "UR", "u8R"]

/-- The number of letters of a word that go on behind its first letter. -/
def wordLength (ls : List Letter) : Nat :=
  (ls.takeWhile Letter.isWord).length

/-- The number of further letters of the quotation that starts with a letter. -/
def quotation? (a : Letter) (ls : List Letter) : Option Nat :=
  if a.is '"' then quotedLength? '"' ls
  else if a.is '\'' then quotedLength? '\'' ls
  else
    let n := wordLength ls
    if rawWords.contains ((a :: ls.take n).map Letter.glyph) then
      match ls.drop n with
      | q :: rest => if q.is '"' then (rawLength? q rest).map (n + 1 + ·) else none
      | [] => none
    else none

/-- The number of further letters of the literal that starts with a letter: a quotation
    and the word behind it. -/
def literal? (a : Letter) (ls : List Letter) : Option Nat :=
  (quotation? a ls).map fun n => n + wordLength (ls.drop n)

-- ── Tokens ──────────────────────────────────────────────────────────────────

/-- The letter is one of the ten digits. -/
def Letter.isDigit (a : Letter) : Bool :=
  a.glyph.isOneOf "0123456789"

/-- The number of letters of a number that go on behind its first letter.  A sign may
    follow an exponent, and a quote may stand between two letters. -/
def numberLength : List Letter → Nat
  | [] => 0
  | [a] => if a.isWord || a.is '.' then 1 else 0
  | a :: b :: rest =>
    if (a.glyph.isOneOf "eEpP" && b.glyph.isOneOf "+-") || (a.is '\'' && b.isWord) then
      numberLength rest + 2
    else if a.isWord || a.is '.' then numberLength (b :: rest) + 1
    else 0

/-- The number of further letters of the token that starts with a letter. -/
def tokenLength (a : Letter) (ls : List Letter) : Nat :=
  if a.isDigit || (a.is '.' && ls.head?.any Letter.isDigit) then numberLength ls
  else if a.isWord then wordLength ls
  else if a.is '%' && ls.head?.any (·.is ':') then 1
  else 0

-- ── Lexemes ─────────────────────────────────────────────────────────────────

/-- The kind of the first lexeme, and the number of its further letters. -/
def front (a : Letter) (ls : List Letter) : Kind × Nat :=
  if a.is '\n' then (.newline, 0)
  else if a.glyph.isBlank then (.blank, 0)
  else
    match comment? a ls with
    | some found => found
    | none =>
      match literal? a ls with
      | some n => (.literal, n)
      | none => (.token, tokenLength a ls)

/-- A piece of a text. -/
structure Lexeme where
  kind : Kind
  first : Letter
  more : List Letter
  deriving DecidableEq

namespace Lexeme

/-- The letters of a lexeme. -/
def letters (x : Lexeme) : List Letter :=
  x.first :: x.more

/-- The position of the first letter. -/
def start (x : Lexeme) : Nat :=
  x.first.place

/-- The position behind the last letter. -/
def stop (x : Lexeme) : Nat :=
  (x.letters.getLast (List.cons_ne_nil _ _)).place + 1

/-- The lexeme is a comment. -/
def isComment (x : Lexeme) : Bool :=
  x.kind == .lineComment || x.kind == .blockComment

/-- The lexeme is a number sign, or the two marks that stand for it. -/
def isSign (x : Lexeme) : Bool :=
  x.letters.map Letter.glyph == ("#" : Text) || x.letters.map Letter.glyph == ("%:" : Text)

end Lexeme

/-- Letters cut into lexemes. -/
def lexemes : List Letter → List Lexeme
  | [] => []
  | a :: ls =>
    ⟨(front a ls).1, a, ls.take (front a ls).2⟩ :: lexemes (ls.drop (front a ls).2)
termination_by ls => ls.length
decreasing_by
  rw [List.length_drop, List.length_cons]
  omega

/-- The lexemes of a text. -/
def read (t : Text) : List Lexeme :=
  lexemes (letters 0 t)

-- ── Directives and code ─────────────────────────────────────────────────────

/-- What a line has turned out to be: nothing so far, a directive, or code. -/
inductive Mode where
  | fresh
  | directive
  | code
  deriving DecidableEq

/-- The first token of a line decides.  Comments and blanks do not, not even if they
    hold line ends. -/
def Mode.next (m : Mode) (x : Lexeme) : Mode :=
  match x.kind with
  | .newline => .fresh
  | .blank | .lineComment | .blockComment => m
  | .literal | .token => if m = .fresh then if x.isSign then .directive else .code else m

/-- What the last line has turned out to be after some lexemes. -/
def modeAfter (xs : List Lexeme) : Mode :=
  xs.foldl Mode.next .fresh

/-- The position at which the current line of a text of the given size ends. -/
def lineEnd (size : Nat) (xs : List Lexeme) : Nat :=
  match xs.dropWhile (·.kind != .newline) with
  | [] => size
  | x :: _ => x.start

/-- A comment of a text takes the positions from `start` up to `stop`. -/
def CommentAt (t : Text) (start stop : Nat) : Prop :=
  ∃ x ∈ read t, x.isComment = true ∧ x.start = start ∧ x.stop = stop

/-- A directive of a text takes the positions from its number sign up to the end of its
    line. -/
def DirectiveAt (t : Text) (start stop : Nat) : Prop :=
  ∃ before x after, read t = before ++ x :: after ∧ modeAfter before = .fresh
    ∧ x.isSign = true ∧ x.start = start ∧ lineEnd t.length after = stop

/-- A lexeme of a line of code starts at a position. -/
def CodeAt (t : Text) (start : Nat) : Prop :=
  ∃ before x after, read t = before ++ x :: after ∧ modeAfter (before ++ [x]) = .code
    ∧ x.start = start

-- ── What stands at the front ────────────────────────────────────────────────

theorem take_length_takeWhile {α : Type} (p : α → Bool) (l : List α) :
    l.take (l.takeWhile p).length = l.takeWhile p :=
  (List.prefix_iff_eq_take.mp (List.takeWhile_prefix p)).symm

theorem drop_length_takeWhile {α : Type} (p : α → Bool) (l : List α) :
    l.drop (l.takeWhile p).length = l.dropWhile p := by
  have h : (l.takeWhile p ++ l.dropWhile p).drop (l.takeWhile p).length = l.dropWhile p :=
    List.drop_left
  rwa [List.takeWhile_append_dropWhile] at h

theorem Letter.is_iff {a : Letter} {c : Char} : a.is c = true ↔ a.glyph = .char c :=
  beq_iff_eq

/-- A letter is one character only. -/
theorem Letter.is_eq_false {a : Letter} {c d : Char} (h : a.is c = true) (hcd : c ≠ d) :
    a.is d = false := by
  rw [Bool.eq_false_iff]
  intro hd
  rw [Letter.is_iff] at h hd
  exact hcd (Glyph.char.inj (h.symm.trans hd))

/-- What the first lexeme can be, with the number of its further letters. -/
inductive Front (a : Letter) (ls : List Letter) : Kind × Nat → Prop
  | newline : a.is '\n' = true → Front a ls (.newline, 0)
  | blank : a.is '\n' = false → a.glyph.isBlank = true → Front a ls (.blank, 0)
  | lineComment (b : Letter) (rest : List Letter) : ls = b :: rest → a.is '/' = true →
      b.is '/' = true → Front a ls (.lineComment, 1 + lineLength rest)
  | blockComment (b : Letter) (rest : List Letter) (n : Nat) : ls = b :: rest →
      a.is '/' = true → b.is '*' = true → closeLength? rest = some n →
      Front a ls (.blockComment, 1 + n)
  | literal (n : Nat) : a.is '\n' = false → literal? a ls = some n → Front a ls (.literal, n)
  | token : a.is '\n' = false → comment? a ls = none → Front a ls (.token, tokenLength a ls)

theorem front_cases (a : Letter) (ls : List Letter) : Front a ls (front a ls) := by
  rw [front]
  by_cases hnew : a.is '\n' = true
  · rw [if_pos hnew]
    exact .newline hnew
  rw [if_neg hnew]
  have hnew : a.is '\n' = false := Bool.eq_false_iff.mpr hnew
  by_cases hblank : a.glyph.isBlank = true
  · rw [if_pos hblank]
    exact .blank hnew hblank
  rw [if_neg hblank]
  cases hcomment : comment? a ls with
  | some found =>
      cases ls with
      | nil => exact absurd hcomment.symm (Option.some_ne_none found)
      | cons b rest =>
          rw [comment?] at hcomment
          split at hcomment
          · rename_i hslashes
            rw [Bool.and_eq_true] at hslashes
            cases hcomment
            exact .lineComment b rest rfl hslashes.1 hslashes.2
          · split at hcomment
            · rename_i hopen
              rw [Bool.and_eq_true] at hopen
              obtain ⟨n, hn, rfl⟩ := Option.map_eq_some_iff.mp hcomment
              exact .blockComment b rest n rfl hopen.1 hopen.2 hn
            · exact absurd hcomment.symm (Option.some_ne_none found)
  | none =>
      cases hliteral : literal? a ls with
      | some n => exact .literal n hnew hliteral
      | none => exact .token hnew hcomment

theorem lexemes_cons (a : Letter) (ls : List Letter) :
    lexemes (a :: ls)
      = ⟨(front a ls).1, a, ls.take (front a ls).2⟩ :: lexemes (ls.drop (front a ls).2) := by
  rw [lexemes]

theorem lexemes_of_front {a : Letter} {ls : List Letter} {kind : Kind} {n : Nat}
    (h : front a ls = (kind, n)) :
    lexemes (a :: ls) = ⟨kind, a, ls.take n⟩ :: lexemes (ls.drop n) := by
  rw [lexemes_cons, h]

/-- The lexemes hold all the letters. -/
theorem flatMap_lexemes (ls : List Letter) : (lexemes ls).flatMap Lexeme.letters = ls := by
  fun_induction lexemes ls with
  | case1 => rfl
  | case2 a ls ih => rw [List.flatMap_cons, ih, Lexeme.letters, List.cons_append,
      List.take_append_drop]

/-- Cut lexemes off, and the others are what the other letters are cut into. -/
theorem lexemes_suffix (before : List Lexeme) {after : List Lexeme} :
    ∀ {ls : List Letter}, lexemes ls = before ++ after →
      after = lexemes (after.flatMap Lexeme.letters) := by
  induction before with
  | nil =>
      rintro ls rfl
      rw [flatMap_lexemes]
  | cons x before ih =>
      intro ls h
      cases ls with
      | nil =>
          rw [lexemes] at h
          exact absurd h.symm (List.cons_ne_nil _ _)
      | cons a ls =>
          rw [lexemes_cons] at h
          exact ih (List.cons.inj h).2

/-- What stands at the front is the first lexeme. -/
theorem lexemes_eq_cons {ls : List Letter} {x : Lexeme} {xs : List Lexeme}
    (h : lexemes ls = x :: xs) :
    ∃ rest n, ls = x.first :: rest ∧ Front x.first rest (x.kind, n) ∧ x.more = rest.take n := by
  cases ls with
  | nil =>
      rw [lexemes] at h
      exact absurd h.symm (List.cons_ne_nil _ _)
  | cons a rest =>
      rw [lexemes_cons] at h
      obtain ⟨rfl, -⟩ := List.cons.inj h
      exact ⟨rest, _, rfl, front_cases a rest, rfl⟩

/-- Every lexeme was the first one at some time. -/
theorem front_of_mem {x : Lexeme} {ls : List Letter} (h : x ∈ lexemes ls) :
    ∃ rest n, Front x.first rest (x.kind, n) ∧ x.more = rest.take n := by
  obtain ⟨before, after, hsplit⟩ := List.append_of_mem h
  obtain ⟨rest, n, -, hfront⟩ := lexemes_eq_cons (lexemes_suffix before hsplit).symm
  exact ⟨rest, n, hfront⟩

theorem front_newline {a : Letter} (ls : List Letter) (h : a.is '\n' = true) :
    front a ls = (.newline, 0) := by
  rw [front, if_pos h]

theorem front_blank {a : Letter} (ls : List Letter) (h : a.is '\n' = false)
    (hb : a.glyph.isBlank = true) : front a ls = (.blank, 0) := by
  rw [front, if_neg (Bool.eq_false_iff.mp h), if_pos hb]

theorem front_of_comment {a : Letter} {ls : List Letter} {found : Kind × Nat}
    (ha : a.is '/' = true) (h : comment? a ls = some found) : front a ls = found := by
  have hblank : a.glyph.isBlank = false := by
    rw [Letter.is_iff.mp ha]
    decide
  rw [front, if_neg (Bool.eq_false_iff.mp (Letter.is_eq_false ha (by decide))), hblank,
    if_neg Bool.false_ne_true, h]

theorem front_lineComment {a b : Letter} (rest : List Letter) (ha : a.is '/' = true)
    (hb : b.is '/' = true) : front a (b :: rest) = (.lineComment, 1 + lineLength rest) := by
  apply front_of_comment ha
  rw [comment?, ha, hb]
  rfl

theorem front_blockComment {a b : Letter} {rest : List Letter} {n : Nat} (ha : a.is '/' = true)
    (hb : b.is '*' = true) (hn : closeLength? rest = some n) :
    front a (b :: rest) = (.blockComment, 1 + n) := by
  apply front_of_comment ha
  rw [comment?, ha, hb, Letter.is_eq_false hb (by decide), hn]
  rfl

/-- A number sign is a token of its own. -/
theorem front_sign {a : Letter} (ls : List Letter) (h : a.is '#' = true) :
    front a ls = (.token, 0) := by
  have hother : ∀ {c : Char}, '#' ≠ c → ¬ a.is c = true := fun hc =>
    Bool.eq_false_iff.mp (Letter.is_eq_false h hc)
  have hcomment : comment? a ls = none := by
    cases ls with
    | nil => rfl
    | cons b rest => rw [comment?, Letter.is_eq_false h (show '#' ≠ '/' by decide)]; rfl
  have hword : ∀ m, rawWords.contains ((a :: ls.take m).map Letter.glyph) = false := by
    intro m
    rw [List.map_cons, Letter.is_iff.mp h]
    rfl
  have hquoted : quotation? a ls = none := by
    rw [quotation?, if_neg (hother (by decide)), if_neg (hother (by decide))]
    dsimp only
    rw [hword, if_neg Bool.false_ne_true]
  have hliteral : literal? a ls = none := by
    rw [literal?, hquoted]
    rfl
  have hblank : ¬ a.glyph.isBlank = true := by
    rw [Letter.is_iff.mp h]
    decide
  have hlength : tokenLength a ls = 0 := by
    rw [tokenLength, Letter.isDigit, Letter.isWord, Letter.is_iff.mp h,
      Letter.is_eq_false h (show '#' ≠ '.' by decide),
      Letter.is_eq_false h (show '#' ≠ '%' by decide)]
    rfl
  rw [front, if_neg (hother (by decide)), if_neg hblank, hcomment, hliteral, hlength]

-- ── The letters of tokens ───────────────────────────────────────────────────

theorem Letter.is_eq_false_of_isWord {a : Letter} {c : Char} (h : a.isWord = true)
    (hc : Letter.isWord ⟨a.place, .char c⟩ = false) : a.is c = false := by
  rw [Bool.eq_false_iff]
  intro ha
  rw [← Letter.is_iff.mp ha] at hc
  exact Bool.false_ne_true (hc.symm.trans h)

/-- No slash and no newline. -/
def Letter.isInner (a : Letter) : Bool :=
  !a.is '/' && !a.is '\n'

theorem Letter.isInner_iff {a : Letter} :
    a.isInner = true ↔ a.is '/' = false ∧ a.is '\n' = false := by
  rw [isInner, Bool.and_eq_true, Bool.not_eq_true', Bool.not_eq_true']

theorem Letter.isInner_of_isWord {a : Letter} (h : a.isWord = true) : a.isInner = true :=
  isInner_iff.mpr ⟨is_eq_false_of_isWord h rfl, is_eq_false_of_isWord h rfl⟩

theorem Letter.isInner_of_is {a : Letter} {c : Char} (h : a.is c = true) (hs : c ≠ '/')
    (hn : c ≠ '\n') : a.isInner = true :=
  isInner_iff.mpr ⟨is_eq_false h hs, is_eq_false h hn⟩

theorem Letter.isInner_of_isOneOf {a : Letter} {s : String} (h : a.glyph.isOneOf s = true)
    (hs : '/' ∉ s.toList) (hn : '\n' ∉ s.toList) : a.isInner = true := by
  cases hg : a.glyph with
  | char c =>
      rw [hg] at h
      have hmem : c ∈ s.toList := List.contains_iff_mem.mp h
      exact isInner_of_is (Letter.is_iff.mpr hg) (fun he => hs (he ▸ hmem)) fun he => hn (he ▸ hmem)
  | surrogate index =>
      rw [hg] at h
      exact absurd h Bool.false_ne_true

theorem Letter.isInner_of_number {a : Letter} (h : (a.isWord || a.is '.') = true) :
    a.isInner = true := by
  rcases Bool.or_eq_true_iff.mp h with h | h
  · exact isInner_of_isWord h
  · exact isInner_of_is h (by decide) (by decide)

theorem isInner_numberLength (ls : List Letter) :
    ∀ b ∈ ls.take (numberLength ls), b.isInner = true := by
  fun_induction numberLength ls with
  | case1 => exact fun b hb => absurd hb List.not_mem_nil
  | case2 a h =>
      intro b hb
      rw [List.take_one, List.head?_cons, Option.toList_some, List.mem_singleton] at hb
      rw [hb]
      exact Letter.isInner_of_number h
  | case3 a h => exact fun b hb => absurd hb List.not_mem_nil
  | case4 a b rest h ih =>
      have hpair : a.isInner = true ∧ b.isInner = true := by
        rcases Bool.or_eq_true_iff.mp h with h | h
        · rw [Bool.and_eq_true] at h
          exact ⟨Letter.isInner_of_isOneOf h.1 (by decide) (by decide),
            Letter.isInner_of_isOneOf h.2 (by decide) (by decide)⟩
        · rw [Bool.and_eq_true] at h
          exact ⟨Letter.isInner_of_is h.1 (by decide) (by decide), Letter.isInner_of_isWord h.2⟩
      intro c hc
      rw [List.take_succ_cons, List.take_succ_cons] at hc
      rcases List.mem_cons.mp hc with rfl | hc
      · exact hpair.1
      · rcases List.mem_cons.mp hc with rfl | hc
        · exact hpair.2
        · exact ih c hc
  | case5 a b rest _ h ih =>
      intro c hc
      rw [List.take_succ_cons] at hc
      rcases List.mem_cons.mp hc with rfl | hc
      · exact Letter.isInner_of_number h
      · exact ih c hc
  | case6 a b rest _ h => exact fun b hb => absurd hb List.not_mem_nil

/-- The further letters of a token are neither slashes nor newlines. -/
theorem isInner_tokenLength (a : Letter) (ls : List Letter) :
    ∀ b ∈ ls.take (tokenLength a ls), b.isInner = true := by
  intro b hb
  rw [tokenLength] at hb
  split at hb
  · exact isInner_numberLength ls b hb
  · split at hb
    · rw [wordLength, take_length_takeWhile] at hb
      exact Letter.isInner_of_isWord (List.all_eq_true.mp List.all_takeWhile b hb)
    · split at hb
      · rename_i hcolon
        cases ls with
        | nil => exact absurd hb List.not_mem_nil
        | cons c rest =>
            rw [List.take_one, List.head?_cons, Option.toList_some, List.mem_singleton] at hb
            rw [hb]
            rw [Bool.and_eq_true] at hcolon
            exact Letter.isInner_of_is (c := ':') hcolon.2 (by decide) (by decide)
      · exact absurd hb List.not_mem_nil

-- ── The letters of lexemes ──────────────────────────────────────────────────

theorem Lexeme.stop_eq {x : Lexeme} {z : Letter} (h : x.letters.getLast? = some z) :
    x.stop = z.place + 1 := by
  have hlast := List.getLast?_eq_some_getLast (List.cons_ne_nil x.first x.more)
  have hz : x.letters.getLast (List.cons_ne_nil _ _) = z := Option.some.inj (hlast.symm.trans h)
  rw [stop, hz]

/-- A newline has one letter. -/
theorem newline_letters {x : Lexeme} {ls : List Letter} (h : x ∈ lexemes ls)
    (hk : x.kind = .newline) : x.letters = [x.first] ∧ x.first.is '\n' = true := by
  obtain ⟨rest, n, hfront, hmore⟩ := front_of_mem h
  rw [hk] at hfront
  cases hfront with
  | newline hnew =>
      rw [Lexeme.letters, hmore]
      exact ⟨rfl, hnew⟩

/-- Blanks and tokens hold no newline. -/
theorem no_newline {x : Lexeme} {ls : List Letter} (h : x ∈ lexemes ls)
    (hk : x.kind = .blank ∨ x.kind = .token) : ∀ a ∈ x.letters, a.is '\n' = false := by
  obtain ⟨rest, n, hfront, hmore⟩ := front_of_mem h
  intro a ha
  rw [Lexeme.letters, hmore] at ha
  rcases hk with hk | hk
  · rw [hk] at hfront
    cases hfront with
    | blank hfirst =>
        rw [List.mem_singleton.mp ha]
        exact hfirst
  · rw [hk] at hfront
    cases hfront with
    | token hfirst =>
        rcases List.mem_cons.mp ha with rfl | ha
        · exact hfirst
        · exact (Letter.isInner_iff.mp (isInner_tokenLength x.first rest a ha)).2

end SketchMerge.Cpp
