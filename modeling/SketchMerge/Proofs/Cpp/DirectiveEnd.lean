import SketchMerge.Proofs.Cpp.Alignment

/-! # Where a directive ends

    The scan of a directive goes over glyphs; C++ reads a directive as the lexemes up to
    the next newline, which stands neither in a comment nor in a literal.  WITHOUT A TRAP
    in the directive, both come to the same end (`directive_read`).

    The proof goes over the lexemes.  The scan passes each of them, a block comment as a
    whole and the others letter by letter; but where a line comment opens, or seems to
    open in a literal, it goes to the end of the line at once (`lexeme_read`). -/

namespace SketchMerge.Cpp

open Pattern Trivia

-- ── What seems to open a comment ────────────────────────────────────────────

theorem seemsLine_cases {ls : List Letter} (h : seemsLine ls = true) :
    ∃ n rest, ls = ⟨n, .char '/'⟩ :: ⟨n + 1, .char '/'⟩ :: rest := by
  rcases ls with _ | ⟨⟨n, g⟩, _ | ⟨⟨m, g'⟩, rest⟩⟩
  · exact absurd h Bool.false_ne_true
  · exact absurd h Bool.false_ne_true
  · rw [seemsLine, Bool.and_eq_true, Bool.and_eq_true] at h
    obtain ⟨⟨hg, hg'⟩, htouch⟩ := h
    obtain rfl : g = .char '/' := Letter.is_iff.mp hg
    obtain rfl : g' = .char '/' := Letter.is_iff.mp hg'
    obtain rfl : m = n + 1 := beq_iff_eq.mp htouch
    exact ⟨n, rest, rfl⟩

/-- Comments seem to open with a slash. -/
theorem seemsComment_of_ne {a : Letter} (ls : List Letter) (h : a.is '/' = false) :
    seemsComment (a :: ls) = false := by
  cases ls with
  | nil => rfl
  | cons b rest =>
      rw [seemsComment, seemsLine, seemsBlock, h]
      rfl

/-- Where a comment seems to open in front of a token, there is one. -/
theorem seemsComment_of_none {a : Letter} {ls : List Letter} (h : comment? a ls = none) :
    seemsComment (a :: ls) = false := by
  cases ls with
  | nil => rfl
  | cons b rest =>
      rw [comment?] at h
      split at h
      · exact absurd h (Option.some_ne_none _)
      · rename_i hline
        have hline : (a.is '/' && b.is '/') = false := Bool.eq_false_iff.mpr hline
        split at h
        · have hopen : joinedLength? rest = none := by
            rw [Option.eq_none_iff_forall_ne_some]
            intro m hm
            obtain ⟨m', hm'⟩ := closeLength?_of_joinedLength? hm
            rw [hm'] at h
            exact absurd h (Option.some_ne_none _)
          rw [seemsComment, seemsLine, hline, seemsBlock, hopen, Option.isSome_none,
            Bool.and_false]
          rfl
        · rename_i hblock
          have hblock : (a.is '/' && b.is '*') = false := Bool.eq_false_iff.mpr hblock
          rw [seemsComment, seemsLine, hline, seemsBlock, hblock]
          rfl

/-- Among the letters of blanks and tokens, no comment seems to open. -/
theorem seemsComment_quiet {ls : List Letter} {x : Lexeme} {xs : List Lexeme}
    (h : lexemes ls = x :: xs) (hk : x.kind = .blank ∨ x.kind = .token) :
    ∀ i, i < x.letters.length →
      seemsComment ((x.letters ++ xs.flatMap Lexeme.letters).drop i) = false := by
  obtain ⟨rest, n, hls, hfront, hmore⟩ := lexemes_eq_cons h
  have hflat : x.first :: rest = x.letters ++ xs.flatMap Lexeme.letters := by
    rw [← hls, ← flatMap_lexemes ls, h, List.flatMap_cons]
  have hrest : rest = x.more ++ xs.flatMap Lexeme.letters := (List.cons.inj hflat).2
  have hfirst : seemsComment (x.first :: rest) = false := by
    rcases hk with hk | hk
    · rw [hk] at hfront
      cases hfront with
      | blank _ hblank =>
          apply seemsComment_of_ne
          rw [Bool.eq_false_iff]
          intro hslash
          rw [Letter.is_iff.mp hslash] at hblank
          exact absurd hblank (by decide)
    · rw [hk] at hfront
      cases hfront with
      | token _ hcomment => exact seemsComment_of_none hcomment
  have hinner : ∀ b ∈ x.more, b.is '/' = false := by
    rcases hk with hk | hk
    · rw [hk] at hfront
      cases hfront with
      | blank =>
          rw [hmore]
          exact fun b hb => absurd hb List.not_mem_nil
    · rw [hk] at hfront
      cases hfront with
      | token =>
          intro b hb
          rw [hmore] at hb
          exact (Letter.isInner_iff.mp (isInner_tokenLength _ _ b hb)).1
  -- A comment can seem to open with the first letter only.
  intro i hi
  cases i with
  | zero =>
      rw [← hflat]
      exact hfirst
  | succ i =>
      have hi : i < x.more.length := Nat.lt_of_succ_lt_succ hi
      rw [Lexeme.letters, List.cons_append, List.drop_succ_cons,
        List.drop_append_of_le_length (Nat.le_of_lt hi), List.drop_eq_getElem_cons hi,
        List.cons_append]
      exact seemsComment_of_ne _ (hinner _ (List.getElem_mem hi))

-- ── The end of the line ─────────────────────────────────────────────────────

/-- From one place up to another stand lexemes of one line, and there the line is over. -/
def RunsTo (size : Nat) (xs : List Lexeme) (p q : Place) : Prop :=
  ∃ body, xs = body ++ lexemes (lettersAt q) ∧ (∀ x ∈ body, x.kind ≠ .newline)
    ∧ Reads p (body.flatMap Lexeme.letters) q ∧ LineOver size q.taken (lettersAt q)

theorem RunsTo.cons {size : Nat} {x : Lexeme} {xs : List Lexeme} {p p' q : Place}
    (hx : x.kind ≠ .newline) (hreads : Reads p x.letters p') (h : RunsTo size xs p' q) :
    RunsTo size (x :: xs) p q := by
  obtain ⟨body, hxs, hbody, hread, hover⟩ := h
  refine ⟨x :: body, ?_, ?_, ?_, hover⟩
  · rw [hxs, List.cons_append]
  · intro y hy
    rcases List.mem_cons.mp hy with rfl | hy
    · exact hx
    · exact hbody y hy
  · rw [List.flatMap_cons]
    exact hreads.trans hread

theorem directiveStep?_newline (n : Nat) (rest : Text) :
    directiveStep? ⟨n, .char '\n' :: rest⟩ = none := rfl

theorem directiveStep?_lineStop (p : Place) : directiveStep? (lineStop p) = none := by
  rw [lineStop, Place.behind]
  have hhead := List.head?_dropWhile_not (fun g : Glyph => !g.is '\n') p.left
  cases hd : p.left.dropWhile (!·.is '\n') with
  | nil => rfl
  | cons g rest =>
      rw [hd, List.head?_cons] at hhead
      obtain rfl : g = .char '\n' := Glyph.is_iff.mp (by rwa [← Bool.not_eq_false'])
      exact directiveStep?_newline _ rest

theorem unbroken_drop {stop n i : Nat} {ls : List Letter} (h : unbroken stop n ls = true)
    (hi : i ≤ ls.length) : unbroken stop (n + i) (ls.drop i) = true := by
  induction ls generalizing n i with
  | nil =>
      obtain rfl : i = 0 := Nat.le_zero.mp hi
      exact h
  | cons a ls ih =>
      cases i with
      | zero => exact h
      | succ i =>
          rw [unbroken, Bool.and_eq_true] at h
          rw [List.drop_succ_cons, Nat.add_comm i 1, ← Nat.add_assoc]
          exact ih h.2 (Nat.le_of_succ_le_succ hi)

theorem unbroken_last {stop n : Nat} {ls : List Letter} {z : Letter}
    (h : unbroken stop n ls = true) (hz : ls.getLast? = some z) : z.place + 1 = stop := by
  obtain ⟨before, rfl⟩ := List.getLast?_eq_some_iff.mp hz
  have hlast := unbroken_drop (i := before.length) h
    (by rw [List.length_append]; exact Nat.le_add_right ..)
  rw [List.drop_left, unbroken, unbroken, Bool.and_eq_true, beq_iff_eq, beq_iff_eq] at hlast
  rw [hlast.1, hlast.2]

/-- Where a line comment seems to open, the scan goes to the end of the line. -/
theorem directiveStop_of_seemsLine {size stop n : Nat} {p : Place} {ls rest : List Letter}
    (h : lettersAt p = ls ++ rest) (hsize : p.taken + p.left.length = size) (hne : ls ≠ [])
    (hline : seemsLine (ls ++ rest) = true) (hnew : ∀ a ∈ ls, a.is '\n' = false)
    (hun : unbroken stop n ls = true) (hover : LineOver size stop rest) :
    Reads p ls (directiveStop p) ∧ lettersAt (directiveStop p) = rest
      ∧ (directiveStop p).taken = stop := by
  obtain ⟨m, more, hseems⟩ := seemsLine_cases hline
  obtain ⟨r, -, hr, hreads, hstop⟩ := first_letter (h.trans hseems)
  obtain ⟨r', hr', -, -⟩ := letter_here hr rfl
  obtain rfl : r = .char '/' :: r' := congrArg Place.left hr'
  have hstep : directiveStep? ⟨m, .char '/' :: .char '/' :: r'⟩
      = some (lineStop ⟨m, .char '/' :: .char '/' :: r'⟩) := rfl
  have hend : directiveStop p = lineStop ⟨m, .char '/' :: .char '/' :: r'⟩ := by
    rw [hstop, directiveStop_of_some hstep, directiveStop_of_none (directiveStep?_lineStop _)]
  have hun : unbroken stop m ls = true := by
    cases ls with
    | nil => exact absurd rfl hne
    | cons b ms =>
        have hb : b = ⟨m, .char '/'⟩ := (List.cons.inj hseems).1
        have hn : m = n := by
          rw [unbroken, Bool.and_eq_true, beq_iff_eq, hb] at hun
          exact hun.1
        rw [hn]
        exact hun
  have hletters : lettersAt ⟨m, .char '/' :: .char '/' :: r'⟩ = ls ++ rest :=
    hreads.split.symm.trans h
  rw [← hsize, ← hreads.size] at hover
  obtain ⟨hreads', hrest, htaken⟩ := reads_toLineEnd ls hletters hnew hun hover
  rw [hend]
  exact ⟨hreads.trans hreads', hrest, htaken⟩

/-- A line is over where its end is said to be. -/
theorem lineOver_lineEnd (size : Nat) {xs : List Lexeme} {ls : List Letter}
    (h : ∀ y ∈ xs, y ∈ lexemes ls) :
    LineOver size (lineEnd size xs)
      ((xs.dropWhile (·.kind != .newline)).flatMap Lexeme.letters) := by
  have hhead := List.head?_dropWhile_not (fun x : Lexeme => x.kind != .newline) xs
  rw [lineEnd]
  cases hd : xs.dropWhile (·.kind != .newline) with
  | nil => rfl
  | cons y ys =>
      rw [hd, List.head?_cons] at hhead
      have hk : y.kind = .newline := bne_eq_false_iff_eq.mp hhead
      have hmem : y ∈ xs := (List.dropWhile_suffix _).subset (hd ▸ List.mem_cons_self ..)
      obtain ⟨hletters, hnew⟩ := newline_letters (h y hmem) hk
      rw [List.flatMap_cons, hletters]
      exact ⟨hnew, rfl⟩

theorem lineEnd_of_lineOver {size stop : Nat} {ls : List Letter} (h : LineOver size stop ls) :
    lineEnd size (lexemes ls) = stop := by
  cases ls with
  | nil =>
      rw [lexemes]
      exact h.symm
  | cons a ls =>
      rw [lexemes_cons, front_newline ls h.1]
      exact h.2.symm

/-- A line ends behind the lexemes that are no newlines. -/
theorem lineEnd_append {size : Nat} {xs : List Lexeme} (ys : List Lexeme)
    (h : ∀ x ∈ xs, x.kind ≠ .newline) : lineEnd size (xs ++ ys) = lineEnd size ys := by
  rw [lineEnd, lineEnd, List.dropWhile_append_of_pos]
  exact fun x hx => bne_iff_ne.mpr (h x hx)

/-- A line ends with its first newline. -/
theorem lineEnd_lt {size n : Nat} {xs : List Lexeme} (ys : List Lexeme)
    (hn : ∀ a ∈ xs.flatMap Lexeme.letters, a.place < n) (h : ∃ x ∈ xs, x.kind = .newline) :
    lineEnd size (xs ++ ys) < n := by
  induction xs with
  | nil =>
      obtain ⟨x, hx, -⟩ := h
      exact absurd hx List.not_mem_nil
  | cons x xs ih =>
      rw [List.flatMap_cons] at hn
      by_cases hx : x.kind = .newline
      · rw [lineEnd, List.cons_append, List.dropWhile_cons_of_neg (by rw [hx]; decide)]
        exact hn x.first (List.mem_append_left _ (List.mem_cons_self ..))
      · rw [lineEnd, List.cons_append, List.dropWhile_cons_of_pos (by exact bne_iff_ne.mpr hx)]
        apply ih fun a ha => hn a (List.mem_append_right _ ha)
        obtain ⟨y, hy, hk⟩ := h
        rcases List.mem_cons.mp hy with rfl | hy
        · exact absurd hk hx
        · exact ⟨y, hy, hk⟩

theorem lettersAt_eq {p : Place} {x : Lexeme} {xs : List Lexeme}
    (h : lexemes (lettersAt p) = x :: xs) :
    lettersAt p = x.letters ++ xs.flatMap Lexeme.letters := by
  rw [← flatMap_lexemes (lettersAt p), h, List.flatMap_cons]

/-- **THE LINE RUNS OUT** from a lexeme on, if the scan comes to a letter of it from which a
    line comment seems to open. -/
theorem runsTo_of_runsOut {size i : Nat} {x : Lexeme} {xs : List Lexeme} {p q : Place}
    (hx : lexemes (lettersAt p) = x :: xs) (hsize : p.taken + p.left.length = size)
    (hk : x.kind ≠ .newline) (hrun : x.runsOut size xs = true) (hi : i < x.letters.length)
    (hreads : Reads p (x.letters.take i) q)
    (hq : lettersAt q = x.letters.drop i ++ xs.flatMap Lexeme.letters)
    (hline : seemsLine (x.letters.drop i ++ xs.flatMap Lexeme.letters) = true)
    (hstop : directiveStop p = directiveStop q) :
    RunsTo size (x :: xs) p (directiveStop p) := by
  have hover := lineOver_lineEnd size fun y hy => hx ▸ List.mem_cons_of_mem x hy
  have hkinds : ∀ y ∈ xs.takeWhile (·.kind != .newline), y.kind ≠ .newline := fun y hy =>
    bne_iff_ne.mp (List.all_eq_true.mp List.all_takeWhile y hy)
  rw [Lexeme.runsOut, Bool.and_eq_true, List.all_eq_true] at hrun
  obtain ⟨hnew, hun⟩ := hrun
  have hsplit := (List.takeWhile_append_dropWhile (p := fun y : Lexeme => y.kind != .newline)
    (l := xs)).symm
  generalize xs.takeWhile (·.kind != .newline) = line at *
  generalize xs.dropWhile (·.kind != .newline) = tail at *
  subst hsplit
  -- The letters of the line are those passed and those from the two slashes on.
  have hle : i ≤ x.letters.length := Nat.le_of_lt hi
  have htake : ((x :: line).flatMap Lexeme.letters).take i = x.letters.take i := by
    rw [List.flatMap_cons, List.take_append_of_le_length hle]
  have hdrop : ((x :: line).flatMap Lexeme.letters).drop i ++ tail.flatMap Lexeme.letters
      = x.letters.drop i ++ (line ++ tail).flatMap Lexeme.letters := by
    rw [List.flatMap_cons, List.drop_append_of_le_length hle, List.flatMap_append,
      List.append_assoc]
  have hlong : i < ((x :: line).flatMap Lexeme.letters).length := by
    rw [List.flatMap_cons, List.length_append]
    omega
  have hne : ((x :: line).flatMap Lexeme.letters).drop i ≠ [] := fun hnil =>
    absurd (List.drop_eq_nil_iff.mp hnil) (Nat.not_le_of_lt hlong)
  have hnew' : ∀ a ∈ ((x :: line).flatMap Lexeme.letters).drop i, a.is '\n' = false := fun a ha =>
    (Bool.not_eq_true' _).mp (hnew a (List.mem_of_mem_drop ha))
  rw [← hdrop] at hq hline
  obtain ⟨hreads', hrest, htaken⟩ := directiveStop_of_seemsLine hq (hreads.size.trans hsize) hne
    hline hnew' (unbroken_drop hun (Nat.le_of_lt hlong)) hover
  rw [hstop]
  refine ⟨x :: line, ?_, ?_, ?_, ?_⟩
  · rw [hrest, ← lexemes_suffix (x :: line) hx]
    rfl
  · intro y hy
    rcases List.mem_cons.mp hy with rfl | hy
    · exact hk
    · exact hkinds y hy
  · have hall := hreads.trans hreads'
    rwa [← htake, List.take_append_drop] at hall
  · rw [hrest, htaken]
    exact hover

-- ── One lexeme after the other ──────────────────────────────────────────────

/-- Behind the letters of the first lexeme stand the other lexemes. -/
theorem Reads.rest {p q : Place} {x : Lexeme} {xs : List Lexeme} (hread : Reads p x.letters q)
    (h : lexemes (lettersAt p) = x :: xs) : lexemes (lettersAt q) = xs := by
  have hq : lettersAt q = xs.flatMap Lexeme.letters :=
    List.append_cancel_left (hread.split.symm.trans (lettersAt_eq h))
  rw [hq, ← lexemes_suffix [x] h]

/-- A block comment is read alike, if it is no trap. -/
theorem blockStop?_read {size : Nat} {x : Lexeme} {xs : List Lexeme} {p : Place}
    (h : lexemes (lettersAt p) = x :: xs) (hk : x.kind = .blockComment)
    (hplain : x.isPlain size xs = true) (hp : x.start = p.taken) :
    ∃ q, blockStop? p = some q ∧ Reads p x.letters q ∧ q.taken = x.stop := by
  obtain ⟨ls, n, hletters, hfront, hmore⟩ := lexemes_eq_cons h
  obtain ⟨kind, first, more⟩ := x
  dsimp only at *
  subst hk
  cases hfront with
  | blockComment b rest m hls hfirst hb hm =>
      subst hls
      rw [Nat.add_comm, List.take_succ_cons] at hmore
      subst hmore
      rw [Lexeme.isPlain, Bool.and_eq_true] at hplain
      obtain ⟨hstarts, hends⟩ := hplain
      have hbounds := closeLength?_bounds hm
      have hlong : 2 ≤ (rest.take m).length := by
        rw [List.length_take]
        omega
      have hlonger : 2 ≤ (b :: rest.take m).length := Nat.le_succ_of_le hlong
      rw [Lexeme.letters, endsJoined_cons _ hlonger, endsJoined_cons _ hlong] at hends
      -- The two opening marks are glyphs of the text; behind them the comment goes on.
      obtain ⟨n, slash⟩ := first
      obtain ⟨n', star⟩ := b
      obtain rfl : slash = .char '/' := Letter.is_iff.mp hfirst
      obtain rfl : star = .char '*' := Letter.is_iff.mp hb
      obtain rfl : n' = n + 1 := beq_iff_eq.mp hstarts
      obtain ⟨r, rfl, hun, hr⟩ := letter_here hletters hp
      obtain ⟨r', hr', hun', hrest⟩ := letter_here hr rfl
      obtain rfl : r = .char '*' :: r' := congrArg Place.left hr'
      obtain rfl : letters (n + 1 + 1) r' = rest := hrest
      obtain ⟨q, hclosing, hreads, -, z, hz, hplace⟩ :=
        closing?_letters (joinedLength?_of_endsJoined hm hends)
      refine ⟨q, hclosing, (Reads.one hun).trans ((Reads.one hun').trans hreads), ?_⟩
      rw [hplace, Lexeme.stop_eq (z := z)]
      rw [Lexeme.letters, List.getLast?_cons, List.getLast?_cons, Option.mem_def.mp hz]
      rfl

/-- Behind a line comment, its line is over. -/
theorem takeWhile_of_lineComment {ls : List Letter} {x : Lexeme} {xs : List Lexeme}
    (h : lexemes ls = x :: xs) (hk : x.kind = .lineComment) :
    xs.takeWhile (·.kind != .newline) = [] := by
  obtain ⟨rest, n, hls, hfront, hmore⟩ := lexemes_eq_cons h
  rw [hk] at hfront
  cases hfront with
  | lineComment b more hrest hfirst hb =>
      have hxs : xs = lexemes (more.dropWhile (!·.is '\n')) := by
        rw [hls, hrest, lexemes_of_front (front_lineComment more hfirst hb), Nat.add_comm,
          List.drop_succ_cons, lineLength, drop_length_takeWhile] at h
        exact (List.cons.inj h).2.symm
      have hhead := List.head?_dropWhile_not (fun a : Letter => !a.is '\n') more
      cases hd : more.dropWhile (!·.is '\n') with
      | nil =>
          rw [hxs, hd, lexemes]
          rfl
      | cons a after =>
          rw [hd, List.head?_cons] at hhead
          have hnew : a.is '\n' = true := by rwa [← Bool.not_eq_false']
          rw [hxs, hd, lexemes_of_front (front_newline after hnew)]
          rfl

/-- A line comment is read alike, if it is no trap. -/
theorem lineStop_read {size : Nat} {x : Lexeme} {xs : List Lexeme} {p : Place}
    (h : lexemes (lettersAt p) = x :: xs) (hsize : p.taken + p.left.length = size)
    (hk : x.kind = .lineComment) (hplain : x.isPlain size xs = true) (hp : x.start = p.taken) :
    Reads p x.letters (lineStop p) ∧ (lineStop p).taken = x.stop := by
  have hover := lineOver_lineEnd size fun y hy => h ▸ List.mem_cons_of_mem x hy
  have hline := takeWhile_of_lineComment h hk
  have hdrop : xs.dropWhile (·.kind != .newline) = xs := by
    have hsplit := List.takeWhile_append_dropWhile (p := fun y : Lexeme => y.kind != .newline)
      (l := xs)
    rwa [hline] at hsplit
  rw [Lexeme.isPlain, hk] at hplain
  dsimp only at hplain
  rw [Lexeme.runsOut, hline, List.flatMap_singleton, Bool.and_eq_true, List.all_eq_true,
    hp] at hplain
  obtain ⟨hnew, hun⟩ := hplain
  rw [hdrop] at hover
  subst hsize
  have hnew : ∀ a ∈ x.letters, a.is '\n' = false := fun a ha => (Bool.not_eq_true' _).mp (hnew a ha)
  obtain ⟨hreads, -, htaken⟩ := reads_toLineEnd x.letters (lettersAt_eq h) hnew hun hover
  refine ⟨hreads, ?_⟩
  have hlast : x.letters.getLast? = some (x.letters.getLast (List.cons_ne_nil _ _)) :=
    List.getLast?_eq_some_getLast _
  rw [htaken, Lexeme.stop_eq hlast, unbroken_last hun hlast]

/-- Two slashes open a line comment that is no trap. -/
theorem seemsLine_of_runsOut {size : Nat} {ls : List Letter} {x : Lexeme} {xs : List Lexeme}
    (h : lexemes ls = x :: xs) (hk : x.kind = .lineComment) (hrun : x.runsOut size xs = true) :
    seemsLine (x.letters ++ xs.flatMap Lexeme.letters) = true := by
  obtain ⟨rest, n, -, hfront, hmore⟩ := lexemes_eq_cons h
  rw [hk] at hfront
  cases hfront with
  | lineComment b more hrest hfirst hb =>
      subst hrest
      rw [Nat.add_comm, List.take_succ_cons] at hmore
      rw [Lexeme.runsOut, Bool.and_eq_true, List.flatMap_cons, Lexeme.letters, hmore,
        List.cons_append, List.cons_append, unbroken, unbroken, Bool.and_eq_true,
        Bool.and_eq_true] at hrun
      rw [Lexeme.letters, hmore, List.cons_append, List.cons_append, seemsLine, hfirst, hb]
      exact hrun.2.2.1

/-- The scan passes a blank or a token. -/
theorem quiet_read {x : Lexeme} {xs : List Lexeme} {p : Place}
    (h : lexemes (lettersAt p) = x :: xs) (hk : x.kind = .blank ∨ x.kind = .token) :
    ∃ q, Reads p x.letters q ∧ directiveStop p = directiveStop q := by
  have hquiet := seemsComment_quiet h hk
  have hnew := no_newline (h ▸ List.mem_cons_self ..) hk
  obtain ⟨i, q, hi, hreads, -, hstop, hend⟩ := scan_letters (lettersAt_eq h) hnew fun i hi hb => by
    have hno := hquiet i hi
    rw [seemsComment, hb, Bool.or_true] at hno
    exact absurd hno Bool.true_eq_false.mp
  obtain rfl : i = x.letters.length := by
    rcases Nat.lt_or_eq_of_le hi with hlt | heq
    · have hno := hquiet i hlt
      rw [List.drop_append_of_le_length hi, seemsComment, hend hlt, Bool.true_or] at hno
      exact absurd hno Bool.true_eq_false.mp
    · exact heq
  rw [List.take_length] at hreads
  exact ⟨q, hreads, hstop⟩

/-- The scan passes a literal that is no trap, or the line runs out from it on. -/
theorem literal_read {size : Nat} {x : Lexeme} {xs : List Lexeme} {p : Place}
    (h : lexemes (lettersAt p) = x :: xs) (hsize : p.taken + p.left.length = size)
    (hk : x.kind = .literal) (hplain : x.isPlain size xs = true) :
    (∃ q, Reads p x.letters q ∧ directiveStop p = directiveStop q)
      ∨ RunsTo size (x :: xs) p (directiveStop p) := by
  rw [Lexeme.isPlain, hk] at hplain
  dsimp only at hplain
  rw [Bool.and_eq_true, Bool.and_eq_true, List.all_eq_true] at hplain
  obtain ⟨⟨hnew, hblocks⟩, hline⟩ := hplain
  have hnew : ∀ a ∈ x.letters, a.is '\n' = false := fun a ha => (Bool.not_eq_true' _).mp (hnew a ha)
  obtain ⟨i, q, hi, hreads, hq, hstop, hend⟩ := scan_letters (lettersAt_eq h) hnew fun i =>
    Lexeme.closed_of_closesBlocks hblocks
  rcases Nat.lt_or_eq_of_le hi with hlt | rfl
  · right
    have hopens : x.opensLine xs = true := by
      apply Lexeme.opensLine_iff.mpr
      refine ⟨i, hlt, ?_⟩
      rw [List.drop_append_of_le_length hi]
      exact hend hlt
    rw [hopens, Bool.not_true, Bool.false_or] at hline
    exact runsTo_of_runsOut h hsize (by rw [hk]; decide) hline hlt hreads hq (hend hlt) hstop
  · left
    rw [List.take_length] at hreads
    exact ⟨q, hreads, hstop⟩

/-- **ONE LEXEME** of a directive that is no trap: the scan passes it, or the line runs out
    from it on. -/
theorem lexeme_read {size : Nat} {x : Lexeme} {xs : List Lexeme} {p : Place}
    (h : lexemes (lettersAt p) = x :: xs) (hsize : p.taken + p.left.length = size)
    (hk : x.kind ≠ .newline) (hplain : x.isPlain size xs = true) :
    (∃ q, Reads p x.letters q ∧ directiveStop p = directiveStop q)
      ∨ RunsTo size (x :: xs) p (directiveStop p) := by
  cases hkind : x.kind with
  | newline => exact absurd hkind hk
  | blank => exact .inl (quiet_read h (.inl hkind))
  | token => exact .inl (quiet_read h (.inr hkind))
  | literal => exact literal_read h hsize hkind hplain
  | lineComment =>
      rw [Lexeme.isPlain, hkind] at hplain
      exact .inr (runsTo_of_runsOut (i := 0) h hsize hk hplain (Nat.succ_pos _) (.refl p)
        (lettersAt_eq h) (seemsLine_of_runsOut h hkind hplain) rfl)
  | blockComment =>
      obtain ⟨r, -, -, hreads, hstop⟩ := first_letter (lettersAt_eq h)
      have hhere : lexemes (lettersAt ⟨x.first.place, x.first.glyph :: r⟩) = x :: xs := by
        rw [← h, hreads.split, List.nil_append]
      obtain ⟨q, hq, hreads', -⟩ := blockStop?_read hhere hkind hplain rfl
      refine .inl ⟨q, hreads.trans hreads', ?_⟩
      rw [hstop, directiveStop_of_some (directiveStep?_of_blockStop? hq)]

/-- **DIRECTIVES END ALIKE.**  Without a trap in it, a directive is scanned to the end of
    its line: over lexemes that are no newlines, up to a newline or the end of the text. -/
theorem directive_read {size : Nat} (xs : List Lexeme) :
    ∀ {p : Place}, lexemes (lettersAt p) = xs → p.taken + p.left.length = size →
      plainFrom size .directive xs = true → RunsTo size xs p (directiveStop p) := by
  induction xs with
  | nil =>
      intro p h hsize _
      have hletters : lettersAt p = [] := by
        rw [← flatMap_lexemes (lettersAt p), h]
        rfl
      obtain ⟨m, hreads, hstop⟩ := no_letter hletters
      rw [hstop]
      refine ⟨[], ?_, fun x hx => absurd hx List.not_mem_nil, hreads, ?_⟩
      · rw [lettersAt, letters, lexemes, List.nil_append]
      · rw [← hsize]
        exact hreads.size
  | cons x xs ih =>
      intro p h hsize hplain
      by_cases hk : x.kind = .newline
      · -- Over joined line ends, if there are any, and then no step applies.
        obtain ⟨hone, hnew⟩ := newline_letters (h ▸ List.mem_cons_self ..) hk
        have hletters := lettersAt_eq h
        rw [hone, List.singleton_append] at hletters
        obtain ⟨r, hun, hls, hreads, hstop⟩ := first_letter hletters
        have hstep : directiveStep? ⟨x.first.place, x.first.glyph :: r⟩ = none := by
          rw [Letter.is_iff.mp hnew]
          exact directiveStep?_newline _ r
        have hhere : lettersAt ⟨x.first.place, x.first.glyph :: r⟩ = lettersAt p :=
          hreads.split.symm
        rw [hstop, directiveStop_of_none hstep]
        refine ⟨[], ?_, fun y hy => absurd hy List.not_mem_nil, hreads, ?_⟩
        · rw [hhere, h, List.nil_append]
        · rw [hhere, hletters]
          exact ⟨hnew, rfl⟩
      · obtain ⟨hx, hxs⟩ := plainFrom_cons hplain (Mode.stops_directive hk)
        rw [Mode.next_directive hk] at hxs
        rcases lexeme_read h hsize hk hx with ⟨q, hreads, hstop⟩ | hruns
        · rw [hstop]
          exact .cons hk hreads (ih (hreads.rest h) (hreads.size.trans hsize) hxs)
        · exact hruns

end SketchMerge.Cpp
