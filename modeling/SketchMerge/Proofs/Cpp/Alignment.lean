import SketchMerge.Proofs.Cpp.Traps
import SketchMerge.Proofs.Sketch.ForwardScan

/-! # Glyphs and letters in step

    A text is scanned glyph by glyph, and C++ reads its letters.  The scan of a directive
    keeps in step with the letters: it steps over joined line ends, which are no letters,
    then over one letter after the other, or over a whole comment if one seems to open
    there (`scan_letters`).

    A block comment that seems to open is closed for the scan where the next star and
    slash stand side by side (`closing?_letters`), a line comment where the next newline
    stands (`reads_toLineEnd`). -/

namespace SketchMerge.Cpp

open Pattern Trivia

-- ── Letters at a place ──────────────────────────────────────────────────────

/-- The letters from a place on. -/
def lettersAt (p : Place) : List Letter :=
  letters p.taken p.left

/-- No joined line end stands at a place. -/
structure Unspliced (p : Place) : Prop where
  bare : p.shows "\\\n" = false
  carriage : p.shows "\\\r\n" = false

theorem letters_cons {n : Nat} {g : Glyph} {rest : Text} (h : Unspliced ⟨n, g :: rest⟩) :
    letters n (g :: rest) = ⟨n, g⟩ :: letters (n + 1) rest := by
  rw [letters]
  · rintro rest' rfl rfl
    exact absurd h.bare Bool.true_eq_false.mp
  · rintro rest' rfl rfl
    exact absurd h.carriage Bool.true_eq_false.mp

/-- Joined line ends start with a backslash. -/
theorem unspliced_of_ne {n : Nat} {g : Glyph} {rest : Text} (h : g ≠ .char '\\') :
    Unspliced ⟨n, g :: rest⟩ := by
  have hno : ∀ s : Text, Place.shows ⟨n, g :: rest⟩ (.char '\\' :: s) = false := by
    intro s
    rw [Place.shows_cons, Bool.eq_false_iff.mpr fun hg => h (Glyph.is_iff.mp hg), Bool.false_and]
  exact ⟨hno _, hno _⟩

theorem lettersAt_two (n : Nat) {c d : Char} (rest : Text) (hc : c ≠ '\\') (hd : d ≠ '\\') :
    lettersAt ⟨n, .char c :: .char d :: rest⟩
      = ⟨n, .char c⟩ :: ⟨n + 1, .char d⟩ :: lettersAt ⟨n + 2, rest⟩ := by
  rw [lettersAt, letters_cons (unspliced_of_ne fun h => hc (Glyph.char.inj h)),
    letters_cons (unspliced_of_ne fun h => hd (Glyph.char.inj h))]
  rfl

theorem unspliced_cons {n : Nat} {g : Glyph} {rest : Text}
    (hbare : ∀ r, g = .char '\\' → rest = .char '\n' :: r → False)
    (hcarriage : ∀ r, g = .char '\\' → rest = .char '\r' :: .char '\n' :: r → False) :
    Unspliced ⟨n, g :: rest⟩ := by
  refine ⟨?_, ?_⟩
  · rw [Bool.eq_false_iff]
    intro hshows
    obtain ⟨r, hr⟩ := Place.shows_iff.mp hshows
    obtain ⟨hg, hrest⟩ := List.cons.inj hr
    exact hbare r hg.symm hrest.symm
  · rw [Bool.eq_false_iff]
    intro hshows
    obtain ⟨r, hr⟩ := Place.shows_iff.mp hshows
    obtain ⟨hg, hrest⟩ := List.cons.inj hr
    exact hcarriage r hg.symm hrest.symm

theorem letters_bounds (n : Nat) (t : Text) :
    ∀ a ∈ letters n t, n ≤ a.place ∧ a.place < n + t.length := by
  fun_induction letters n t with
  | case1 n rest ih =>
      intro a ha
      have := ih a ha
      simp only [List.length_cons]
      omega
  | case2 n rest ih =>
      intro a ha
      have := ih a ha
      simp only [List.length_cons]
      omega
  | case3 n g rest _ _ ih =>
      intro a ha
      rw [List.length_cons]
      rcases List.mem_cons.mp ha with rfl | ha
      · dsimp only
        omega
      · have := ih a ha
        omega
  | case4 n => exact fun a ha => absurd ha List.not_mem_nil

/-- From one place up to another stand the letters `ls`. -/
structure Reads (p : Place) (ls : List Letter) (q : Place) : Prop where
  past : ∃ w, p.Past w q
  split : lettersAt p = ls ++ lettersAt q
  before : ∀ a ∈ ls, a.place < q.taken

namespace Reads

theorem refl (p : Place) : Reads p [] p :=
  ⟨⟨[], .refl p⟩, rfl, fun _ ha => absurd ha List.not_mem_nil⟩

theorem trans {p q r : Place} {ls ms : List Letter} (h : Reads p ls q) (h' : Reads q ms r) :
    Reads p (ls ++ ms) r := by
  obtain ⟨v, hv⟩ := h.past
  obtain ⟨w, hw⟩ := h'.past
  refine ⟨⟨v ++ w, hv.trans hw⟩, ?_, ?_⟩
  · rw [h.split, h'.split, List.append_assoc]
  · intro a ha
    rcases List.mem_append.mp ha with ha | ha
    · have := h.before a ha
      have := hw.taken
      omega
    · exact h'.before a ha

/-- One letter. -/
theorem one {n : Nat} {g : Glyph} {rest : Text} (h : Unspliced ⟨n, g :: rest⟩) :
    Reads ⟨n, g :: rest⟩ [⟨n, g⟩] ⟨n + 1, rest⟩ := by
  refine ⟨⟨[g], rfl, rfl⟩, letters_cons h, ?_⟩
  intro a ha
  rw [List.mem_singleton.mp ha]
  exact Nat.lt_succ_self n

/-- A joined line end, which is no letter. -/
theorem splice (n : Nat) (rest : Text) :
    Reads ⟨n, .char '\\' :: .char '\n' :: rest⟩ [] ⟨n + 2, rest⟩ := by
  refine ⟨⟨[.char '\\', .char '\n'], rfl, rfl⟩, ?_, fun a ha => absurd ha List.not_mem_nil⟩
  rw [lettersAt, letters]
  rfl

theorem spliceReturn (n : Nat) (rest : Text) :
    Reads ⟨n, .char '\\' :: .char '\r' :: .char '\n' :: rest⟩ [] ⟨n + 3, rest⟩ := by
  refine ⟨⟨[.char '\\', .char '\r', .char '\n'], rfl, rfl⟩, ?_,
    fun a ha => absurd ha List.not_mem_nil⟩
  rw [lettersAt, letters]
  rfl

/-- What is left keeps the size of the text. -/
theorem size {p q : Place} {ls : List Letter} (h : Reads p ls q) :
    q.taken + q.left.length = p.taken + p.left.length := by
  obtain ⟨w, hw⟩ := h.past
  rw [hw.left, hw.taken, List.length_append, Nat.add_assoc]

end Reads

-- ── One letter after the other ──────────────────────────────────────────────

theorem directiveStep?_splice (n : Nat) (rest : Text) :
    directiveStep? ⟨n, .char '\\' :: .char '\n' :: rest⟩ = some ⟨n + 2, rest⟩ := rfl

theorem directiveStep?_spliceReturn (n : Nat) (rest : Text) :
    directiveStep? ⟨n, .char '\\' :: .char '\r' :: .char '\n' :: rest⟩
      = some ⟨n + 3, rest⟩ := rfl

/-- The scan of a directive steps over joined line ends to the next letter. -/
theorem first_letter {n : Nat} {t : Text} {a : Letter} {ls : List Letter}
    (h : letters n t = a :: ls) :
    ∃ rest, Unspliced ⟨a.place, a.glyph :: rest⟩ ∧ lettersAt ⟨a.place + 1, rest⟩ = ls
      ∧ Reads ⟨n, t⟩ [] ⟨a.place, a.glyph :: rest⟩
      ∧ directiveStop ⟨n, t⟩ = directiveStop ⟨a.place, a.glyph :: rest⟩ := by
  fun_induction letters n t with
  | case1 n rest ih =>
      obtain ⟨r, hr, hls, hreads, hstop⟩ := ih h
      exact ⟨r, hr, hls, (Reads.splice n rest).trans hreads,
        (directiveStop_of_some (directiveStep?_splice n rest)).trans hstop⟩
  | case2 n rest ih =>
      obtain ⟨r, hr, hls, hreads, hstop⟩ := ih h
      exact ⟨r, hr, hls, (Reads.spliceReturn n rest).trans hreads,
        (directiveStop_of_some (directiveStep?_spliceReturn n rest)).trans hstop⟩
  | case3 n g rest hbare hcarriage _ =>
      obtain ⟨rfl, rfl⟩ := List.cons.inj h
      exact ⟨rest, unspliced_cons hbare hcarriage, rfl, .refl _, rfl⟩
  | case4 n => exact absurd h.symm (List.cons_ne_nil a ls)

/-- With no letter left, the scan of a directive comes to the end of the text. -/
theorem no_letter {n : Nat} {t : Text} (h : letters n t = []) :
    ∃ m, Reads ⟨n, t⟩ [] ⟨m, []⟩ ∧ directiveStop ⟨n, t⟩ = ⟨m, []⟩ := by
  fun_induction letters n t with
  | case1 n rest ih =>
      obtain ⟨m, hreads, hstop⟩ := ih h
      exact ⟨m, (Reads.splice n rest).trans hreads,
        (directiveStop_of_some (directiveStep?_splice n rest)).trans hstop⟩
  | case2 n rest ih =>
      obtain ⟨m, hreads, hstop⟩ := ih h
      exact ⟨m, (Reads.spliceReturn n rest).trans hreads,
        (directiveStop_of_some (directiveStep?_spliceReturn n rest)).trans hstop⟩
  | case3 n g rest _ _ _ => exact absurd h (List.cons_ne_nil _ _)
  | case4 n => exact ⟨n, .refl _, directiveStop_of_none rfl⟩

/-- A letter that stands right at a place is the glyph there. -/
theorem letter_here {p : Place} {a : Letter} {ls : List Letter} (h : lettersAt p = a :: ls)
    (hp : a.place = p.taken) :
    ∃ rest, p = ⟨a.place, a.glyph :: rest⟩ ∧ Unspliced p ∧ lettersAt ⟨a.place + 1, rest⟩ = ls := by
  obtain ⟨n, t⟩ := p
  obtain ⟨rest, hun, hls, hreads, -⟩ := first_letter h
  obtain ⟨w, hleft, htaken⟩ := hreads.past
  dsimp only at hp hleft htaken
  have hw : w = [] := List.length_eq_zero_iff.mp (by omega)
  subst hw hp
  rw [List.nil_append] at hleft
  subst hleft
  exact ⟨rest, rfl, hun, hls⟩

-- ── Up to the end of a comment ──────────────────────────────────────────────

theorem touches_next (n : Nat) (g g' : Glyph) :
    Letter.touches ⟨n, g⟩ ⟨n + 1, g'⟩ = true :=
  beq_self_eq_true _

theorem closing?_splice (n : Nat) (rest : Text) :
    closing? ⟨n, .char '\\' :: .char '\n' :: rest⟩ = closing? ⟨n + 2, rest⟩ := by
  rw [closing?_cons n _ _ fun hg => absurd hg (by decide),
    closing?_cons (n + 1) _ _ fun hg => absurd hg (by decide)]

theorem closing?_spliceReturn (n : Nat) (rest : Text) :
    closing? ⟨n, .char '\\' :: .char '\r' :: .char '\n' :: rest⟩ = closing? ⟨n + 3, rest⟩ := by
  rw [closing?_cons n _ _ fun hg => absurd hg (by decide),
    closing?_cons (n + 1) _ _ fun hg => absurd hg (by decide),
    closing?_cons (n + 2) _ _ fun hg => absurd hg (by decide)]

theorem joinedLength?_cons {a : Letter} {ls : List Letter} {m : Nat}
    (h : joinedLength? ls = some m) : ∃ m', joinedLength? (a :: ls) = some m' := by
  cases ls with
  | nil => exact absurd h.symm (Option.some_ne_none m)
  | cons b rest =>
      rw [joinedLength?, h]
      split
      · exact ⟨2, rfl⟩
      · exact ⟨m + 1, rfl⟩

/-- What closes a comment in the text closes it among the letters. -/
theorem joinedLength?_of_closing? {n : Nat} {t : Text} {q : Place}
    (h : closing? ⟨n, t⟩ = some q) : ∃ m, joinedLength? (letters n t) = some m := by
  fun_induction letters n t with
  | case1 n rest ih =>
      rw [closing?_splice] at h
      exact ih h
  | case2 n rest ih =>
      rw [closing?_spliceReturn] at h
      exact ih h
  | case3 n g rest _ _ ih =>
      by_cases hclose : g = .char '*' ∧ rest.head? = some (.char '/')
      · obtain ⟨rfl, hhead⟩ := hclose
        obtain ⟨rest, rfl⟩ := List.head?_eq_some_iff.mp hhead
        refine ⟨2, ?_⟩
        rw [letters_cons (unspliced_of_ne (by decide)), joinedLength?, touches_next]
        rfl
      · rw [closing?_cons n g rest fun hg hhead => hclose ⟨hg, hhead⟩] at h
        obtain ⟨m, hm⟩ := ih h
        exact joinedLength?_cons hm
  | case4 n => exact absurd h.symm (Option.some_ne_none q)

/-- What closes a comment among the letters, side by side, closes it in the text. -/
theorem closing?_letters {n m : Nat} {t : Text} (hm : joinedLength? (letters n t) = some m) :
    ∃ q, closing? ⟨n, t⟩ = some q ∧ Reads ⟨n, t⟩ ((letters n t).take m) q
      ∧ lettersAt q = (letters n t).drop m
      ∧ ∃ z ∈ ((letters n t).take m).getLast?, q.taken = z.place + 1 := by
  fun_induction letters n t generalizing m with
  | case1 n rest ih =>
      obtain ⟨q, hq, hreads, hrest, hlast⟩ := ih hm
      exact ⟨q, (closing?_splice n rest).trans hq, (Reads.splice n rest).trans hreads, hrest, hlast⟩
  | case2 n rest ih =>
      obtain ⟨q, hq, hreads, hrest, hlast⟩ := ih hm
      exact ⟨q, (closing?_spliceReturn n rest).trans hq, (Reads.spliceReturn n rest).trans hreads,
        hrest, hlast⟩
  | case3 n g rest hbare hcarriage ih =>
      have hun : Unspliced ⟨n, g :: rest⟩ := unspliced_cons hbare hcarriage
      cases hL : letters (n + 1) rest with
      | nil =>
          rw [hL] at hm
          exact absurd hm.symm (Option.some_ne_none m)
      | cons b ls =>
          rw [hL] at hm ih
          rw [joinedLength?] at hm
          split at hm
          · rename_i hclose
            rw [Bool.and_eq_true, Bool.and_eq_true] at hclose
            obtain ⟨⟨hstar, hslash⟩, htouch⟩ := hclose
            cases hm
            -- The two marks are letters side by side, so they are glyphs side by side.
            obtain ⟨place, slash⟩ := b
            obtain rfl : place = n + 1 := beq_iff_eq.mp htouch
            obtain ⟨r, hr, hun', hls⟩ := letter_here (p := ⟨n + 1, rest⟩) hL rfl
            obtain rfl : rest = slash :: r := congrArg Place.left hr
            obtain rfl : g = .char '*' := Letter.is_iff.mp hstar
            obtain rfl : slash = .char '/' := Letter.is_iff.mp hslash
            exact ⟨⟨n + 2, r⟩, closing?_closed n r, (Reads.one hun).trans (Reads.one hun'), hls,
              _, rfl, rfl⟩
          · rename_i hclose
            obtain ⟨m', hm', rfl⟩ := Option.map_eq_some_iff.mp hm
            obtain ⟨q, hq, hreads, hrest, z, hz, hplace⟩ := ih hm'
            refine ⟨q, ?_, (Reads.one hun).trans hreads, hrest, z, ?_, hplace⟩
            · rw [closing?_cons n g rest, hq]
              rintro rfl hhead
              obtain ⟨r, rfl⟩ := List.head?_eq_some_iff.mp hhead
              rw [letters_cons (unspliced_of_ne (by decide))] at hL
              obtain ⟨rfl, -⟩ := List.cons.inj hL
              apply hclose
              rw [touches_next]
              rfl
            · rw [List.take_succ_cons, List.getLast?_cons, Option.mem_def.mp hz]
              rfl
  | case4 n => exact absurd hm.symm (Option.some_ne_none m)

theorem joinedLength?_append {ls : List Letter} {m : Nat} (rest : List Letter)
    (h : joinedLength? ls = some m) : joinedLength? (ls ++ rest) = some m ∧ m ≤ ls.length := by
  fun_induction joinedLength? ls generalizing m with
  | case1 a b ls hclose =>
      cases h
      rw [List.cons_append, List.cons_append, joinedLength?, if_pos hclose]
      exact ⟨rfl, Nat.le_add_left 2 _⟩
  | case2 a b ls hclose ih =>
      obtain ⟨m', hm', rfl⟩ := Option.map_eq_some_iff.mp h
      obtain ⟨hrest, hle⟩ := ih hm'
      rw [List.cons_append, List.cons_append, joinedLength?, if_neg hclose, ← List.cons_append,
        hrest]
      exact ⟨rfl, Nat.succ_le_succ hle⟩
  | case3 ls hshort => exact absurd h.symm (Option.some_ne_none m)

theorem closeLength?_bounds {ls : List Letter} {m : Nat} (h : closeLength? ls = some m) :
    2 ≤ m ∧ m ≤ ls.length := by
  fun_induction closeLength? ls generalizing m with
  | case1 a b rest hclose =>
      cases h
      simp only [List.length_cons]
      omega
  | case2 a b rest hclose ih =>
      obtain ⟨m', hm', rfl⟩ := Option.map_eq_some_iff.mp h
      have := ih hm'
      simp only [List.length_cons] at this ⊢
      omega
  | case3 ls hshort => exact absurd h.symm (Option.some_ne_none m)

theorem closeLength?_of_joinedLength? {ls : List Letter} {m : Nat}
    (h : joinedLength? ls = some m) : ∃ m', closeLength? ls = some m' := by
  fun_induction closeLength? ls generalizing m with
  | case1 a b rest hclose => exact ⟨2, rfl⟩
  | case2 a b rest hclose ih =>
      rw [joinedLength?, if_neg (fun hjoined => hclose (Bool.and_eq_true_iff.mp hjoined).1)] at h
      obtain ⟨k, hk, -⟩ := Option.map_eq_some_iff.mp h
      obtain ⟨m', hm'⟩ := ih hk
      exact ⟨m' + 1, by rw [hm']; rfl⟩
  | case3 ls hshort =>
      rw [joinedLength?] at h
      · exact absurd h.symm (Option.some_ne_none m)
      · exact hshort

theorem endsJoined_cons (a : Letter) {ls : List Letter} (h : 2 ≤ ls.length) :
    endsJoined (a :: ls) = endsJoined ls := by
  rcases ls with _ | ⟨b, _ | ⟨c, rest⟩⟩
  · exact absurd h (by decide)
  · exact absurd h (by rw [List.length_singleton]; decide)
  · rfl

/-- The closing marks stand side by side, if nothing keeps them apart. -/
theorem joinedLength?_of_endsJoined {ls : List Letter} {m : Nat} (h : closeLength? ls = some m)
    (he : endsJoined (ls.take m) = true) : joinedLength? ls = some m := by
  fun_induction closeLength? ls generalizing m with
  | case1 a b rest hclose =>
      cases h
      have htouch : a.touches b = true := he
      rw [joinedLength?, hclose, htouch]
      rfl
  | case2 a b rest hclose ih =>
      obtain ⟨m', hm', rfl⟩ := Option.map_eq_some_iff.mp h
      have hbounds := closeLength?_bounds hm'
      have hlong : 2 ≤ ((b :: rest).take m').length := by
        rw [List.length_take]
        omega
      rw [List.take_succ_cons, endsJoined_cons _ hlong] at he
      rw [joinedLength?, if_neg (fun hjoined => hclose (Bool.and_eq_true_iff.mp hjoined).1),
        ih hm' he]
      rfl
  | case3 ls hshort => exact absurd h.symm (Option.some_ne_none m)

-- ── Up to the end of a line ─────────────────────────────────────────────────

/-- The line is over at position `stop`: with a newline there, or with the text. -/
def LineOver (size stop : Nat) : List Letter → Prop
  | [] => stop = size
  | b :: _ => b.is '\n' = true ∧ stop = b.place

/-- Letters without a gap up to the end of their line are the glyphs up to the next
    newline. -/
theorem reads_toLineEnd {stop : Nat} (ls : List Letter) {rest : List Letter} :
    ∀ {p : Place}, lettersAt p = ls ++ rest → (∀ a ∈ ls, a.is '\n' = false) →
      unbroken stop p.taken ls = true → LineOver (p.taken + p.left.length) stop rest →
      Reads p ls (lineStop p) ∧ lettersAt (lineStop p) = rest ∧ (lineStop p).taken = stop := by
  induction ls with
  | nil =>
      intro p h _ hun hover
      have hstop : p.taken = stop := beq_iff_eq.mp hun
      have hhere : lineStop p = p := by
        cases rest with
        | nil =>
            obtain ⟨n, t⟩ := p
            have hsize : stop = n + t.length := hover
            have ht : t = [] := List.length_eq_zero_iff.mp (by dsimp only at hstop; omega)
            rw [ht]
            rfl
        | cons b rest =>
            obtain ⟨r, hp, -, -⟩ := letter_here h (hover.2.symm.trans hstop.symm)
            rw [hp, lineStop, Place.behind_cons_of_neg]
            rw [show b.glyph.is '\n' = true from hover.1]
            exact Bool.false_ne_true
      rw [hhere]
      exact ⟨.refl p, h, hstop⟩
  | cons a ls ih =>
      intro p h hnew hun hover
      rw [unbroken, Bool.and_eq_true, beq_iff_eq] at hun
      obtain ⟨r, hp, hspliced, hls⟩ := letter_here h hun.1
      subst hp
      have hstep : lineStop ⟨a.place, a.glyph :: r⟩ = lineStop ⟨a.place + 1, r⟩ := by
        apply Place.behind_cons_of_pos
        rw [show a.glyph.is '\n' = false from hnew a (List.mem_cons_self ..)]
        rfl
      have hsize : a.place + (a.glyph :: r).length = a.place + 1 + r.length := by
        rw [List.length_cons]
        omega
      rw [hsize] at hover
      rw [hstep]
      obtain ⟨hread, hrest, htaken⟩ :=
        ih hls (fun b hb => hnew b (List.mem_cons_of_mem _ hb)) hun.2 hover
      exact ⟨(Reads.one hspliced).trans hread, hrest, htaken⟩

-- ── One letter after the other ──────────────────────────────────────────────

/-- The scan of a directive takes the letters for the start of a comment. -/
def seemsComment (ls : List Letter) : Bool :=
  seemsLine ls || seemsBlock ls

/-- A letter that seems to open no comment is passed. -/
theorem directiveStep?_letter {n : Nat} {g : Glyph} {rest : Text} (hun : Unspliced ⟨n, g :: rest⟩)
    (hnew : g.is '\n' = false) (hseems : seemsComment (lettersAt ⟨n, g :: rest⟩) = false) :
    directiveStep? ⟨n, g :: rest⟩ = some ⟨n + 1, rest⟩ := by
  rw [lettersAt, letters_cons hun, seemsComment, Bool.or_eq_false_iff] at hseems
  have hline : Place.shows ⟨n, g :: rest⟩ "//" = false := by
    rw [Bool.eq_false_iff]
    intro hshows
    obtain ⟨rest, hrest⟩ := (Place.shows_two_iff (c := '/') (d := '/')).mp hshows
    obtain ⟨rfl, rfl⟩ := List.cons.inj hrest
    rw [letters_cons (unspliced_of_ne (by decide)), seemsLine, touches_next] at hseems
    exact absurd hseems.1 Bool.true_eq_false.mp
  have hblock : blockStop? ⟨n, g :: rest⟩ = none := by
    cases hb : blockStop? ⟨n, g :: rest⟩ with
    | none => rfl
    | some q =>
        obtain ⟨hshows, hclosing⟩ := Option.ite_none_right_eq_some.mp hb
        obtain ⟨rest, hrest⟩ := (Place.shows_two_iff (c := '/') (d := '*')).mp hshows
        obtain ⟨rfl, rfl⟩ := List.cons.inj hrest
        obtain ⟨m, hm⟩ : ∃ m, joinedLength? (letters (n + 1 + 1) rest) = some m :=
          joinedLength?_of_closing? hclosing
        rw [letters_cons (unspliced_of_ne (by decide)), seemsBlock, touches_next, hm] at hseems
        exact absurd hseems.2 Bool.true_eq_false.mp
  have hglyph : glyphStep? ⟨n, g :: rest⟩ = some ⟨n + 1, rest⟩ :=
    if_neg (Bool.eq_false_iff.mp hnew)
  rw [directiveStep?, hun.bare, hun.carriage, hline, hblock, hglyph]
  rfl

theorem directiveStep?_of_blockStop? {p q : Place} (h : blockStop? p = some q) :
    directiveStep? p = some q := by
  obtain ⟨hshows, -⟩ := Option.ite_none_right_eq_some.mp h
  obtain ⟨rest, hrest⟩ := (Place.shows_two_iff (c := '/') (d := '*')).mp hshows
  obtain ⟨n, t⟩ := p
  dsimp only at hrest
  subst hrest
  have hother : Place.shows ⟨n, .char '/' :: .char '*' :: rest⟩ "//" = false := rfl
  rw [directiveStep?, hother, h]
  rfl

/-- Where a block comment seems to open, the scan goes to where it seems to be closed. -/
theorem directiveStep?_block {n : Nat} {t : Text} {b : Letter} {ls rest : List Letter} {m : Nat}
    (hun : Unspliced ⟨n, .char '/' :: t⟩) (h : lettersAt ⟨n + 1, t⟩ = b :: (ls ++ rest))
    (hb : b.is '*' = true) (htouch : b.place = n + 1) (hm : joinedLength? ls = some m) :
    ∃ q, directiveStep? ⟨n, .char '/' :: t⟩ = some q
      ∧ Reads ⟨n, .char '/' :: t⟩ (⟨n, .char '/'⟩ :: b :: ls.take m) q
      ∧ lettersAt q = ls.drop m ++ rest := by
  obtain ⟨place, star⟩ := b
  obtain rfl : place = n + 1 := htouch
  obtain rfl : star = .char '*' := Letter.is_iff.mp hb
  obtain ⟨r, hr, hun', hrest⟩ := letter_here h rfl
  obtain rfl : t = .char '*' :: r := congrArg Place.left hr
  obtain ⟨hm, hle⟩ := joinedLength?_append rest hm
  rw [← hrest] at hm
  obtain ⟨q, hclosing, hreads, hq, -⟩ := closing?_letters hm
  rw [show letters (n + 1 + 1) r = ls ++ rest from hrest] at hreads hq
  rw [List.take_append_of_le_length hle] at hreads
  rw [List.drop_append_of_le_length hle] at hq
  exact ⟨q, directiveStep?_of_blockStop? hclosing,
    (Reads.one hun).trans ((Reads.one hun').trans hreads), hq⟩

/-- The block comments that seem to open among the letters are closed among them. -/
def BlocksClosed (ls rest : List Letter) : Prop :=
  ∀ i, i < ls.length → seemsBlock ((ls ++ rest).drop i) = true →
    ∃ m, joinedLength? (ls.drop (i + 2)) = some m

/-- So are those behind some of the letters. -/
theorem BlocksClosed.drop {ls rest : List Letter} (h : BlocksClosed ls rest) (k : Nat) :
    BlocksClosed (ls.drop k) rest := by
  intro i hi hseems
  rw [List.length_drop] at hi
  have hlt : k + i < ls.length := by omega
  rw [List.drop_drop, ← Nat.add_assoc]
  apply h (k + i) hlt
  rw [← List.drop_drop, List.drop_append_of_le_length (by omega)]
  exact hseems

/-- **THE SCAN KEEPS IN STEP** with letters on one line, if the block comments that seem to
    open among them are closed among them: it passes them all, or comes to a place where a
    line comment seems to open. -/
theorem scan_letters {ls rest : List Letter} {p : Place} (h : lettersAt p = ls ++ rest)
    (hnew : ∀ a ∈ ls, a.is '\n' = false) (hblock : BlocksClosed ls rest) :
    ∃ i q, i ≤ ls.length ∧ Reads p (ls.take i) q ∧ lettersAt q = ls.drop i ++ rest
      ∧ directiveStop p = directiveStop q
      ∧ (i < ls.length → seemsLine (ls.drop i ++ rest) = true) := by
  -- A block comment takes several letters at once, so the induction is on their number.
  generalize hn : ls.length = n
  induction n using Nat.strongRecOn generalizing ls p with
  | ind n ih =>
    subst hn
    cases ls with
    | nil => exact ⟨0, p, Nat.le_refl _, .refl p, h, rfl, fun hlt => absurd hlt (Nat.lt_irrefl _)⟩
    | cons a ls =>
      obtain ⟨r, hun, hls, hreads, hstop⟩ := first_letter h
      by_cases hline : seemsLine (a :: ls ++ rest) = true
      · exact ⟨0, p, Nat.zero_le _, .refl p, h, rfl, fun _ => hline⟩
      by_cases hseems : seemsBlock (a :: ls ++ rest) = true
      · obtain ⟨m, hm⟩ := hblock 0 (Nat.succ_pos _) hseems
        cases ls with
        | nil => exact absurd hm.symm (Option.some_ne_none m)
        | cons b ls =>
          rw [List.cons_append, List.cons_append, seemsBlock, Bool.and_eq_true, Bool.and_eq_true,
            Bool.and_eq_true] at hseems
          obtain ⟨⟨⟨ha, hb⟩, htouch⟩, -⟩ := hseems
          have hm : joinedLength? ls = some m := hm
          have hle := (joinedLength?_append rest hm).2
          obtain ⟨n, slash⟩ := a
          obtain rfl : slash = .char '/' := Letter.is_iff.mp ha
          obtain ⟨q, hstep, hread, hq⟩ := directiveStep?_block hun hls hb (beq_iff_eq.mp htouch) hm
          have hcut (j : Nat) :
              (⟨n, .char '/'⟩ :: b :: ls).drop (j + m + 2) = (ls.drop m).drop j := by
            rw [List.drop_succ_cons, List.drop_succ_cons, List.drop_drop, Nat.add_comm j m]
          obtain ⟨i, q', hi, hread', hq', hstop', hend⟩ := ih (ls.drop m).length
            (by simp only [List.length_drop, List.length_cons]; omega) hq
            (fun c hc => hnew c (List.mem_cons_of_mem _ (List.mem_cons_of_mem _
              (List.mem_of_mem_drop hc)))) (hblock.drop (m + 2)) rfl
          rw [List.length_drop] at hi hend
          refine ⟨i + m + 2, q', ?_, ?_, ?_, ?_, ?_⟩
          · simp only [List.length_cons]
            omega
          · rw [List.take_succ_cons, List.take_succ_cons, Nat.add_comm i m, List.take_add]
            exact hreads.trans (hread.trans hread')
          · rw [hcut, hq']
          · rw [hstop, directiveStop_of_some hstep, hstop']
          · intro hlt
            simp only [List.length_cons] at hlt
            rw [hcut]
            exact hend (by omega)
      · have hstep : directiveStep? ⟨a.place, a.glyph :: r⟩ = some ⟨a.place + 1, r⟩ := by
          apply directiveStep?_letter hun (hnew a (List.mem_cons_self ..))
          have hhere : lettersAt ⟨a.place, a.glyph :: r⟩ = a :: ls ++ rest :=
            hreads.split.symm.trans h
          rw [hhere, seemsComment, Bool.eq_false_iff.mpr hline, Bool.eq_false_iff.mpr hseems]
          rfl
        obtain ⟨i, q, hi, hread, hq, hstop', hend⟩ := ih ls.length (Nat.lt_succ_self _) hls
          (fun b hb => hnew b (List.mem_cons_of_mem _ hb)) (hblock.drop 1) rfl
        refine ⟨i + 1, q, Nat.succ_le_succ hi, hreads.trans ((Reads.one hun).trans hread), hq, ?_,
          fun hlt => hend (Nat.lt_of_succ_lt_succ hlt)⟩
        rw [hstop, directiveStop_of_some hstep, hstop']

end SketchMerge.Cpp
