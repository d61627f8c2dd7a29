import Mathlib.Data.List.Basic
import SketchMerge.Proofs.Prototype.Defaults

/-! # Default values that are literals

    A default value is often a literal: a separator, a unit, a prompt.  The counts
    that find and cut a parameter list know nothing of quotes, so a comma or a
    bracket between the quotes counts like any other.  A literal that is a piece is
    removed WHOLE, in every place of every declaration, and no other literal is: a
    literal that is no piece spoils the declaration in which a longer parameter
    follows it (`literals_removed_iff`). -/

namespace SketchMerge.Parameters

-- ── Declarations with literals ──────────────────────────────────────────────

/-- A parameter as it is declared, without a default value. -/
structure Declarator where
  text : Text
  trimmed : Text.trim text = text
  nonempty : text ≠ []
  noEquals : .char '=' ∉ text
  noQuotes : .char '"' ∉ text ∧ .char '\'' ∉ text
  nested : Nested text
  /-- Its commas stand in brackets. -/
  uncut : Uncut 0 text

/-- Each quote in the text stands behind a backslash that shields it. -/
def isShielded (quote : Glyph) : Text → Bool
  | [] => true
  | [g] => !g.is '\\' && g != quote
  | g :: next :: rest =>
    if g.is '\\' then isShielded quote rest
    else g != quote && isShielded quote (next :: rest)

/-- A string or a character in quotes.  Anything may stand between them. -/
structure Literal where
  quote : Glyph
  body : Text
  isQuote : quote = .char '"' ∨ quote = .char '\''
  shielded : isShielded quote body = true

def Literal.text (v : Literal) : Text :=
  v.quote :: (v.body ++ [v.quote])

/-- A parameter, perhaps with a literal as its default value. -/
structure Parameter where
  declarator : Declarator
  default? : Option Literal

def Parameter.text (p : Parameter) : Text :=
  match p.default? with
  | some v => p.declarator.text ++ (" = " ++ v.text)
  | none => p.declarator.text

/-- The parameter without its default value. -/
def Parameter.bare (p : Parameter) : Parameter :=
  { p with default? := none }

/-- The declaration of a function with some parameters. -/
def declaration (head : Text) (ps : List Parameter) : Text :=
  head ++ "(" ++ Text.joinWith ", " (ps.map Parameter.text) ++ ");"

-- ── Pieces are removed ──────────────────────────────────────────────────────

section

variable {head : Text} {ps : List Parameter}

theorem declaration_eq (head : Text) (ps : List Parameter) :
    declaration head ps
      = head ++ .char '(' :: (Text.joinWith ", " (ps.map Parameter.text) ++ .char ')' :: ";") := by
  simp [declaration, Text.ofString]

theorem text_of_none {p : Parameter} (h : p.default? = none) : p.text = p.declarator.text := by
  rw [Parameter.text, h]

theorem text_of_some {p : Parameter} {v : Literal} (h : p.default? = some v) :
    p.text = p.declarator.text ++ (" = " ++ v.text) := by
  rw [Parameter.text, h]

theorem piece_text {p : Parameter} (h : ∀ v, p.default? = some v → Piece v.text) :
    Piece p.text := by
  have hdeclarator : Piece p.declarator.text := p.declarator.nested.piece p.declarator.uncut
  cases hdefault : p.default? with
  | none => rwa [text_of_none hdefault]
  | some v =>
      rw [text_of_some hdefault]
      have hsign : Piece (" = " : Text) := piece_of_not_counted (by decide)
      exact hdeclarator.append (hsign.append (h v hdefault))

theorem withoutDefault_text (p : Parameter) : withoutDefault p.text = p.declarator.text := by
  cases hdefault : p.default? with
  | none => rw [text_of_none hdefault, withoutDefault_of_free p.declarator.noEquals,
      p.declarator.trimmed]
  | some v =>
      have hequals : .char '=' ∉ p.declarator.text ++ " " := by
        rw [List.mem_append]
        rintro (h | h)
        · exact p.declarator.noEquals h
        · exact absurd h (by decide)
      have hsplit : p.declarator.text ++ (Text.ofString " = " ++ v.text)
          = (p.declarator.text ++ Text.ofString " ") ++ .char '=' :: .char ' ' :: v.text := by
        simp [Text.ofString]
      rw [text_of_some hdefault, hsplit, withoutDefault_append hequals,
        Text.trim_append_blank (by decide), p.declarator.trimmed]

/-- A list of parameters whose default values are pieces is cleared of them. -/
theorem cleared_parameters (h : ∀ p ∈ ps, Piece p.text) :
    cleared (Text.joinWith ", " (ps.map Parameter.text))
      = Text.joinWith ", " (ps.map fun p => p.declarator.text) := by
  by_cases hequals : .char '=' ∈ Text.joinWith ", " (ps.map Parameter.text)
  · cases ps with
    | nil => exact absurd hequals List.not_mem_nil
    | cons p ps =>
        have hpieces : ∀ piece ∈ p.text :: ps.map Parameter.text, Piece piece := by
          rw [← List.map_cons, List.forall_mem_map]
          exact h
        have hblank : withoutDefault ∘ (Text.ofString " " ++ ·) ∘ Parameter.text
            = fun q => q.declarator.text := by
          funext q
          exact (withoutDefault_blank_append (by decide) q.text).trans (withoutDefault_text q)
        rw [cleared_of_mem hequals, List.map_cons, split_joinWith hpieces]
        simp [withoutDefault_text, hblank]
  · -- nobody has a default value
    rw [cleared_of_free hequals]
    refine congrArg _ (List.map_congr_left ?_)
    intro p hp
    cases hdefault : p.default? with
    | none => exact text_of_none hdefault
    | some v =>
        refine absurd (Text.mem_joinWith_of_mem _ (List.mem_map_of_mem hp) ?_) hequals
        rw [text_of_some hdefault]
        exact List.mem_append_right _ (List.mem_append_left _ (by decide))

theorem stripDefaults_declaration (hhead : .char '(' ∉ head)
    (h : ∀ p ∈ ps, ∀ v, p.default? = some v → Piece v.text) :
    stripDefaults (declaration head ps) = declaration head (ps.map Parameter.bare) := by
  have hpieces : ∀ p ∈ ps, Piece p.text := fun p hp => piece_text (h p hp)
  have hframed : Framed head (Text.joinWith ", " (ps.map Parameter.text)) ";"
      (declaration head ps) := by
    refine ⟨declaration_eq head ps, hhead, closes_joinWith ?_⟩
    rwa [List.forall_mem_map]
  rw [hframed.stripDefaults, cleared_parameters hpieces, declaration_eq, List.map_map]
  rfl

end

-- ── Nothing else is removed ─────────────────────────────────────────────────

/-- A declarator that is one word of `n + 1` letters. -/
def word (n : Nat) : Declarator :=
  have hletter : ∀ g ∈ List.replicate (n + 1) (Glyph.char 'b'), g = .char 'b' :=
    fun _ => List.eq_of_mem_replicate
  { text := List.replicate (n + 1) (.char 'b')
    trimmed := Text.trim_of_no_blank fun g hg => by rw [hletter g hg]; decide
    nonempty := by simp
    noEquals := fun h => absurd (hletter _ h) (by decide)
    noQuotes :=
      ⟨fun h => absurd (hletter _ h) (by decide), fun h => absurd (hletter _ h) (by decide)⟩
    nested := nested_of_not_counted fun g hg => by rw [hletter g hg]; decide
    uncut := uncut_of_not_counted (fun g hg => by rw [hletter g hg]; decide) 0 }

theorem eq_of_mem_word {n : Nat} {g : Glyph} (h : g ∈ (word n).text) : g = .char 'b' :=
  List.eq_of_mem_replicate h

theorem length_word (n : Nat) : (word n).text.length = n + 1 :=
  List.length_replicate

/-- A literal as a default value, in front of a parameter that is longer than the literal. -/
def followed (v : Literal) : List Parameter :=
  [⟨word 0, some v⟩, ⟨word v.text.length, none⟩]

/-- What stands behind the literal in this list. -/
def behind (v : Literal) : Text :=
  ", " ++ (word v.text.length).text

/-- The list as it is written. -/
def writtenList (v : Literal) : Text :=
  "b = " ++ (v.text ++ behind v)

section

variable {v : Literal}

theorem mem_behind {g : Glyph} (h : g ∈ behind v) : g ∈ Text.ofString ", b" := by
  rcases List.mem_append.mp h with h | h
  · exact List.mem_append_left (Text.ofString "b") h
  · rw [eq_of_mem_word h]
    decide

theorem declaration_followed (v : Literal) :
    declaration [] (followed v) = .char '(' :: (writtenList v ++ .char ')' :: ";") := by
  simp [declaration_eq, followed, Parameter.text, Text.joinWith_cons_cons,
    Text.joinWith_singleton, writtenList, behind, word, Text.ofString]

theorem declaration_followed_bare (v : Literal) :
    declaration [] ((followed v).map Parameter.bare)
      = .char '(' :: ((Text.ofString "b" ++ behind v) ++ .char ')' :: ";") := by
  simp [declaration_eq, followed, Parameter.bare, Parameter.text, Text.joinWith_cons_cons,
    Text.joinWith_singleton, behind, word, Text.ofString]

theorem mem_bare {g : Glyph} (h : g ∈ declaration [] ((followed v).map Parameter.bare)) :
    g ∈ Text.ofString "(b, );" := by
  rw [declaration_followed_bare, List.mem_cons, List.mem_append, List.mem_append] at h
  rcases h with rfl | (h | h) | h
  · decide
  · exact List.mem_singleton.mp h ▸ by decide
  · have hin : Text.ofString ", b" ⊆ Text.ofString "(b, );" := by decide
    exact hin (mem_behind h)
  · have hin : Text.ofString ");" ⊆ Text.ofString "(b, );" := by decide
    exact hin h

/-- If the literal is removed whole, the list was found as it is written. -/
theorem framed_followed (h : stripDefaults (declaration [] (followed v))
      = declaration [] ((followed v).map Parameter.bare)) :
    Framed [] (writtenList v) ";" (declaration [] (followed v)) := by
  have hquote : v.quote ∉ Text.ofString "(b, );" := by
    rcases v.isQuote with hquote | hquote <;> rw [hquote] <;> decide
  cases hspan : span? (declaration [] (followed v)) with
  | none =>
      -- nothing was changed, and the equals sign is still there
      have hequals : .char '=' ∈ declaration [] (followed v) := by
        rw [declaration_followed]
        simp [writtenList, Text.ofString]
      rw [← stripDefaults_of_span?_none hspan, h] at hequals
      exact absurd (mem_bare hequals) (by decide)
  | some bounds =>
      obtain ⟨before, inner, after, hframed, -, -⟩ := span?_eq_some_iff.mp hspan
      obtain ⟨rfl, hwhole⟩ := (declaration_followed v ▸ hframed).of_cons
      -- the closing quote is not behind the list, so it is in it
      have hafter : v.quote ∉ after := by
        intro hmem
        have hstripped := hframed.stripDefaults
        rw [h] at hstripped
        exact hquote (mem_bare (by rw [hstripped]; simp [hmem]))
      have hinner : (Text.ofString "b = " ++ v.quote :: v.body)
            ++ v.quote :: (behind v ++ .char ')' :: ";") = inner ++ .char ')' :: after := by
        rw [← hwhole]
        simp [writtenList, Literal.text]
      rcases around_order hinner with ⟨-, hsame, -⟩ | ⟨mid, hmid⟩ | ⟨mid, hmid⟩
      · rw [hsame] at hquote
        exact absurd (by decide) hquote
      · -- and the list ends with the only parenthesis behind it
        have hrest : behind v ++ .char ')' :: Text.ofString ";" = mid ++ .char ')' :: after := by
          rw [hmid] at hinner
          simpa using hinner
        have hparenthesis : .char ')' ∉ behind v := fun hmem => absurd (mem_behind hmem) (by decide)
        obtain ⟨rfl, -, rfl⟩ :=
          (List.append_cons_inj_of_notMem hparenthesis (by decide)).mp hrest
        have hlist : inner = writtenList v := by
          rw [hmid]
          simp [writtenList, Literal.text]
        exact hlist ▸ hframed
      · have hrest : mid ++ v.quote :: (behind v ++ .char ')' :: ";") = after := by
          rw [hmid] at hinner
          simpa using hinner
        exact absurd (by rw [← hrest]; simp) hafter

/-- Behind a cut in the literal, the longer parameter is not what is left. -/
theorem withoutDefault_behind {rest : Text} (hrest : rest.length ≤ v.text.length) :
    withoutDefault (rest ++ behind v) ≠ (word v.text.length).text := by
  intro h
  by_cases hequals : .char '=' ∈ rest
  · -- it is cut off, and what is left is too short
    obtain ⟨before, after, rfl, hbefore⟩ := List.eq_append_cons_of_mem hequals
    rw [List.append_assoc, List.cons_append, withoutDefault_append hbefore] at h
    have hlength := congrArg List.length h
    have hshort := Text.length_trim_le before
    rw [length_word] at hlength
    rw [List.length_append] at hrest
    omega
  · -- it has the comma in front of it
    have hfree : .char '=' ∉ rest ++ behind v := by
      rw [List.mem_append]
      rintro (hmem | hmem)
      · exact hequals hmem
      · exact absurd (mem_behind hmem) (by decide)
    rw [withoutDefault_of_free hfree] at h
    have hcomma : .char ',' ∈ Text.trim (rest ++ behind v) :=
      Text.mem_trim (by simp [behind, Text.ofString]) (by decide)
    rw [h] at hcomma
    exact absurd (eq_of_mem_word hcomma) (by decide)

/-- If the literal is removed whole, one part is left behind it. -/
theorem splitFrom_followed (h : cleared (writtenList v) = Text.ofString "b" ++ behind v) :
    ∃ part rest, splitFrom 0 (v.text ++ behind v) = [part, rest] ∧
      withoutDefault rest = (word v.text.length).text := by
  obtain ⟨part, parts, hparts⟩ :=
    List.exists_cons_of_ne_nil (splitFrom_ne_nil 0 (v.text ++ behind v))
  have hsplit : split (writtenList v) = (Text.ofString "b = " ++ part) :: parts :=
    splitFrom_append (uncut_of_not_counted (by decide) 0) hparts
  have hfirst : withoutDefault (Text.ofString "b = " ++ part) = Text.ofString "b" := by
    have hfree : .char '=' ∉ Text.ofString "b " := by decide
    exact withoutDefault_append hfree (.char ' ' :: part)
  have hequals : .char '=' ∈ writtenList v := List.mem_append_left _ (by decide)
  rw [cleared_of_mem hequals, hsplit, List.map_cons, hfirst] at h
  cases parts with
  | nil =>
      have hnothing : behind v = [] := by simpa [Text.joinWith_singleton] using h.symm
      exact absurd hnothing (by simp [behind, Text.ofString])
  | cons rest parts =>
      rw [List.map_cons, Text.joinWith_cons_cons, behind, List.append_cancel_left_eq,
        List.append_cancel_left_eq] at h
      cases parts with
      | nil => exact ⟨part, rest, hparts, by rwa [List.map_nil, Text.joinWith_singleton] at h⟩
      | cons other parts =>
          have hcomma : .char ',' ∈ (word v.text.length).text := by
            rw [← h, List.map_cons, Text.joinWith_cons_cons]
            exact List.mem_append_right _ (List.mem_append_left _ (by decide))
          exact absurd (eq_of_mem_word hcomma) (by decide)

/-- **ONLY PIECES ARE REMOVED**: a literal that is removed whole in front of a longer
    parameter is a piece. -/
theorem piece_of_removed (h : stripDefaults (declaration [] (followed v))
      = declaration [] ((followed v).map Parameter.bare)) : Piece v.text := by
  have hframed := framed_followed h
  have hstripped := hframed.stripDefaults
  rw [h, declaration_followed_bare, List.nil_append, List.cons.injEq,
    List.append_left_inj] at hstripped
  obtain ⟨part, rest, hsplit, hrest⟩ := splitFrom_followed hstripped.2.symm
  have hidle : ∀ g ∈ behind v, parenthesisChange g = 0 := by
    have hall : ∀ g ∈ Text.ofString ", b", parenthesisChange g = 0 := by decide
    exact fun g hg => hall g (mem_behind hg)
  have hcloses : Closes parenthesisChange 0 v.text := by
    have := hframed.closes
    rwa [writtenList, closes_idle_append (by decide), closes_append_idle hidle] at this
  by_cases huncut : Uncut 0 v.text
  · refine ⟨hcloses, ?_, huncut⟩
    by_cases hlevel : rise depthChange v.text = 0
    · exact hlevel
    · -- the comma behind the literal would be in brackets
      have hbehind : Uncut (rise depthChange v.text) (behind v) := by
        refine ⟨fun _ => hlevel, uncut_of_not_counted ?_ _⟩
        intro g hg
        rcases List.mem_cons.mp hg with rfl | hg
        · decide
        · rw [eq_of_mem_word hg]
          decide
      have honly : splitFrom (0 + rise depthChange v.text) (behind v) = [behind v] := by
        rw [Int.zero_add]
        exact splitFrom_of_uncut hbehind
      rw [splitFrom_append huncut honly] at hsplit
      exact absurd hsplit (by simp)
  · -- the literal would be cut
    obtain ⟨before, after, htext, hbefore, hlevel⟩ := exists_comma_of_not_uncut huncut
    have hcut : splitFrom 0 (v.text ++ behind v)
        = (before ++ []) :: splitFrom 0 (after ++ behind v) := by
      rw [htext, List.append_assoc]
      exact splitFrom_append hbefore (by rw [hlevel]; exact splitFrom_comma _)
    rw [hcut] at hsplit
    have hall := joinWith_splitFrom 0 (after ++ behind v)
    rw [(List.cons.inj hsplit).2, Text.joinWith_singleton] at hall
    rw [hall] at hrest
    refine absurd hrest (withoutDefault_behind ?_)
    rw [htext, List.length_append, List.length_cons]
    omega

end

/-- **LITERALS ARE REMOVED WHOLE EXACTLY IF THEY ARE PIECES.**  Take the literals of some
    class as default values.  Stripping takes them out of every declaration, whatever
    the head, the declarators and the choice of default values, and leaves all else, IF
    each literal of the class is a piece: its parentheses are closed in it, it closes as
    many brackets as it opens, and its commas stand in brackets.  And it does so ONLY
    IF: any other literal spoils some declaration. -/
theorem literals_removed_iff (allowed : Literal → Prop) :
    (∀ (head : Text) (ps : List Parameter), .char '(' ∉ head →
        (∀ p ∈ ps, ∀ v, p.default? = some v → allowed v) →
        stripDefaults (declaration head ps) = declaration head (ps.map Parameter.bare))
      ↔ ∀ v, allowed v → Piece v.text := by
  constructor
  · intro hremoved v hv
    refine piece_of_removed (hremoved [] (followed v) List.not_mem_nil ?_)
    intro p hp w hw
    rcases List.mem_cons.mp hp with rfl | hp
    · exact Option.some.inj hw ▸ hv
    · rw [List.mem_singleton.mp hp] at hw
      exact absurd hw (by simp)
  · intro hpieces head ps hhead hallowed
    exact stripDefaults_declaration hhead fun p hp v hv => hpieces v (hallowed p hp v hv)

/-- A separator as a default value: its comma is taken for one between parameters, and the
    closing quote becomes a parameter of its own. -/
theorem separator_not_removed :
    let separator : Literal := ⟨.char '"', ",", .inl rfl, by decide⟩
    let text : Declarator :=
      ⟨"String s", by decide, by decide, by decide, by decide, by decide, by decide⟩
    let count : Declarator :=
      ⟨"int n", by decide, by decide, by decide, by decide, by decide, by decide⟩
    let ps : List Parameter := [⟨text, some separator⟩, ⟨count, none⟩]
    stripDefaults (declaration "void f" ps) = "void f(String s, \", int n);" ∧
      stripDefaults (declaration "void f" ps) ≠ declaration "void f" (ps.map Parameter.bare) := by
  decide +kernel

end SketchMerge.Parameters
