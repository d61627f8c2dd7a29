import SketchMerge.Config.Settings
import SketchMerge.Proofs.Files.Operations
import SketchMerge.Proofs.Text.Trimming

/-! # Settings that are accepted can be used

    A settings file may hold any value under any key.  Where a value is of no use it
    counts as not given, or the file is refused; so whatever the document looks like,
    the settings that come out NAME A VARIANT, name an ending for sketches, and hold
    endings in the one form that reading them again keeps (`load_usable`). -/

namespace SketchMerge

/-- A step that never fails maps. -/
theorem mapM_eq_ok {ε α β : Type} {f : α → Except ε β} {g : α → β} {xs : List α}
    (h : ∀ x ∈ xs, f x = .ok (g x)) : xs.mapM f = .ok (xs.map g) := by
  induction xs with
  | nil => rfl
  | cons x xs ih =>
      rw [List.mapM_cons, h x (List.mem_cons_self ..),
        ih fun y hy => h y (List.mem_cons_of_mem _ hy)]
      rfl

-- ── File endings ────────────────────────────────────────────────────────────

namespace Setting

/-- The form of a file ending: a dot in front, and no blanks around it. -/
structure IsEnding (e : Text) : Prop where
  dot : e.head? = some (.char '.')
  trimmed : e.trim = e

instance (e : Text) : Decidable (IsEnding e) :=
  decidable_of_iff (e.head? = some (.char '.') ∧ e.trim = e)
    ⟨fun h => ⟨h.1, h.2⟩, fun h => ⟨h.dot, h.trimmed⟩⟩

variable {t e : Text} {es : List Text}

theorem IsEnding.withDot (he : IsEnding e) : withDot e = e := by
  rw [Setting.withDot, he.dot, if_pos (beq_self_eq_true _)]

theorem IsEnding.ne_nil (he : IsEnding e) : e ≠ [] := by
  rintro rfl
  exact nomatch he.dot

/-- A trimmed text with its dot is a file ending. -/
theorem isEnding_withDot (ht : t.trim = t) (hne : t ≠ []) : IsEnding (withDot t) := by
  rw [Setting.withDot]
  by_cases hdot : t.head? = some (.char '.')
  · rw [if_pos (beq_iff_eq.mpr hdot)]
    exact ⟨hdot, ht⟩
  · rw [if_neg fun h => hdot (beq_iff_eq.mp h)]
    refine ⟨rfl, Text.trim_eq_self_iff.mpr ⟨?_, ?_⟩⟩
    · rintro g hg
      rw [← Option.some.inj hg]
      rfl
    · rw [List.getLast?_cons_of_ne_nil hne]
      exact (Text.trim_eq_self_iff.mp ht).2

theorem isEnding_of_mem {ts : List Text} (he : e ∈ endingsOf ts) : IsEnding e := by
  obtain ⟨t, ht, rfl⟩ := List.mem_map.mp he
  obtain ⟨hmem, hne⟩ := List.mem_filter.mp ht
  obtain ⟨raw, -, rfl⟩ := List.mem_map.mp hmem
  exact isEnding_withDot (Text.trim_trim raw) (by simpa using hne)

/-- Endings that are taken as endings again stay as they are. -/
theorem endingsOf_eq_self (hes : ∀ e ∈ es, IsEnding e) : endingsOf es = es := by
  have htrim : es.map Text.trim = es :=
    (List.map_congr_left fun e he => (hes e he).trimmed).trans (List.map_id es)
  have hkept : es.filter (!·.isEmpty) = es :=
    List.filter_eq_self.mpr fun e he => by simpa using (hes e he).ne_nil
  rw [endingsOf, htrim, hkept]
  exact (List.map_congr_left fun e he => (hes e he).withDot).trans (List.map_id es)

end Setting

-- ── Values of a document ────────────────────────────────────────────────────

namespace Yaml.Document

/-- The value that a mapping has under a key.  Nothing else has any. -/
def member? (d : Document) (r : Ref) (key : Text) : Option Ref :=
  match d.get r with
  | .mapping entries => d.lookup entries key
  | _ => none

/-- The document that is a list of texts. -/
def ofTexts (ts : List Text) : Document where
  data := (Datum.list (List.range' 1 ts.length) :: ts.map Datum.text).toArray
  root := 0

theorem get_ofTexts {ts : List Text} {r : Ref} {t : Text} (h : ts[r]? = some t) :
    (ofTexts ts).get (r + 1) = .text t := by
  rw [get, ofTexts, Array.getD_eq_getD_getElem?, List.getElem?_toArray, List.getElem?_cons_succ,
    List.getElem?_map, h]
  rfl

end Yaml.Document

namespace Setting

open Yaml

/-- The words for a truth value. -/
def wordsFor : Bool → List Text
  | true => trueWords
  | false => falseWords

/-- A value stands for a truth value: it is that value, or one of the words for it, whatever
    the case of its letters and the blanks around it. -/
inductive Says (d : Document) (r : Ref) (b : Bool) : Prop
  | truth (h : d.get r = .truth b)
  | word (t : Text) (h : d.get r = .text t) (hword : t.trim.lower ∈ wordsFor b)

theorem truthOfWord?_eq_some_iff {t : Text} {b : Bool} :
    truthOfWord? t = some b ↔ t.trim.lower ∈ wordsFor b := by
  have hapart : ∀ word ∈ falseWords, word ∉ trueWords := by decide
  rw [truthOfWord?]
  by_cases htrue : t.trim.lower ∈ trueWords
  · rw [if_pos (List.contains_iff_mem.mpr htrue), Option.some.injEq]
    cases b with
    | true => exact ⟨fun _ => htrue, fun _ => rfl⟩
    | false => exact ⟨nofun, fun hfalse => absurd htrue (hapart _ hfalse)⟩
  · rw [if_neg fun h => htrue (List.contains_iff_mem.mp h)]
    by_cases hfalse : t.trim.lower ∈ falseWords
    · rw [if_pos (List.contains_iff_mem.mpr hfalse), Option.some.injEq]
      cases b with
      | true => exact ⟨nofun, fun h => absurd h htrue⟩
      | false => exact ⟨fun _ => hfalse, fun _ => rfl⟩
    · rw [if_neg fun h => hfalse (List.contains_iff_mem.mp h)]
      cases b with
      | true => exact ⟨nofun, fun h => absurd h htrue⟩
      | false => exact ⟨nofun, fun h => absurd h hfalse⟩

theorem truth?_eq_some_iff {d : Document} {r : Ref} {b : Bool} :
    truth? d r = some b ↔ Says d r b := by
  rw [truth?]
  constructor
  · intro h
    split at h
    next b' hget => exact .truth (by rw [hget, Option.some.inj h])
    next t hget => exact .word t hget (truthOfWord?_eq_some_iff.mp h)
    next => exact nomatch h
  · rintro (hget | ⟨t, hget, hword⟩)
    · rw [hget]
    · rw [hget]
      exact truthOfWord?_eq_some_iff.mpr hword

/-- **ENDINGS ARE READ BACK** from a list of them as they are. -/
theorem endings_ofTexts {es : List Text} (hes : ∀ e ∈ es, IsEnding e) :
    endings (.ofTexts es) (Document.ofTexts es).root = .ok es := by
  have hitem : ∀ r ∈ List.range' 1 es.length, (Document.ofTexts es).get r ≠ .null ∧
      (Document.ofTexts es).text r = .ok (es[r - 1]?.getD []) := by
    intro r hr
    obtain ⟨i, hi, rfl⟩ := List.mem_range'.mp hr
    have hget : (Document.ofTexts es).get (1 + 1 * i) = .text es[i] := by
      rw [Nat.one_mul, Nat.add_comm]
      exact Document.get_ofTexts (List.getElem?_eq_getElem hi)
    rw [Document.text, hget, Nat.one_mul, Nat.add_sub_cancel_left, List.getElem?_eq_getElem hi]
    exact ⟨nofun, rfl⟩
  have hkept : (List.range' 1 es.length).filter
      (fun i => (Document.ofTexts es).get i != .null) = List.range' 1 es.length :=
    List.filter_eq_self.mpr fun r hr => bne_iff_ne.mpr (hitem r hr).1
  have htexts : texts (.ofTexts es) (Document.ofTexts es).root = .ok es := by
    show ((List.range' 1 es.length).filter _).mapM (Document.ofTexts es).text = _
    rw [hkept, mapM_eq_ok fun r hr => (hitem r hr).2]
    refine congrArg Except.ok (List.ext_getElem (by simp) fun i hi hi' => ?_)
    simp [hi']
  rw [endings, htexts]
  exact congrArg Except.ok (endingsOf_eq_self hes)

end Setting

namespace Settings

open Yaml

-- ── What a file holds ───────────────────────────────────────────────────────

/-- What the settings file for a path holds: a document, or none if there is no file or
    nothing is written in it. -/
inductive Holds (d : Disk) (given : Path) : Option Document → Prop
  | absent {file : Path} (hfile : filePath d given = .ok file)
      (hthere : d.isThere file = .ok false) : Holds d given none
  | blank {file : Path} {bytes : List UInt8} {t : Text} (hfile : filePath d given = .ok file)
      (hread : d.read file = .ok bytes) (htext : Utf8.decodeStrict bytes = .ok t)
      (hblank : t.unifyNewlines.isBlank = true) : Holds d given none
  | document {file : Path} {bytes : List UInt8} {t : Text} {doc : Document}
      (hfile : filePath d given = .ok file) (hread : d.read file = .ok bytes)
      (htext : Utf8.decodeStrict bytes = .ok t)
      (hdoc : Yaml.load (t.unifyNewlines.filterMap Glyph.char?) = .ok doc) :
      Holds d given (some doc)

/-- The document has a truth value under a key. -/
def Tells (doc : Option Document) (key : Text) (b : Bool) : Prop :=
  ∃ d ∈ doc, ∃ r, d.member? d.root key = some r ∧ Setting.Says d r b

/-- The document has a mapping for the tag tool, and in it a value for its arguments. -/
def ArgumentsAt (doc : Option Document) (d : Document) (r : Ref) : Prop :=
  d ∈ doc ∧ ∃ tool, d.member? d.root "extractor" = some tool ∧ d.member? tool "arguments" = some r

/-- A decision of a variant: that of the file if the file has one, else that of the standard
    variant. -/
def Decides {α : Type} (given : Prop) (file : α → Prop) (standard decided : α) : Prop :=
  (given → file decided) ∧ (¬ given → decided = standard)

/-- The variant of a run is a standard one with the decisions of the file. -/
structure Resolves (doc : Option Document) (standard v : Variant) : Prop where
  name : v.name = standard.name
  /-- The file decides on line markers if its value is that of a truth value. -/
  lineMarkers : Decides (∃ b, Tells doc "line_markers" b) (Tells doc "line_markers")
    standard.lineMarkers v.lineMarkers
  lineCorrection : Decides (∃ b, Tells doc "line_correction" b) (Tells doc "line_correction")
    standard.lineCorrection v.lineCorrection
  /-- The file decides on arguments if it has any value for them. -/
  arguments : Decides (∃ d r, ArgumentsAt doc d r)
    (fun arguments => ∃ d r, ArgumentsAt doc d r ∧ Setting.texts d r = .ok arguments)
    standard.arguments v.arguments

/-- Endings that are given back as a list are read as the same endings. -/
def ReadBack (es : List Text) : Prop :=
  Setting.endings (.ofTexts es) (Document.ofTexts es).root = .ok es

/-- A run can go by the settings. -/
structure Usable (doc : Option Document) (s : Settings) : Prop where
  /-- The variant is a standard one, and there is a variant for a run that asks for none. -/
  variant : ∃ standard ∈ Variant.all, standard.name = s.variant ∧
    ∃ v, s.variantFor none = .ok v ∧ Resolves doc standard v
  /-- There is an ending for the merged sketch. -/
  first : ∃ e, s.sketchEndings.head? = some e
  endings : ∀ e ∈ s.sketchEndings ++ s.companionEndings, Setting.IsEnding e
  readBack : ReadBack s.sketchEndings ∧ ReadBack s.companionEndings

-- ── What is read from a document ────────────────────────────────────────────

variable {d : Document} {entries : List (Ref × Ref)} {key : Text} {root : Path} {s : Settings}

/-- A key is looked up in the entries of a mapping, and in nothing else. -/
theorem lookup_entriesOf (d : Document) (at_ : Option Ref) (key : Text) :
    d.lookup (entriesOf d at_) key = at_.bind (d.member? · key) := by
  cases at_ with
  | none => rfl
  | some r =>
      rw [Option.bind_some, entriesOf, Document.member?]
      cases d.get r with
      | mapping entries => rfl
      | _ => rfl

theorem member?_root (h : d.get d.root = .mapping entries) (key : Text) :
    d.member? d.root key = d.lookup entries key := by
  rw [Document.member?, h]

theorem ifGiven_eq_ok {α : Type} {read : Document → Ref → Except Yaml.Fault α} {value : Option α}
    (h : ifGiven d entries key read = .ok value) :
    d.lookup entries key = none ∧ value = none ∨
      ∃ r a, d.lookup entries key = some r ∧ read d r = .ok a ∧ value = some a := by
  rw [ifGiven] at h
  split at h
  next r hlookup =>
      cases hread : read d r with
      | error fault =>
          rw [hread] at h
          exact nomatch h
      | ok a =>
          rw [hread] at h
          exact .inr ⟨r, a, hlookup, hread, (Except.ok.inj h).symm⟩
  next hlookup => exact .inl ⟨hlookup, (Except.ok.inj h).symm⟩

/-- Endings that are given, or standard ones. -/
theorem isEnding_ifGiven {standard : List Text} {given : Option (List Text)}
    (h : ifGiven d entries key Setting.endings = .ok given)
    (hstandard : ∀ e ∈ standard, Setting.IsEnding e) :
    ∀ e ∈ given.getD standard, Setting.IsEnding e := by
  rcases ifGiven_eq_ok h with ⟨-, rfl⟩ | ⟨r, es, -, hread, rfl⟩
  · exact hstandard
  · intro e he
    rw [Setting.endings] at hread
    cases htexts : Setting.texts d r with
    | error fault =>
        rw [htexts] at hread
        exact nomatch hread
    | ok ts =>
        rw [htexts] at hread
        rw [Option.getD_some, ← Except.ok.inj hread] at he
        exact Setting.isEnding_of_mem he

/-- What settings take from the entries of a document. -/
structure Gathers (d : Document) (entries : List (Ref × Ref)) (s : Settings) : Prop where
  variant : (Variant.named? s.variant).isSome
  lineMarkers : s.lineMarkers = (d.lookup entries "line_markers").bind (Setting.truth? d)
  lineCorrection : s.lineCorrection = (d.lookup entries "line_correction").bind (Setting.truth? d)
  arguments : ifGiven d (entriesOf d (d.lookup entries "extractor")) "arguments" Setting.texts
    = .ok s.arguments
  first : s.sketchEndings ≠ []
  sketch : ∀ e ∈ s.sketchEndings, Setting.IsEnding e
  companion : ∀ e ∈ s.companionEndings, Setting.IsEnding e

theorem isEnding_standard (root : Path) :
    (∀ e ∈ ({ root } : Settings).sketchEndings, Setting.IsEnding e) ∧
      ∀ e ∈ ({ root } : Settings).companionEndings, Setting.IsEnding e := by
  show (∀ e ∈ [".ino", ".pde"].map Text.ofString, _) ∧
    ∀ e ∈ [".cpp", ".c", ".h", ".S"].map Text.ofString, _
  decide

theorem ofEntries_gathers (h : ofEntries root d entries = .ok s) : Gathers d entries s := by
  obtain ⟨asked, -, h⟩ := bind_eq_ok h
  by_cases hvariant : (Variant.named? ((nonEmpty? asked.join).getD "default")).isNone = true
  · rw [if_pos hvariant] at h
    exact nomatch h
  rw [if_neg hvariant] at h
  obtain ⟨tool, -, h⟩ := bind_eq_ok h
  obtain ⟨arguments, harguments, h⟩ := bind_eq_ok h
  obtain ⟨sketch, hsketch, h⟩ := bind_eq_ok h
  by_cases hfirst : (sketch.getD ({ root } : Settings).sketchEndings).isEmpty = true
  · rw [if_pos hfirst] at h
    exact nomatch h
  rw [if_neg hfirst] at h
  obtain ⟨companion, hcompanion, h⟩ := bind_eq_ok h
  obtain rfl := Except.ok.inj h
  obtain ⟨hsketches, hcompanions⟩ := isEnding_standard root
  exact {
    variant := by simpa [Option.isSome_iff_ne_none] using hvariant
    lineMarkers := rfl
    lineCorrection := rfl
    arguments := harguments
    first := fun hnil => hfirst (List.isEmpty_iff.mpr hnil)
    sketch := isEnding_ifGiven hsketch hsketches
    companion := isEnding_ifGiven hcompanion hcompanions }

-- ── Using what is read ──────────────────────────────────────────────────────

theorem decides_getD {α : Type} {value : Option α} {file : α → Prop}
    (h : ∀ a, value = some a ↔ file a) (standard : α) :
    Decides (∃ a, file a) file standard (value.getD standard) := by
  constructor
  · rintro ⟨a, ha⟩
    rw [(h a).mpr ha]
    exact ha
  · intro hnone
    cases value with
    | none => rfl
    | some a => exact absurd ⟨a, (h a).mp rfl⟩ hnone

/-- The variant for a run that asks for none. -/
theorem variantFor_none {standard : Variant} (h : Variant.named? s.variant = some standard) :
    s.variantFor none = .ok { standard with
      lineMarkers := s.lineMarkers.getD standard.lineMarkers
      lineCorrection := s.lineCorrection.getD standard.lineCorrection
      arguments := s.arguments.getD standard.arguments } := by
  rw [variantFor, h]

theorem gathers_standard (root : Path) (d : Document) : Gathers d [] { root } := by
  obtain ⟨hsketches, hcompanions⟩ := isEnding_standard root
  exact {
    variant := rfl
    lineMarkers := rfl
    lineCorrection := rfl
    arguments := rfl
    first := List.cons_ne_nil _ _
    sketch := hsketches
    companion := hcompanions }

/-- Settings can be used that take from a document what it has under its keys. -/
theorem Gathers.usable {doc : Option Document} (h : Gathers d entries s)
    (hkeys : ∀ key r, d.lookup entries key = some r ↔ d ∈ doc ∧ d.member? d.root key = some r)
    (hdoc : ∀ d' ∈ doc, d' = d) : Usable doc s := by
  have htells (key : Text) (b : Bool) :
      (d.lookup entries key).bind (Setting.truth? d) = some b ↔ Tells doc key b := by
    rw [Option.bind_eq_some_iff]
    constructor
    · rintro ⟨r, hr, hb⟩
      obtain ⟨hmem, hr⟩ := (hkeys key r).mp hr
      exact ⟨d, hmem, r, hr, Setting.truth?_eq_some_iff.mp hb⟩
    · rintro ⟨d', hmem, r, hr, hb⟩
      obtain rfl := hdoc d' hmem
      exact ⟨r, (hkeys key r).mpr ⟨hmem, hr⟩, Setting.truth?_eq_some_iff.mpr hb⟩
  have harguments (r : Ref) :
      d.lookup (entriesOf d (d.lookup entries "extractor")) "arguments" = some r ↔
        ArgumentsAt doc d r := by
    rw [lookup_entriesOf, Option.bind_eq_some_iff]
    constructor
    · rintro ⟨tool, htool, hr⟩
      obtain ⟨hmem, htool⟩ := (hkeys _ tool).mp htool
      exact ⟨hmem, tool, htool, hr⟩
    · rintro ⟨hmem, tool, htool, hr⟩
      exact ⟨tool, (hkeys _ tool).mpr ⟨hmem, htool⟩, hr⟩
  obtain ⟨standard, hstandard⟩ := Option.isSome_iff_exists.mp h.variant
  have hname : standard.name = s.variant := by simpa using List.find?_some hstandard
  refine ⟨⟨standard, List.mem_of_find?_eq_some hstandard, hname, _, variantFor_none hstandard, ?_⟩,
    ⟨_, List.head?_eq_some_head h.first⟩, ?_,
    Setting.endings_ofTexts h.sketch, Setting.endings_ofTexts h.companion⟩
  · constructor
    case name => rfl
    case lineMarkers =>
        rw [h.lineMarkers]
        exact decides_getD (htells _) _
    case lineCorrection =>
        rw [h.lineCorrection]
        exact decides_getD (htells _) _
    case arguments =>
        rcases ifGiven_eq_ok h.arguments with ⟨hnone, heq⟩ | ⟨r, arguments, hr, hread, heq⟩
        · rw [heq]
          refine ⟨fun hgiven => ?_, fun _ => rfl⟩
          obtain ⟨d', r, hat⟩ := hgiven
          obtain rfl := hdoc d' hat.1
          exact nomatch hnone.symm.trans ((harguments r).mpr hat)
        · rw [heq]
          exact ⟨fun _ => ⟨d, r, (harguments r).mp hr, hread⟩,
            fun hnone => absurd ⟨d, r, (harguments r).mp hr⟩ hnone⟩
  · intro e he
    rcases List.mem_append.mp he with he | he
    · exact h.sketch e he
    · exact h.companion e he

/-- **ANY DOCUMENT** that is accepted gives settings that can be used. -/
theorem ofDocument_usable (h : ofDocument root d = .ok s) : Usable (some d) s := by
  rw [ofDocument] at h
  split at h
  next hvoid =>
      -- a void mapping has no entries, and what is no mapping has none either
      obtain rfl := Except.ok.inj h
      refine (gathers_standard root d).usable (fun key r => ⟨fun hnone => ?_, fun hmember => ?_⟩)
        fun d' hd' => (Option.some.inj hd').symm
      · cases hnone
      have hmember := hmember.2
      rw [Document.member?] at hmember
      split at hmember
      next entries hget =>
          rw [hget] at hvoid
          rw [List.isEmpty_iff.mp hvoid] at hmember
          exact hmember
      next => cases hmember
  next =>
      split at h
      next entries hget =>
          refine (ofEntries_gathers h).usable (fun key r => ?_)
            fun d' hd' => (Option.some.inj hd').symm
          rw [member?_root hget]
          exact ⟨fun hr => ⟨rfl, hr⟩, And.right⟩
      next => cases h

theorem usable_standard (root : Path) : Usable none { root } := by
  refine (gathers_standard root ⟨#[], 0⟩).usable
    (fun key r => ⟨fun hlookup => ?_, fun hmember => ?_⟩) fun d' hd' => ?_
  · cases hlookup
  · cases hmember.1
  · cases hd'

variable {disk : Disk} {given : Path}

/-- Settings that are loaded are the standard ones, or those of a document. -/
theorem load_eq_ok (h : load disk given = .ok s) :
    (∃ root, Holds disk given none ∧ s = { root }) ∨
      ∃ root doc, Holds disk given (some doc) ∧ ofDocument root doc = .ok s := by
  obtain ⟨file, hfile, h⟩ := bind_eq_ok h
  obtain ⟨root, -, h⟩ := bind_eq_ok h
  obtain ⟨there, hthere, h⟩ := bind_eq_ok h
  cases there with
  | false =>
      exact .inl ⟨root, .absent (mapError_eq_ok hfile) (mapError_eq_ok hthere),
        (Except.ok.inj h).symm⟩
  | true =>
      obtain ⟨bytes, hread, h⟩ := bind_eq_ok h
      obtain ⟨t, htext, h⟩ := bind_eq_ok h
      rw [ofText] at h
      split at h
      next hblank =>
          exact .inl ⟨root, .blank (mapError_eq_ok hfile) (mapError_eq_ok hread)
            (mapError_eq_ok htext) hblank, (Except.ok.inj h).symm⟩
      next =>
          split at h
          next doc hdoc =>
              exact .inr ⟨root, doc, .document (mapError_eq_ok hfile) (mapError_eq_ok hread)
                (mapError_eq_ok htext) hdoc, h⟩
          next => exact nomatch h
          next => exact nomatch h

theorem isEnding_of_load (h : load disk given = .ok s) :
    ∀ e ∈ s.sketchEndings ++ s.companionEndings, Setting.IsEnding e := by
  rcases load_eq_ok h with ⟨root, -, rfl⟩ | ⟨root, doc, -, hdoc⟩
  · exact (usable_standard root).endings
  · exact (ofDocument_usable hdoc).endings

/-- **ACCEPTED SETTINGS CAN BE USED**, whatever the file holds. -/
theorem load_usable (h : load disk given = .ok s) :
    ∃ doc, Holds disk given doc ∧ Usable doc s := by
  rcases load_eq_ok h with ⟨root, hholds, rfl⟩ | ⟨root, doc, hholds, hdoc⟩
  · exact ⟨none, hholds, usable_standard root⟩
  · exact ⟨some doc, hholds, ofDocument_usable hdoc⟩

/-- A project whose settings are of mixed kinds: a number among the arguments, a date where a
    truth value is due, endings with and without dots. -/
def mixedDisk : Disk where
  tree := ⟨[(["p"], .folder), (["p", fileName], .file (Utf8.encode
    ("variant: plain\nline_markers: ' YES '\nline_correction: 2024-01-02\n" ++
      "extractor: \x7barguments: [-x, 7, null]\x7d\n" ++
      "extensions: \x7bsketch: [' ino', .pde], companion: hpp\x7d\n" : String)))]⟩
  here := []
  home := .absolute []

theorem load_usable_mixed : ∃ s, load mixedDisk (.absolute ["p"]) = .ok s ∧
    s.lineMarkers = some true ∧ s.lineCorrection = none ∧ s.arguments = some (["-x", "7"] : List Text) ∧
    s.sketchEndings = [".ino", ".pde"] ∧ s.companionEndings = [".hpp"] ∧
    ∃ doc, Holds mixedDisk (.absolute ["p"]) doc ∧ Usable doc s := by
  have hload : load mixedDisk (.absolute ["p"]) = .ok {
      root := .absolute ["p"]
      variant := "plain"
      lineMarkers := some true
      arguments := some ["-x", "7"]
      sketchEndings := [".ino", ".pde"]
      companionEndings := [".hpp"] } := by
    decide +kernel
  exact ⟨_, hload, rfl, rfl, rfl, rfl, rfl, load_usable hload⟩

end Settings

end SketchMerge
