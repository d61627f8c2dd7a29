import SketchMerge.Proofs.Files.Standing

/-! # What is done with the children of a folder

    Looking at, reading and writing a child of a standing folder, in terms of what
    the tree shows there.  A path that is given and leads to a folder is RESOLVED to
    the path from the root to that folder (`resolve_of_look`). -/

namespace SketchMerge

/-- A result that two steps come to is that of the second on what the first came to. -/
theorem bind_eq_ok {ε α β : Type} {x : Except ε α} {f : α → Except ε β} {b : β}
    (h : (x >>= f) = .ok b) : ∃ a, x = .ok a ∧ f a = .ok b := by
  cases x with
  | error e => exact nomatch h
  | ok a => exact ⟨a, rfl, h⟩

theorem mapError_eq_ok {ε δ α : Type} {g : ε → δ} {x : Except ε α} {a : α}
    (h : x.mapError g = .ok a) : x = .ok a := by
  cases x with
  | error e => exact nomatch h
  | ok b => exact congrArg _ (Except.ok.inj h)

namespace Tree

/-- There is a regular file at the location. -/
def hasFile (t : Tree) (l : Location) : Bool :=
  match t.get? l with
  | some (.file _) => true
  | _ => false

theorem hasFile_iff {t : Tree} {l : Location} :
    t.hasFile l = true ↔ ∃ content, t.get? l = some (.file content) := by
  rw [hasFile]
  constructor
  · intro h
    split at h
    next content hget => exact ⟨content, hget⟩
    next => exact nomatch h
  · rintro ⟨content, hget⟩
    rw [hget]

/-- There are no links in a folder. -/
def NoLinks (t : Tree) (folder : Location) : Prop :=
  ∀ name target, t.get? (folder ++ [name]) ≠ some (.link target)

end Tree

namespace Disk

variable {d : Disk} {purpose : Tree.Purpose} {l : Location} {name : Text}

/-- The path from the root, or a name on it, has too many bytes. -/
def tooLong (l : Location) : Bool :=
  longestPath ≤ (Utf8.encode (Path.absolute l).text).length || l.any Tree.nameTooLong

/-- The path of a child is longer than that of its folder. -/
theorem tooLong_child (l : Location) (name : Text) (h : tooLong (l ++ [name]) = false) :
    tooLong l = false := by
  rw [tooLong, Bool.or_eq_false_iff, decide_eq_false_iff_not] at h ⊢
  obtain ⟨hlength, hnames⟩ := h
  constructor
  · rw [Path.absolute_text] at hlength ⊢
    obtain ⟨more, hmore⟩ := Text.joinWith_prefix_concat [Path.slash] l name
    rw [← hmore, ← List.cons_append, Utf8.encode_append, List.length_append] at hlength
    omega
  · rw [List.any_append, Bool.or_eq_false_iff] at hnames
    exact hnames.1

theorem unusable?_absolute (hl : ∀ name ∈ l, Tree.Valid name) :
    unusable? (Path.absolute l).text
      = if longestPath ≤ (Utf8.encode (Path.absolute l).text).length then some .tooLong
        else none := by
  rw [unusable?, Files.barredText?_absolute hl]

/-- Only length keeps a path from leading where it is written to lead. -/
theorem locate_of_walk (hl : ∀ name ∈ l, Tree.Valid name)
    (hwalk : d.tree.walk purpose Tree.mostLinks [] l
      = if l.any Tree.nameTooLong then .error .tooLong else .ok l) :
    d.locate purpose (.absolute l) = if tooLong l then .error .tooLong else .ok l := by
  rw [locate, unusable?_absolute hl, tooLong]
  by_cases hlength : longestPath ≤ (Utf8.encode (Path.absolute l).text).length
  · rw [if_pos hlength, decide_eq_true hlength, Bool.true_or, if_pos rfl]
  · rw [if_neg hlength, decide_eq_false hlength, Bool.false_or]
    exact hwalk

/-- The path of a standing folder leads to it. -/
theorem locate_standing (h : d.tree.Standing l) :
    d.locate purpose (.absolute l) = if tooLong l then .error .tooLong else .ok l := by
  refine locate_of_walk h.valid ?_
  obtain ⟨enter, henter⟩ := Tree.walk_eq_walkWith d.tree purpose Tree.mostLinks
  have hwalk : d.tree.walkWith purpose enter [] (l ++ []) = _ :=
    Tree.walkWith_standing (l := []) h (List.cons_ne_nil _ _).symm
  rw [List.append_nil, List.nil_append] at hwalk
  rw [henter, hwalk]
  rfl

/-- The path of a child leads to the child. -/
theorem locate_child (h : d.tree.Standing l) (hname : Tree.Valid name)
    (hlink : ∀ target, d.tree.get? (l ++ [name]) ≠ some (.link target)) :
    d.locate purpose (.absolute (l ++ [name]))
      = if tooLong (l ++ [name]) then .error .tooLong else .ok (l ++ [name]) := by
  refine locate_of_walk (fun x hx => ?_) ?_
  · rcases List.mem_append.mp hx with hx | hx
    · exact h.valid x hx
    · rw [List.mem_singleton.mp hx]
      exact hname
  · obtain ⟨enter, henter⟩ := Tree.walk_eq_walkWith d.tree purpose Tree.mostLinks
    rw [henter, Tree.walkWith_child h hname.toNamed hlink]

/-- Wherever a child may be looked for, it is there or nowhere. -/
theorem locate_child_eq (h : d.tree.Standing l) (hname : Tree.Named name)
    (hlink : ∀ target, d.tree.get? (l ++ [name]) ≠ some (.link target)) {m : Location}
    (hm : d.locate purpose (.absolute (l ++ [name])) = .ok m) : m = l ++ [name] := by
  rw [locate] at hm
  cases hbad : unusable? (Path.absolute (l ++ [name])).text with
  | some cause =>
      rw [hbad] at hm
      exact nomatch hm
  | none =>
      rw [hbad] at hm
      obtain ⟨enter, henter⟩ := Tree.walk_eq_walkWith d.tree purpose Tree.mostLinks
      have hwalk : d.tree.walkWith purpose enter [] (l ++ [name]) = .ok m := henter ▸ hm
      rw [Tree.walkWith_child h hname hlink] at hwalk
      split at hwalk
      · exact nomatch hwalk
      · exact (Except.ok.inj hwalk).symm

-- ── Looking and reading ─────────────────────────────────────────────────────

theorem look_eq_ok {p : Path} {e : Entry} (h : d.look p = .ok (l, e)) :
    d.locate .find p = .ok l ∧ d.tree.get? l = some e := by
  obtain ⟨m, hm, hentry⟩ := bind_eq_ok h
  rw [entryAt] at hentry
  cases hget : d.tree.get? m with
  | none =>
      rw [hget] at hentry
      exact nomatch hentry
  | some e' =>
      rw [hget] at hentry
      obtain ⟨rfl, rfl⟩ := Prod.mk.inj (Except.ok.inj hentry)
      exact ⟨hm, hget⟩

theorem look_standing (h : d.tree.Standing l) :
    d.look (.absolute l) = if tooLong l then .error .tooLong else .ok (l, .folder) := by
  rw [look, locate_standing h]
  cases tooLong l with
  | true => rfl
  | false =>
      show d.entryAt l = _
      rw [entryAt, h.folders l (List.prefix_refl l)]
      rfl

/-- A path leads to a file. -/
theorem isFile_eq_true {p : Path} : d.isFile p = .ok true ↔
    ∃ m content, d.look p = .ok (m, .file content) := by
  rw [isFile, check]
  constructor
  · intro h
    split at h
    next m e hlook =>
        cases e with
        | folder => exact nomatch Except.ok.inj h
        | file content => exact ⟨m, content, hlook⟩
        | link target => exact nomatch Except.ok.inj h
    next => exact nomatch h
    next => exact nomatch Except.ok.inj h
  · rintro ⟨m, content, hlook⟩
    rw [hlook]

/-- Whether a child is a file can be told unless its path is too long. -/
theorem isFile_child (h : d.tree.Standing l) (hname : Tree.Valid name)
    (hlink : ∀ target, d.tree.get? (l ++ [name]) ≠ some (.link target)) :
    d.isFile (.absolute (l ++ [name]))
      = if tooLong (l ++ [name]) then .error (.at .tooLong (Path.absolute (l ++ [name])).text)
        else .ok (d.tree.hasFile (l ++ [name])) := by
  have hlook : d.look (.absolute (l ++ [name]))
      = if tooLong (l ++ [name]) then .error .tooLong else d.entryAt (l ++ [name]) := by
    rw [look, locate_child h hname hlink]
    cases tooLong (l ++ [name]) with
    | true => rfl
    | false => rfl
  rw [isFile, check, hlook, Tree.hasFile]
  cases tooLong (l ++ [name]) with
  | true => rfl
  | false =>
      rw [if_neg Bool.false_ne_true, if_neg Bool.false_ne_true, entryAt]
      cases d.tree.get? (l ++ [name]) with
      | none => rfl
      | some e =>
          cases e with
          | folder => rfl
          | file content => rfl
          | link target => rfl

/-- What is read from a child is its content. -/
theorem read_child (h : d.tree.Standing l) (hname : Tree.Named name)
    (hlink : ∀ target, d.tree.get? (l ++ [name]) ≠ some (.link target)) {content : List UInt8}
    (hread : d.read (.absolute (l ++ [name])) = .ok content) :
    d.tree.get? (l ++ [name]) = some (.file content) := by
  rw [read] at hread
  split at hread
  next m found hlook =>
      obtain ⟨hlocate, hget⟩ := look_eq_ok hlook
      rw [← locate_child_eq h hname hlink hlocate, hget, Except.ok.inj hread]
  next => exact nomatch hread
  next => exact nomatch hread

-- ── Writing ─────────────────────────────────────────────────────────────────

theorem target_child_eq (h : d.tree.Standing l) (hname : Tree.Named name)
    (hlink : ∀ target, d.tree.get? (l ++ [name]) ≠ some (.link target)) {m : Location}
    (hm : d.target (.absolute (l ++ [name])) = .ok m) :
    m = l ++ [name] ∧ d.tree.get? (l ++ [name]) ≠ some .folder := by
  rw [target] at hm
  cases hlocate : d.locate .write (.absolute (l ++ [name])) with
  | error cause =>
      rw [hlocate] at hm
      exact nomatch hm
  | ok k =>
      rw [hlocate, locate_child_eq h hname hlink hlocate] at hm
      dsimp only at hm
      split at hm
      next => exact nomatch hm
      next hfolder =>
          exact ⟨(Except.ok.inj hm).symm, fun hget => hfolder (beq_iff_eq.mpr hget)⟩

/-- Writing to a child puts a file there, where no folder was. -/
theorem write_child {d' : Disk} (h : d.tree.Standing l) (hname : Tree.Named name)
    (hlink : ∀ target, d.tree.get? (l ++ [name]) ≠ some (.link target)) {content : List UInt8}
    (hwrite : d.write (.absolute (l ++ [name])) content = .ok d') :
    d' = d.put (l ++ [name]) (.file content) ∧ d.tree.get? (l ++ [name]) ≠ some .folder := by
  obtain ⟨m, hm, hd'⟩ := bind_eq_ok hwrite
  obtain ⟨rfl, hfolder⟩ := target_child_eq h hname hlink hm
  exact ⟨(Except.ok.inj hd').symm, hfolder⟩

/-- What copying comes to when the content has been read. -/
def copied (d : Disk) (target : Path) (content : List UInt8) : Except Files.Fault Disk :=
  match d.write target content, d.isThere target with
  | .error (.at .isFolder _), .ok false => .error (.noFolder target.text)
  | result, _ => result

/-- A copy that is made holds what was read. -/
theorem copy_eq_ok {d' : Disk} {source target : Path} (h : d.copy source target = .ok d') :
    ∃ content, d.read source = .ok content ∧ d.write target content = .ok d' := by
  have hrest : (d.read source >>= d.copied target) = .ok d' := by
    rw [copy] at h
    split at h
    next =>
        split at h
        · cases h
        · exact h
    next => exact h
  obtain ⟨content, hread, hwrite⟩ := bind_eq_ok hrest
  refine ⟨content, hread, ?_⟩
  rw [copied] at hwrite
  split at hwrite
  next => cases hwrite
  next => exact hwrite

-- ── Resolving what is given ─────────────────────────────────────────────────

/-- **RESOLVED PATHS ARE LOCATIONS**: a path that leads to a folder is resolved to the path
    from the root to it. -/
theorem resolve_of_look {p : Path} (ht : d.tree.Sound) (hhere : d.tree.get? d.here = some .folder)
    (h : d.look p = .ok (l, .folder)) : d.resolve p = .ok (.absolute l) := by
  obtain ⟨hlocate, hfolder⟩ := look_eq_ok h
  rw [locate] at hlocate
  cases hbad : unusable? p.text with
  | some cause =>
      rw [hbad] at hlocate
      cases hlocate
  | none =>
      rw [hbad] at hlocate
      obtain ⟨n, hfollows⟩ := Tree.walk_follows hlocate
      -- the lenient walk starts with no open link and with fuel for all of them
      obtain ⟨q, hq, hlocation, hanchor⟩ := Tree.realWith_of_follows d.here hfollows
        ((d.tree.entries.length + 1) * (d.here.length + 2)) []
        (if p.isAbsolute then .absolute [] else ⟨.here, []⟩)
        ⟨(fun _ h => absurd h List.not_mem_nil), List.nodup_nil⟩
        (by rw [List.length_nil, Nat.add_zero, Nat.mul_add]; omega)
        (by rw [start]; split <;> rfl) (by split <;> exact (nomatch ·))
      have hzero : ¬ p.text.contains (.char '\x00') = true := by
        intro hzero
        rw [unusable?, Files.barredText?, if_pos hzero] at hbad
        split at hbad
        next hcause => cases hbad
        next hcause => split at hcause <;> cases hcause
      have hdots : Path.dotDot ∉ d.here :=
        fun hmem => ((ht.standing hhere).valid _ hmem).notDotDot rfl
      rw [resolve, if_neg hzero]
      dsimp only
      rw [hq]
      dsimp only
      rw [absolutePath_eq hdots hanchor, hlocation, look_standing (ht.standing hfolder)]
      cases tooLong l with
      | true => rfl
      | false => rfl

end Disk

end SketchMerge
