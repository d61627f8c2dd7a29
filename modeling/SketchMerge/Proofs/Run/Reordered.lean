import SketchMerge.Proofs.Project.Relisted
import SketchMerge.Proofs.Run.Faithful
import SketchMerge.Proofs.Run.Stages

/-! # Runs in reordered worlds

    Two worlds that differ in the order of the entries of their trees are followed
    through a run side by side.  After each step they differ in that order only, and
    the steps have COME TO THE SAME.  So the order in which folders list their entries
    decides nothing about a run, unless entries of a folder cannot be looked at: then
    it decides which of them the fault is about. -/

namespace SketchMerge

-- ── Reordered worlds ────────────────────────────────────────────────────────

namespace World

/-- The worlds differ in the order of the entries of their trees only. -/
def Reordered (w w' : World) : Prop :=
  ∃ d, w' = { w with disk := d } ∧ w.disk.Rearranged d

variable {w w' : World}

theorem Reordered.disk (h : Reordered w w') : w.disk.Rearranged w'.disk := by
  obtain ⟨d, rfl, hd⟩ := h
  exact hd

theorem appendLog_rearranged {t t' : Tree} (h : t.Rearranged t') (file : Option Journal.LogFile)
    (text : Text) : (appendLog t file text).Rearranged (appendLog t' file text) := by
  unfold appendLog
  split
  · rw [h.get?_eq]
    split
    · exact h.put _ _
    · exact h
  · exact h

theorem Reordered.note (h : Reordered w w') (n : Note) : Reordered (w.note n) (w'.note n) := by
  obtain ⟨d, rfl, hd⟩ := h
  exact ⟨_, rfl, appendLog_rearranged hd.tree _ _, hd.here, hd.home⟩

theorem Reordered.notes (h : Reordered w w') (ns : List Note) :
    Reordered (w.notes ns) (w'.notes ns) := by
  induction ns generalizing w w' with
  | nil => exact h
  | cons n ns ih => exact ih (h.note n)

theorem Reordered.withDisk (h : Reordered w w') {d d' : Disk} (hd : d.Rearranged d') :
    Reordered (w.withDisk d) (w'.withDisk d') := by
  obtain ⟨_, rfl, -⟩ := h
  refine ⟨d', ?_, hd⟩
  rw [World.withDisk, World.withDisk, hd.tree.get?_eq]

theorem Reordered.advanced (h : Reordered w w') (next : Stage) :
    Reordered (w.advanced next) (w'.advanced next) := by
  have hstage : w'.stage = w.stage := by
    obtain ⟨d, rfl, -⟩ := h
    rfl
  rw [World.advanced, World.advanced, hstage]
  obtain ⟨d, hd, hdisk⟩ := h.note (Pipeline.stageNote w.stage next)
  rw [hd]
  exact ⟨d, rfl, hdisk⟩

/-- The order of entries is no matter of what the worlds hold. -/
theorem Reordered.agrees (h : Reordered w w') : Agrees w w' := by
  obtain ⟨d, rfl, hd⟩ := h
  have hview (l : Location) : d.tree.get? l = w.disk.tree.get? l :=
    (congrFun hd.tree.get?_eq l).symm
  exact ⟨fun l _ _ => hview l, fun l _ => .inl (hview l), fun _ h => h, hd.here.symm, hd.home.symm,
    rfl, rfl, rfl⟩

theorem Reordered.started (h : Reordered w w') : Reordered w.started w'.started := by
  obtain ⟨d, rfl, hd⟩ := h
  exact ⟨d, rfl, hd⟩

end World

open SketchMerge.World SketchMerge.Action

-- ── Steps side by side ──────────────────────────────────────────────────────

variable {ε α β γ δ : Type} {E E' : ε → World → ε → World → Prop} {R : α → β → Prop}
  {S : γ → δ → Prop} {w w' : World}

/-- Both steps give a value and the worlds differ in the order of entries only, or both fail.
    How far faults match may depend on the worlds that they leave. -/
inductive Matches (E : ε → World → ε → World → Prop) (R : α → β → Prop) :
    Except ε α × World → Except ε β × World → Prop
  | ok {a : α} {b : β} {v v' : World} (hvalue : R a b) (hworlds : Reordered v v') :
      Matches E R (.ok a, v) (.ok b, v')
  | error {e e' : ε} {v v' : World} (hfault : E e v e' v') :
      Matches E R (.error e, v) (.error e', v')

namespace Matches

theorem imp {x : Except ε α × World} {y : Except ε β × World} (h : Matches E R x y)
    (hE : ∀ e v e' v', E e v e' v' → E' e v e' v') : Matches E' R x y := by
  cases h with
  | ok hvalue hworlds => exact .ok hvalue hworlds
  | error hfault => exact .error (hE _ _ _ _ hfault)

/-- Results are related whatever the worlds are. -/
theorem of_related {F : ε → ε → Prop} {x : Except ε α} {y : Except ε β} (h : Related F R x y)
    (hw : Reordered w w') :
    Matches (fun e v e' v' => F e e' ∧ Reordered v v') R (x, w) (y, w') := by
  cases h with
  | ok hvalue => exact .ok hvalue hw
  | error hfault => exact .error ⟨hfault, hw⟩

/-- Steps that match are followed by steps that match. -/
theorem bind {f : Action ε α} {g : Action ε β} {k : α → Action ε γ} {l : β → Action ε δ}
    (h : Matches E R (f w) (g w'))
    (hrest : ∀ a b v v', f w = (.ok a, v) → R a b → Reordered v v' → Matches E S (k a v) (l b v')) :
    Matches E S ((f >>= k) w) ((g >>= l) w') := by
  rw [bind_run, bind_run]
  generalize hx : f w = x at h
  generalize g w' = y at h
  cases h with
  | ok hvalue hworlds => exact hrest _ _ _ _ hx hvalue hworlds
  | error hfault => exact .error hfault

theorem tryCatch {f : Action ε α} {g : Action ε β} {handle : ε → Action ε α}
    {handle' : ε → Action ε β} (h : Matches E R (f w) (g w'))
    (hrest : ∀ e v e' v', E e v e' v' → Matches E R (handle e v) (handle' e' v')) :
    Matches E R ((MonadExcept.tryCatch f handle : Action ε α) w)
      ((MonadExcept.tryCatch g handle' : Action ε β) w') := by
  rw [tryCatch_run, tryCatch_run]
  generalize f w = x at h
  generalize g w' = y at h
  cases h with
  | ok hvalue hworlds => exact .ok hvalue hworlds
  | error hfault => exact hrest _ _ _ _ hfault

end Matches

/-- The faults are the same, and the worlds differ in the order of entries only. -/
abbrev SameFault (e : ε) (v : World) (e' : ε) (v' : World) : Prop :=
  e = e' ∧ Reordered v v'

/-- The action does the same in reordered worlds. -/
def Uniform (f : Action ε α) : Prop :=
  ∀ w w', Reordered w w' → Matches SameFault Eq (f w) (f w')

namespace Uniform

theorem bind {f : Action ε α} {k : α → Action ε γ} (hf : Uniform f) (hk : ∀ a, Uniform (k a)) :
    Uniform (f >>= k) :=
  fun w w' h => (hf w w' h).bind fun a _ v v' _ hab hv => hab ▸ hk a v v' hv

/-- An action may depend on what the world holds apart from its disk. -/
theorem getting {k : World → Action ε α}
    (h : ∀ w w', Reordered w w' → Matches SameFault Eq (k w w) (k w' w')) :
    Uniform ((get : Action ε World) >>= k) :=
  fun w w' hw => h w w' hw

theorem ofResult (result : Except ε α) : Uniform (Action.ofResult result) := by
  intro w w' h
  rw [ofResult_run, ofResult_run]
  exact .of_related (.refl (fun _ => rfl) _) h

theorem pure (a : α) : Uniform (Pure.pure a : Action ε α) :=
  fun _ _ h => .ok rfl h

theorem say (n : Note) : Uniform (Action.say n : Action ε Unit) :=
  fun _ _ h => .ok rfl (h.note n)

theorem sayAll (ns : List Note) : Uniform (Action.sayAll ns : Action ε Unit) := by
  intro w w' h
  rw [sayAll_run, sayAll_run]
  exact .ok rfl (h.notes ns)

theorem ask {f : Disk → Except ε α} (hf : ∀ d d', d.Rearranged d' → f d = f d') :
    Uniform (Action.ask f) := by
  intro w w' h
  rw [ask_run, ask_run, hf _ _ h.disk]
  exact .of_related (.refl (fun _ => rfl) _) h

theorem change {f : Disk → Except ε α × Disk}
    (hf : ∀ d d', d.Rearranged d' → (f d).1 = (f d').1 ∧ (f d).2.Rearranged (f d').2) :
    Uniform (Action.change f) := by
  intro w w' h
  obtain ⟨hresult, hdisk⟩ := hf _ _ h.disk
  rw [change_run, change_run, hresult]
  exact .of_related (.refl (fun _ => rfl) _) (h.withDisk hdisk)

theorem changeFiles {f : Disk → Except Files.Fault α × Disk}
    (hf : ∀ d d', d.Rearranged d' → (f d).1 = (f d').1 ∧ (f d).2.Rearranged (f d').2) :
    Uniform (Action.changeFiles f) :=
  change fun d d' h => ⟨congrArg (Except.mapError _) (hf d d' h).1, (hf d d' h).2⟩

theorem tryCatch {f : Action ε α} {handle : ε → Action ε α} (hf : Uniform f)
    (hh : ∀ e, Uniform (handle e)) : Uniform (MonadExcept.tryCatch f handle : Action ε α) :=
  fun w w' h => (hf w w' h).tryCatch fun e v _ v' he => he.1 ▸ hh e v v' he.2

theorem throw (e : ε) : Uniform (MonadExcept.throw e : Action ε α) :=
  fun _ _ h => .error ⟨rfl, h⟩

/-- A change of a world that has nothing to do with its disk. -/
theorem modifying {f : World → World} (hf : ∀ w w', Reordered w w' → Reordered (f w) (f w')) :
    Uniform (modify f : Action ε Unit) :=
  fun w w' h => .ok rfl (hf w w' h)

end Uniform

-- ── Extracting and finishing ────────────────────────────────────────────────

namespace Extraction

theorem findTool_reordered (h : Reordered w w') (executable : Text) :
    findTool w executable = findTool w' executable := by
  obtain ⟨d, rfl, hd⟩ := h
  rw [findTool, findTool, barredPath, barredPath, hd.lookWritten_eq]

theorem uniform_call (executable : Text) (arguments : List Text) (source : Path)
    (content : List UInt8) : Uniform (call executable arguments source content) := by
  refine .getting fun w w' h => ?_
  dsimp only
  cases barredWord? (Tag.command executable arguments source.text) with
  | some fault => exact .error ⟨rfl, h⟩
  | none =>
      dsimp only
      rw [← findTool_reordered h]
      cases findTool w executable with
      | error cause => exact .error ⟨rfl, h⟩
      | ok found =>
          cases found with
          | none => exact .ok rfl h
          | some tool =>
              obtain ⟨d, rfl, hd⟩ := h
              exact .ok rfl ⟨d, rfl, hd⟩

theorem uniform_tagLines (from_ : TagSource) (source : Path) : Uniform (tagLines from_ source) := by
  refine .getting fun w w' h => ?_
  rw [h.disk.read_eq]
  refine Uniform.bind (.modifying ?_) (fun _ => ?_) w w' h
  · rintro v _ ⟨d, rfl, hd⟩
    exact ⟨d, rfl, hd⟩
  · cases from_ with
    | extractor answer => exact .ofResult _
    | tool executable arguments =>
        refine (Uniform.say _).bind fun _ => (uniform_call _ _ _ _).bind fun output => ?_
        exact (Uniform.ofResult _).bind fun lines => (Uniform.sayAll _).bind fun _ => .pure lines

theorem uniform_cleanUp (folder : Location) : Uniform (cleanUp folder : Action ε Unit) :=
  .change fun _ _ h => ⟨rfl, h.tree.prune folder, h.here, h.home⟩

theorem uniform_extract (from_ : TagSource) (project text : Text) :
    Uniform (extract from_ project text) := by
  refine .getting fun w w' h => ?_
  have htemporary : w'.temporary = w.temporary := by
    obtain ⟨d, rfl, -⟩ := h
    rfl
  rw [htemporary]
  refine Uniform.bind (.change fun _ _ h => ⟨rfl, h.tree.putFolder _, h.here, h.home⟩)
    (fun _ => ?_) w w' h
  refine .tryCatch ?_ fun fault => (uniform_cleanUp _).bind fun _ => .throw fault
  refine Uniform.bind ?_ fun lines => (uniform_cleanUp _).bind fun _ => .pure lines
  exact Uniform.bind (.changeFiles fun _ _ h => h.writeText _ text) fun _ => uniform_tagLines _ _

end Extraction

namespace Pipeline

theorem uniform_advance (next : Stage) : Uniform (advance next : Action ε Unit) :=
  fun _ _ h => .ok rfl (h.advanced next)

theorem uniform_finish (m : Merged) (lines : List Text) : Uniform (finish m lines) := by
  refine (Uniform.sayAll _).bind fun _ => (uniform_advance _).bind fun _ => ?_
  refine (Uniform.sayAll _).bind fun _ => (uniform_advance _).bind fun _ => ?_
  refine (Uniform.say _).bind fun _ => (uniform_advance _).bind fun _ => ?_
  refine (Uniform.ofResult _).bind fun composed => ?_
  refine (Uniform.say _).bind fun _ => (uniform_advance _).bind fun _ => ?_
  refine Uniform.bind (.changeFiles fun _ _ h => h.writeText _ composed.text) fun _ => ?_
  exact (uniform_advance _).bind fun _ => (Uniform.say _).bind fun _ => .pure _

-- ── Preparing and merging ───────────────────────────────────────────────────

/-- The location is none of the listed files of a folder. -/
def Unlisted (w : World) (t : Location) (endings : List Text) (l : Location) : Prop :=
  ∀ name, l = t ++ [name] → Project.listed w.disk.tree t endings name = false

/-- How the faults of two runs match that start in the same world but for the order of entries.
    The faults are the same, and so are the worlds but for that order.  Or entries of a folder of
    the run cannot be looked at, and each fault is about one of them.  In the output folder,
    which of the listed files have been cleared by then is a matter of order too; all else is
    as it was at the start, the log apart. -/
inductive FaultsMatch (w : World) (project output : Option Text) :
    Fault → World → Fault → World → Prop
  | same {fault : Fault} {v v' : World} (hworlds : Reordered v v') :
      FaultsMatch w project output fault v fault v'
  | inProject {r : Location} {target : Path} {cause cause' : Files.Fault} {v v' : World}
      (hfolders : Project.folders w.disk project output = .ok (.absolute r, target))
      (hcause : Project.Unlooked w.disk r cause) (hcause' : Project.Unlooked w.disk r cause')
      (hworlds : Reordered v v') :
      FaultsMatch w project output (.project (.file cause)) v (.project (.file cause')) v'
  | inOutput {root : Path} {t : Location} {s : Settings} {cause cause' : Files.Fault}
      {v v' : World} (hfolders : Project.folders w.disk project output = .ok (root, .absolute t))
      (hload : Settings.load w.disk root = .ok s) (hcause : Project.Unlooked w.disk t cause)
      (hcause' : Project.Unlooked w.disk t cause')
      (hleft : Agree (Unlisted w t (s.sketchEndings ++ s.companionEndings)) w v)
      (hleft' : Agree (Unlisted w t (s.sketchEndings ++ s.companionEndings)) w v')
      (hhanded : v.handed = v'.handed) :
      FaultsMatch w project output (.file cause) v (.file cause') v'

theorem unlooked_alike {d d' : Disk} (h : d.Alike d') {r : Location} {cause : Files.Fault}
    (hcause : Project.Unlooked d r cause) : Project.Unlooked d' r cause := by
  obtain ⟨name, hname, hfault⟩ := hcause
  refine ⟨name, ?_, (Disk.isFile_alike h _).symm.trans hfault⟩
  rw [Tree.mem_names] at hname ⊢
  rw [← (h.tree _).isSome]
  exact hname

theorem FaultsMatch.started {project output : Option Text} {fault fault' : Fault} {v v' : World}
    (h : FaultsMatch w.started project output fault v fault' v') :
    FaultsMatch w project output fault v fault' v' := by
  have hstart {scope : Location → Prop} : Agree scope w w.started :=
    ⟨fun _ _ _ => rfl, fun _ _ => .refl _, fun _ h => h, rfl, rfl, rfl, rfl, rfl⟩
  cases h with
  | same hworlds => exact .same hworlds
  | inProject hfolders hcause hcause' hworlds => exact .inProject hfolders hcause hcause' hworlds
  | inOutput hfolders hload hcause hcause' hleft hleft' hhanded =>
      exact .inOutput hfolders hload hcause hcause' (hstart.trans hleft) (hstart.trans hleft')
        hhanded

variable {w₀ : World} {project output : Option Text} {r t : Location} {s : Settings}

/-- Clearing leaves all but the listed files as they were when the run started. -/
theorem agree_clear (hbase : Agrees w₀ w) (hw : w.disk.tree.Sound) (ht : w.disk.tree.Standing t)
    (hlinks : w.disk.tree.NoLinks t) (endings : List Text) :
    Agree (Unlisted w₀ t endings) w₀
      (w.withDisk (Output.clear (.absolute t) endings w.disk).2) := by
  obtain ⟨tree, hclear, hkept⟩ := Output.clear_kept hw ht hlinks endings
  rw [hclear]
  refine (hbase.mono fun _ _ => trivial).trans (agree_withDisk fun l hl => hkept l fun name _ heq => ?_)
  rw [Project.listed, Tree.hasFile_like (hbase.alike.tree _)]
  exact hl name heq

/-- A uniform action matches itself. -/
theorem matches_uniform {f : Action Fault α} (hf : Uniform f) (h : Reordered w w') :
    Matches (FaultsMatch w₀ project output) Eq (f w) (f w') :=
  (hf w w' h).imp fun _ _ _ _ hsame => hsame.1 ▸ .same hsame.2

theorem matches_scan (hbase : Agrees w₀ w) (hw : w.Sound) (h : Reordered w w')
    (hr : w.disk.tree.Standing r) {target : Path}
    (hfolders : Project.folders w₀.disk project output = .ok (.absolute r, target)) :
    Matches (FaultsMatch w₀ project output) Eq
      (Action.ask (fun d => (Project.scan d s.sketchEndings s.companionEndings
        (Path.absolute r).text).mapError Fault.project) w)
      (Action.ask (fun d => (Project.scan d s.sketchEndings s.companionEndings
        (Path.absolute r).text).mapError Fault.project) w') := by
  have hscan := (Project.scan_rearranged h.disk hw.tree hw.here hr s.sketchEndings
    s.companionEndings).mapError fun _ _ hakin => hakin.map Fault.project
  rw [ask_run, ask_run]
  refine (Matches.of_related hscan h).imp fun fault v fault' v' hmatch => ?_
  obtain ⟨rfl | ⟨cause, cause', rfl, rfl, hcause, hcause'⟩, hworlds⟩ := hmatch
  · exact .same hworlds
  · exact .inProject hfolders (unlooked_alike hbase.alike hcause)
      (unlooked_alike hbase.alike hcause') hworlds

theorem matches_clear (hbase : Agrees w₀ w) (hw : w.Sound) (h : Reordered w w')
    (ht : w.disk.tree.Standing t) (hlinks : w.disk.tree.NoLinks t) {root : Path}
    (hfolders : Project.folders w₀.disk project output = .ok (root, .absolute t))
    (hload : Settings.load w₀.disk root = .ok s) :
    Matches (FaultsMatch w₀ project output) List.Perm
      (Action.changeFiles
        (Output.clear (.absolute t) (s.sketchEndings ++ s.companionEndings)) w)
      (Action.changeFiles
        (Output.clear (.absolute t) (s.sketchEndings ++ s.companionEndings)) w') := by
  rw [changeFiles_run, changeFiles_run]
  rcases Output.clear_rearranged h.disk hw.tree ht hlinks (s.sketchEndings ++ s.companionEndings)
    with ⟨hresult, hdisks⟩ | ⟨cause, cause', hstop, hstop', hcause, hcause'⟩
  · refine (Matches.of_related (hresult.mapError fun _ _ => congrArg Fault.file)
      (h.withDisk hdisks)).imp fun fault v fault' v' hmatch => ?_
    exact hmatch.1 ▸ .same hmatch.2
  · have halike := h.disk.alike.symm.tree
    rw [hstop, hstop']
    refine .error (.inOutput hfolders hload (unlooked_alike hbase.alike hcause)
      (unlooked_alike hbase.alike hcause') (agree_clear hbase hw.tree ht hlinks _)
      (agree_clear (hbase.trans h.agrees) (halike.sound hw.tree) (halike.standing ht)
        (halike.noLinks hlinks) _) ?_)
    obtain ⟨_, rfl, -⟩ := h
    rfl

theorem clearNotes_perm (target : Path) {removed removed' : List Path}
    (h : removed.Perm removed') :
    Output.clearNotes target removed = Output.clearNotes target removed' := by
  have hempty : removed.isEmpty = removed'.isEmpty := by
    rw [Bool.eq_iff_iff, List.isEmpty_iff_length_eq_zero, List.isEmpty_iff_length_eq_zero,
      h.length_eq]
  rw [Output.clearNotes, Output.clearNotes, hempty, h.length_eq]

/-- **PREPARING IN ANY ORDER.** -/
theorem matches_prepare (hbase : Agrees w₀ w) (hw : w.Sound) (h : Reordered w w')
    (hr : w.disk.tree.Standing r) (ht : w.disk.tree.Standing t) (hlinks : w.disk.tree.NoLinks t)
    (hfolders : Project.folders w₀.disk project output = .ok (.absolute r, .absolute t))
    (hload : Settings.load w₀.disk (.absolute r) = .ok s) :
    Matches (FaultsMatch w₀ project output) Eq
      (prepare s (.absolute r) (.absolute t) w) (prepare s (.absolute r) (.absolute t) w') := by
  refine (matches_scan hbase hw h hr hfolders).bind fun found _ v v' hask heq hv => ?_
  obtain ⟨-, rfl⟩ := Prod.mk.inj ((ask_run _ _).symm.trans hask)
  subst heq
  refine (matches_uniform (.say _) hv).bind fun _ _ v v' hsay _ hv => ?_
  obtain ⟨-, rfl⟩ := Prod.mk.inj hsay
  -- the folder is cleared in a world that agrees with the first one
  have hagree : Agrees w (w.note found.scanNote) := agree_note w _
  refine (matches_clear (hbase.trans hagree) (hw.note _) hv (hagree.alike.tree.standing ht)
    (hagree.alike.tree.noLinks hlinks) hfolders hload).bind
    fun removed removed' v v' _ hperm hv => ?_
  rw [clearNotes_perm _ hperm]
  refine matches_uniform ((Uniform.sayAll _).bind fun _ => ?_) hv
  exact Uniform.bind (.changeFiles fun _ _ h => Output.copyEach_rearranged h _ _) fun _ => .pure _

/-- **MERGING IN ANY ORDER.** -/
theorem matches_merge (hw : w.Sound) (h : Reordered w w') (p : Pipeline)
    (hlinks : ∀ r t, Project.folders w.disk project output = .ok (.absolute r, .absolute t) →
      w.disk.tree.NoLinks t) :
    Matches (FaultsMatch w project output) Eq
      (p.merge project output w) (p.merge project output w') := by
  refine (matches_uniform (.ask fun d d' hd => by rw [Project.folders_rearranged hd]) h).bind
    fun found _ v v' hask heq hv => ?_
  obtain ⟨hfound, rfl⟩ := Prod.mk.inj ((ask_run _ _).symm.trans hask)
  subst heq
  obtain ⟨root, target⟩ := found
  have hfolders := mapError_eq_ok hfound
  obtain ⟨r, t, rfl, rfl, hr, ht, -⟩ := Project.folders_eq_ok hw.tree hw.here hfolders
  dsimp only
  refine (matches_uniform (.ask fun d d' hd => by rw [Settings.load_rearranged hd]) hv).bind
    fun s _ v v' hask heq hv => ?_
  obtain ⟨hloaded, rfl⟩ := Prod.mk.inj ((ask_run _ _).symm.trans hask)
  subst heq
  refine (matches_uniform (.ofResult _) hv).bind fun variant _ v v' hresult heq hv => ?_
  obtain ⟨-, rfl⟩ := Prod.mk.inj ((ofResult_run _ _).symm.trans hresult)
  subst heq
  refine (matches_uniform (.say _) hv).bind fun _ _ v v' hsay _ hv => ?_
  obtain ⟨-, rfl⟩ := Prod.mk.inj hsay
  have hagree : Agrees w (w.note (startNote (.absolute r) variant)) := agree_note w _
  refine (matches_prepare hagree (hw.note _) hv (hagree.alike.tree.standing hr)
    (hagree.alike.tree.standing ht) (hagree.alike.tree.noLinks (hlinks r t hfolders)) hfolders
    (mapError_eq_ok hloaded)).bind fun prepared _ v v' _ heq hv => ?_
  subst heq
  exact matches_uniform ((Uniform.sayAll _).bind fun _ => .pure _) hv

-- ── The whole run ───────────────────────────────────────────────────────────

/-- A run that has stopped has stopped in any order. -/
theorem FaultsMatch.stopped {fault fault' : Fault} {v v' : World}
    (h : FaultsMatch w project output fault v fault' v') :
    FaultsMatch w project output fault (v.stopped fault) fault' (v'.stopped fault') := by
  cases h with
  | same hworlds => exact .same ((hworlds.advanced .failed).note _)
  | inProject hfolders hcause hcause' hworlds =>
      -- the note does not say what the fault is
      exact .inProject hfolders hcause hcause' ((hworlds.advanced .failed).note _)
  | inOutput hfolders hload hcause hcause' hleft hleft' hhanded =>
      exact .inOutput hfolders hload hcause hcause' (hleft.trans (agree_stopped _ _))
        (hleft'.trans (agree_stopped _ _)) hhanded

theorem matches_run (hw : w.Sound) (h : Reordered w w') (p : Pipeline)
    (hlinks : ∀ r t, Project.folders w.disk project output = .ok (.absolute r, .absolute t) →
      w.disk.tree.NoLinks t) :
    Matches (FaultsMatch w project output) Eq
      (p.run project output w) (p.run project output w') := by
  have hwork : Matches (FaultsMatch w project output) Eq
      (p.work project output w.started) (p.work project output w'.started) := by
    have hmerge := (matches_merge hw.started h.started p hlinks).imp
      fun _ _ _ _ hfault => hfault.started
    refine hmerge.bind fun m _ v v' _ heq hv => ?_
    subst heq
    refine (matches_uniform (uniform_advance _) hv).bind fun _ _ v v' _ _ hv => ?_
    refine matches_uniform (.getting fun v v' hv => ?_) hv
    have hvariable : v'.toolVariable = v.toolVariable := by
      obtain ⟨d, rfl, -⟩ := hv
      rfl
    rw [hvariable]
    refine Uniform.bind (Extraction.uniform_extract _ _ _) (fun lines => ?_) v v' hv
    exact (uniform_advance _).bind fun _ => uniform_finish m lines
  exact hwork.tryCatch fun fault v fault' v' hfault => .error hfault.stopped

-- ── What is handed over ─────────────────────────────────────────────────────

variable {p : Pipeline}

/-- The text is merged from the sketch files of the project folder in their order, as they are
    when the start of the run has been noted. -/
def MergedText (p : Pipeline) (project output : Option Text) (w : World) (text : Text) : Prop :=
  ∃ r target s v files,
    Project.folders w.disk project output = .ok (.absolute r, target) ∧
    Settings.load w.disk (.absolute r) = .ok s ∧ s.variantFor p.variant = .ok v ∧
    Project.Sketches (w.started.note (startNote (.absolute r) v)).disk r s.sketchEndings files ∧
    text = (Buffer.unify v.lineMarkers (files.map Project.sourceOf)).text

/-- One merged text has been handed over, or the run has failed before that. -/
def HandsOver (p : Pipeline) (project output : Option Text) (w : World)
    (out : Except Fault Product × World) : Prop :=
  (out.1.isOk = false ∧ out.2.handed = w.handed) ∨
    ∃ text, MergedText p project output w text ∧ out.2.handed = w.handed ++ [Utf8.encode text]

theorem mergedText_of_merge {m : Merged} (hw : w.Sound)
    (hmerge : p.merge project output w.started = (.ok m, w')) :
    MergedText p project output w m.buffer.text := by
  obtain ⟨root, prepared, hdecided, -⟩ := merge_eq_ok hmerge
  obtain ⟨r, t, rfl, -, hr, -⟩ :=
    Project.folders_eq_ok hw.started.tree hw.started.here hdecided.folders
  obtain ⟨files, hfiles, hfound⟩ := hdecided.sketches_noted hw.started hr
  refine ⟨r, m.target, m.settings, m.variant, files, hdecided.folders, hdecided.settings,
    hdecided.variant, hfound, ?_⟩
  rw [Merged.buffer, hfiles]

theorem handsOver_of_merge {m : Merged} {out : Except Fault Product × World} (hw : w.Sound)
    (hmerge : p.merge project output w.started = (.ok m, w'))
    (hhanded : out.2.handed = w.handed ++ p.givenOver project output w)
    (hcopied : out.1.isOk = true → (Extraction.copying m.project.name m.buffer.text
      (w'.advanced .unified)).1.isOk = true) : HandsOver p project output w out := by
  rw [givenOver, hmerge] at hhanded
  dsimp only at hhanded
  split at hhanded
  next => exact .inr ⟨m.buffer.text, mergedText_of_merge hw hmerge, hhanded⟩
  next hnot =>
      refine .inl ⟨Bool.eq_false_iff.mpr fun hok => hnot (hcopied hok), ?_⟩
      rw [hhanded, List.append_nil]

theorem copied_of_extract {from_ : TagSource} {name text : Text} {lines : List Text}
    (h : Extraction.extract from_ name text w = (.ok lines, w')) :
    (Extraction.copying name text w).1.isOk = true := by
  have hcases := Extraction.extract_extracts from_ name text w
  rw [h] at hcases
  cases hcases with
  | asked hwrite => rw [Extraction.copying, hwrite]; rfl

/-- **ONE TEXT IS HANDED OVER**, merged in order, by every run that comes to that. -/
theorem handsOver_run (hw : w.Sound) (p : Pipeline) (project output : Option Text) :
    HandsOver p project output w (p.run project output w) := by
  have hcourse := run_course p project output w
  generalize p.run project output w = out at hcourse ⊢
  cases hcourse with
  | notMerged hmerge =>
      refine .inl ⟨rfl, ?_⟩
      rw [((reached_merge (reached_started w) hmerge).stopped _).handed, List.append_nil]
  | notExtracted hmerge hextract =>
      have hstopped := (reached_extracted hmerge hextract).stopped
      exact handsOver_of_merge hw hmerge (hstopped _).handed nofun
  | notFinished hmerge hextract hfinish =>
      refine handsOver_of_merge hw hmerge ?_ nofun
      rcases reached_finish ((reached_extracted hmerge hextract).advanced .extracted) hfinish
        with ⟨fault, -, hstopped⟩ | ⟨product, herror, -⟩
      · exact (hstopped.stopped _).handed
      · exact nomatch herror
  | finished hmerge hextract hfinish =>
      refine handsOver_of_merge hw hmerge ?_ fun _ => copied_of_extract hextract
      rcases reached_finish ((reached_extracted hmerge hextract).advanced .extracted) hfinish
        with ⟨fault, herror, -⟩ | ⟨product, -, hdone⟩
      · exact nomatch herror
      · exact hdone.handed

/-- **THE ORDER OF LISTING DECIDES NOTHING.**  In worlds that differ in the order of the entries
    of their trees, with no links in the output folder, a run ends with the same product or the
    same fault, and the worlds after it differ in that order only; so the same texts have been
    handed over, and every location holds the same.  ONLY WHERE ENTRIES OF ITS FOLDERS CANNOT
    BE LOOKED AT do the runs fail each on one of these, and in the output folder each with
    some of the listed files cleared.  What is handed over is merged from the sketch files in
    an order of their own. -/
theorem run_reordered (p : Pipeline) (hw : w.Sound) (h : Reordered w w')
    (hlinks : ∀ r t, Project.folders w.disk project output = .ok (.absolute r, .absolute t) →
      w.disk.tree.NoLinks t) :
    Matches (FaultsMatch w project output) Eq (p.run project output w)
      (p.run project output w') ∧
    HandsOver p project output w (p.run project output w) :=
  ⟨matches_run hw h p hlinks, handsOver_run hw p project output⟩

/-- A project whose files are listed neither by their names nor by what they are, and an output
    folder with what earlier runs have left. -/
def listedEntries : List (Location × Entry) :=
  [(["out"], .folder), (["p"], .folder), (["p", "z.pde"], .file (Utf8.encode "int z;")),
    (["out", "old.ino"], .file []), (["p", "k.h"], .file (Utf8.encode "#define K 1")),
    (["p", "p.pde"], .file (Utf8.encode "int n = f(1);")), (["out", "note.txt"], .file []),
    (["p", "a.ino"], .file (Utf8.encode "int f(int a) \x7b return a; \x7d")),
    (["out", "k.h"], .file []), (["p", "c.h"], .file []), (["p", "p.ino"], .file [])]

theorem run_reordered_reversed :
    (run { extractor := some oneFunction } (some "/p") (some "/out")
      (.holding listedEntries)).1.isOk = true ∧
    Matches (FaultsMatch (.holding listedEntries) (some "/p") (some "/out")) Eq
      (run { extractor := some oneFunction } (some "/p") (some "/out") (.holding listedEntries))
      (run { extractor := some oneFunction } (some "/p") (some "/out")
        (.holding listedEntries.reverse)) ∧
    HandsOver { extractor := some oneFunction } (some "/p") (some "/out")
      (.holding listedEntries)
      (run { extractor := some oneFunction } (some "/p") (some "/out")
        (.holding listedEntries)) := by
  have hsound : (World.holding listedEntries).Sound :=
    sound_holding (by decide +kernel) (by decide +kernel)
  have hreordered : Reordered (.holding listedEntries) (.holding listedEntries.reverse) :=
    ⟨_, rfl, ⟨(List.reverse_perm _).symm, hsound.distinct⟩, rfl, rfl⟩
  have hfolders : Project.folders (World.holding listedEntries).disk (some "/p") (some "/out")
      = .ok (.absolute ["p"], .absolute ["out"]) := by decide +kernel
  refine ⟨by decide +kernel, run_reordered _ hsound hreordered fun r t h => ?_⟩
  obtain ⟨-, ht⟩ := Prod.mk.inj (Except.ok.inj (hfolders.symm.trans h))
  obtain rfl := (Path.mk.inj ht).2
  exact Tree.noLinks_of_entries (by decide +kernel)

/-- A project where two sketches are links whose targets have names that are too long. -/
def longLinks : List (Location × Entry) :=
  [(["out"], .folder), (["p"], .folder), (["p", "p.ino"], .file []),
    (["p", "a.ino"], .link (.replicate 256 (.char 'n'))),
    (["p", "b.ino"], .link (.replicate 256 (.char 'n')))]

/-- **THE ORDER OF LISTING SHOWS IN A FAULT**: both runs fail, each on the link that is listed
    first. -/
theorem run_fault_of_order :
    (World.holding longLinks).Sound ∧
    Reordered (.holding longLinks) (.holding longLinks.reverse) ∧
    (World.holding longLinks).disk.tree.NoLinks ["out"] ∧
    (run { extractor := some oneFunction } (some "/p") (some "/out") (.holding longLinks)).1
      = .error (.project (.file (.at .tooLong "/p/a.ino"))) ∧
    (run { extractor := some oneFunction } (some "/p") (some "/out")
      (.holding longLinks.reverse)).1
      = .error (.project (.file (.at .tooLong "/p/b.ino"))) := by
  have hsound : (World.holding longLinks).Sound :=
    sound_holding (by decide +kernel) (by decide +kernel)
  exact ⟨hsound, ⟨_, rfl, ⟨(List.reverse_perm _).symm, hsound.distinct⟩, rfl, rfl⟩,
    Tree.noLinks_of_entries (by decide +kernel), by decide +kernel, by decide +kernel⟩

end Pipeline

end SketchMerge
