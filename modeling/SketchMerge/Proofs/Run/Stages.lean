import SketchMerge.Proofs.Journal.Governance
import SketchMerge.Proofs.Run.Agreement

/-! # The stages of a run

    A run goes along the chain of stages from its start, one step after the other,
    and each step leaves a record in the journal.  Every other note is an ASIDE: no
    record of it reads as a step.  So the records of a run tell how far it has come:
    to the end of the chain, or to some stage before it, with one step to failure
    from there. -/

namespace SketchMerge

-- ── The chain and its records ───────────────────────────────────────────────

namespace Stage

/-- The stages that a run goes through when all goes well. -/
def chain : List Stage :=
  [.start, .unified, .extracted, .parsed, .synthesized, .located, .composed, .done]

/-- The first `n` steps along the chain. -/
def stepsTo (n : Nat) : List (Stage × Stage) :=
  (chain.zip chain.tail).take n

/-- The one step to failure from a place in the chain that is not its end. -/
def fall (n : Nat) : List (Stage × Stage) :=
  match chain.drop n with
  | now :: _ :: _ => [(now, .failed)]
  | _ => []

/-- All pairs of stages. -/
def pairs : List (Stage × Stage) :=
  let all := chain ++ [.failed]
  all.flatMap fun now => all.map (now, ·)

theorem mem_pairs (now next : Stage) : (now, next) ∈ pairs := by
  cases now <;> cases next <;> decide

end Stage

/-- The step from one stage to another that a record tells of, if it does. -/
def Journal.Record.step? (r : Journal.Record) : Option (Stage × Stage) :=
  Stage.pairs.find? fun (now, next) =>
    r.voice == Voice.ofPart (Pipeline.stageNote now next).part &&
      r.message == (Pipeline.stageNote now next).message

/-- The record that the journal keeps of a note. -/
def Journal.recordOf (j : Journal) (n : Note) : Journal.Record :=
  { level := n.level, voice := Voice.ofPart n.part, stage := j.stage, message := n.message }

/-- The note is not one on going on to a stage: it comes from another part of the program,
    or does not begin like one. -/
def Note.IsAside (n : Note) : Prop :=
  n.part ≠ "orchestrator" ∨ n.message.head? ≠ some (.char 'S')

theorem Note.aside_of_part {n : Note} {part : String} (hpart : n.part = part)
    (hother : (part : Text) ≠ "orchestrator") : n.IsAside :=
  .inl (hpart ▸ hother)

theorem Note.aside_of_start {n : Note} (c : Char) (hstart : n.message.head? = some (.char c))
    (hother : c ≠ 'S') : n.IsAside := by
  refine .inr fun hhead => hother ?_
  rw [hstart] at hhead
  exact Glyph.char.inj (Option.some.inj hhead)

/-- The note on a step tells of no other step. -/
theorem Pipeline.stageNote_injective {now next now' next' : Stage}
    (h : (stageNote now next).message = (stageNote now' next').message) :
    (now, next) = (now', next') := by
  have hword (a b : Stage) : a.word = b.word → a = b := by
    cases a <;> cases b <;> decide
  have hwords (now next : Stage) : Text.splitAtEach (·.is ' ') (stageNote now next).message
      = [("Stage" : Text), now.word, "->", next.word] := by
    cases now <;> cases next <;> rfl
  have hsplit := congrArg (Text.splitAtEach (·.is ' ')) h
  rw [hwords, hwords, List.cons.injEq, List.cons.injEq, List.cons.injEq, List.cons.injEq] at hsplit
  rw [hword _ _ hsplit.2.1, hword _ _ hsplit.2.2.2.1]

/-- A step is told of by its note. -/
theorem Journal.step?_stageNote (j : Journal) (now next : Stage) :
    (j.recordOf (Pipeline.stageNote now next)).step? = some (now, next) := by
  cases hfind : (j.recordOf (Pipeline.stageNote now next)).step? with
  | none =>
      have hnone := List.find?_eq_none.mp hfind (now, next) (Stage.mem_pairs now next)
      rw [Bool.and_eq_true, beq_iff_eq, beq_iff_eq, not_and] at hnone
      exact absurd rfl (hnone rfl)
  | some s =>
      have hsome := List.find?_some hfind
      rw [Bool.and_eq_true, beq_iff_eq, beq_iff_eq] at hsome
      rw [Pipeline.stageNote_injective hsome.2]

/-- No step is told of by an aside. -/
theorem Journal.step?_aside (j : Journal) {n : Note} (h : n.IsAside) :
    (j.recordOf n).step? = none := by
  rw [Journal.Record.step?, List.find?_eq_none]
  rintro ⟨now, next⟩ -
  rw [Bool.and_eq_true, beq_iff_eq, beq_iff_eq, not_and]
  intro hvoice hmessage
  rcases h with hpart | hhead
  · exact hpart (Voice.ofPart_injective hvoice)
  · refine hhead ?_
    show (j.recordOf n).message.head? = _
    rw [hmessage]
    rfl

-- ── How far a run has come ──────────────────────────────────────────────────

/-- Since the first world, the journal tells of some steps, the last of them to the stage
    `now`, and some contents have been handed over. -/
structure World.Reached (w₀ : World) (now : Stage) (steps : List (Stage × Stage))
    (given : List (List UInt8)) (w : World) : Prop where
  stage : w.stage = now
  journal : w.journal.stage = now.word
  records : ∃ told, w.journal.records = w₀.journal.records ++ told ∧
    told.filterMap Journal.Record.step? = steps
  handed : w.handed = w₀.handed ++ given

namespace World

variable {w₀ w w' : World} {now : Stage} {steps : List (Stage × Stage)}
  {given : List (List UInt8)}

theorem reached_started (w : World) : w.Reached .start [] [] w.started where
  stage := rfl
  journal := rfl
  records := ⟨[], (List.append_nil _).symm, rfl⟩
  handed := (List.append_nil _).symm

theorem records_note (w : World) (n : Note) :
    (w.note n).journal.records = w.journal.records ++ [w.journal.recordOf n] := by
  show (w.journal.callUp _).records ++ [(w.journal.callUp _).recordOf n] = _
  rw [Journal.callUp]
  split
  · rfl
  · rfl

theorem stage_note (w : World) (n : Note) : (w.note n).journal.stage = w.journal.stage := by
  have hcall (j : Journal) (voice : Text) : (j.callUp voice).stage = j.stage := by
    rw [Journal.callUp]
    split
    · rfl
    · rfl
  show ((w.journal.callUp _).callUp _).stage = _
  rw [hcall, hcall]

namespace Reached

theorem note (h : Reached w₀ now steps given w) {n : Note} (hn : n.IsAside) :
    Reached w₀ now steps given (w.note n) := by
  obtain ⟨told, htold, hsteps⟩ := h.records
  refine ⟨h.stage, (stage_note w n).trans h.journal, ⟨told ++ [w.journal.recordOf n], ?_, ?_⟩,
    h.handed⟩
  · rw [records_note, htold, List.append_assoc]
  · rw [List.filterMap_append, hsteps, List.filterMap_cons_none (Journal.step?_aside _ hn),
      List.filterMap_nil, List.append_nil]

theorem notes (h : Reached w₀ now steps given w) {ns : List Note} (hns : ∀ n ∈ ns, n.IsAside) :
    Reached w₀ now steps given (w.notes ns) := by
  induction ns generalizing w with
  | nil => exact h
  | cons n ns ih =>
      exact ih (h.note (hns n (List.mem_cons_self ..)))
        fun n hn => hns n (List.mem_cons_of_mem _ hn)

theorem withDisk (h : Reached w₀ now steps given w) (d : Disk) :
    Reached w₀ now steps given (w.withDisk d) := by
  have hjournal : (w.withDisk d).journal.stage = w.journal.stage ∧
      (w.withDisk d).journal.records = w.journal.records := by
    rw [World.withDisk]
    dsimp only
    split
    · split
      · exact ⟨rfl, rfl⟩
      · exact ⟨rfl, rfl⟩
    · exact ⟨rfl, rfl⟩
  refine ⟨h.stage, hjournal.1.trans h.journal, ?_, h.handed⟩
  rw [hjournal.2]
  exact h.records

/-- **ONE STEP** is told of by one record. -/
theorem advanced (h : Reached w₀ now steps given w) (next : Stage) :
    Reached w₀ next (steps ++ [(now, next)]) given (w.advanced next) := by
  obtain ⟨told, htold, hsteps⟩ := h.records
  refine ⟨rfl, rfl, ⟨told ++ [w.journal.recordOf (Pipeline.stageNote w.stage next)], ?_, ?_⟩,
    h.handed⟩
  · show (w.note _).journal.records = _
    rw [records_note, htold, List.append_assoc]
  · rw [List.filterMap_append, hsteps, h.stage,
      List.filterMap_cons_some (Journal.step?_stageNote _ now next), List.filterMap_nil]

theorem handing (h : Reached w₀ now steps given w) (content : List UInt8) :
    Reached w₀ now steps (given ++ [content]) (w.handing content) where
  stage := h.stage
  journal := h.journal
  records := h.records
  handed := by
    show w.handed ++ [content] = _
    rw [h.handed, List.append_assoc]

/-- The step to failure comes with an aside. -/
theorem stopped (h : Reached w₀ now steps given w) (fault : Fault) :
    Reached w₀ .failed (steps ++ [(now, .failed)]) given (w.stopped fault) := by
  refine (h.advanced .failed).note ?_
  rw [Pipeline.abortNote]
  split
  · exact Note.aside_of_start 'R' rfl (by decide)
  · exact Note.aside_of_start 'R' rfl (by decide)

end Reached

end World

-- ── The parts of a run ──────────────────────────────────────────────────────

open World

variable {w₀ w w' : World} {now : Stage} {steps : List (Stage × Stage)}
  {given : List (List UInt8)}

namespace Pipeline

theorem reached_prepare (h : Reached w₀ now steps given w) {s : Settings} {root target : Path}
    {out : Except Fault (Project × List Path)} (hout : prepare s root target w = (out, w')) :
    Reached w₀ now steps given w' := by
  have hscan (found : Project) : found.scanNote.IsAside := Note.aside_of_part rfl (by decide)
  have hclear (removed : List Path) :
      ∀ n ∈ Output.clearNotes target removed, n.IsAside := by
    intro n hn
    rw [Output.clearNotes] at hn
    split at hn
    · exact nomatch hn
    · rw [List.mem_singleton.mp hn]
      exact Note.aside_of_part rfl (by decide)
  have hcases := prepare_prepares s root target w
  rw [hout] at hcases
  cases hcases with
  | notFound => exact h
  | notCleared => exact (h.note (hscan _)).withDisk _
  | notCopied _ _ hcleared =>
      rw [hcleared]
      exact (((h.note (hscan _)).withDisk _).notes (hclear _)).withDisk _
  | prepared _ _ hcleared =>
      rw [hcleared]
      exact (((h.note (hscan _)).withDisk _).notes (hclear _)).withDisk _

/-- Merging takes no step. -/
theorem reached_merge (h : Reached w₀ now steps given w) {p : Pipeline}
    {project output : Option Text} {out : Except Fault Merged}
    (hout : p.merge project output w = (out, w')) : Reached w₀ now steps given w' := by
  have hstart (root : Path) (v : Variant) : (startNote root v).IsAside :=
    Note.aside_of_start 'P' rfl (by decide)
  have hunify (sources : List Source) : ∀ n ∈ Buffer.unifyNotes sources, n.IsAside := by
    intro n hn
    obtain ⟨s, -, rfl⟩ := List.mem_map.mp hn
    exact Note.aside_of_part rfl (by decide)
  have hcases := merge_merges p project output w
  rw [hout] at hcases
  cases hcases with
  | noFolders => exact h
  | noSettings => exact h
  | noVariant => exact h
  | notPrepared _ _ _ hprepare => exact reached_prepare (h.note (hstart _ _)) hprepare
  | merged _ _ _ hprepare => exact (reached_prepare (h.note (hstart _ _)) hprepare).notes (hunify _)

end Pipeline

namespace Extraction

theorem reached_call (h : Reached w₀ now steps given w) {executable : Text}
    {arguments : List Text} {source : Path} {content : List UInt8}
    {out : Except Fault (Option Tag.ToolOutput)}
    (hout : call executable arguments source content w = (out, w')) :
    Reached w₀ now steps given w' := by
  have hcases := call_calls executable arguments source content w
  rw [hout] at hcases
  cases hcases with
  | barred => exact h
  | uncallable => exact h
  | missing => exact h
  | called => exact ⟨h.stage, h.journal, h.records, h.handed⟩

/-- Whoever is asked, the content of the file is handed over once. -/
theorem reached_tagLines (h : Reached w₀ now steps given w) {from_ : TagSource} {source : Path}
    {out : Except Fault (List Text)} (hout : tagLines from_ source w = (out, w')) :
    Reached w₀ now steps (given ++ [w.contentOf source]) w' := by
  have hcall (command : List Text) : (Tag.callNote command).IsAside :=
    Note.aside_of_part rfl (by decide)
  have houtput (executable : Text) (output : Option Tag.ToolOutput) :
      ∀ n ∈ output.toList.flatMap (Tag.outputNotes executable), n.IsAside := by
    intro n hn
    obtain ⟨o, -, hn⟩ := List.mem_flatMap.mp hn
    rw [Tag.outputNotes] at hn
    split at hn
    · exact nomatch hn
    · rw [List.mem_singleton.mp hn]
      exact Note.aside_of_part rfl (by decide)
  have hcases := tagLines_answers from_ source w
  rw [hout] at hcases
  cases hcases with
  | extractor => exact h.handing _
  | notCalled hrun => exact reached_call ((h.handing _).note (hcall _)) hrun
  | noLines hrun => exact reached_call ((h.handing _).note (hcall _)) hrun
  | printed hrun => exact (reached_call ((h.handing _).note (hcall _)) hrun).notes (houtput _ _)

/-- Writing the temporary copy of a text. -/
def copying (project text : Text) (w : World) : Except Files.Fault Unit × Disk :=
  w.withFolder.disk.writeText (copyPath w.temporary project) text

/-- **THE TEXT IS HANDED OVER** once, if its copy can be written, and else not at all. -/
theorem reached_extract (h : Reached w₀ now steps given w) {from_ : TagSource}
    {project text : Text} {out : Except Fault (List Text)}
    (hout : extract from_ project text w = (out, w')) :
    Reached w₀ now steps
      (given ++ if (copying project text w).1.isOk then [Utf8.encode text] else []) w' := by
  have hcases := extract_extracts from_ project text w
  rw [hout] at hcases
  cases hcases with
  | notWritten hwrite =>
      rw [copying, hwrite]
      show Reached w₀ now steps (given ++ []) _
      rw [List.append_nil]
      exact ((h.withDisk _).withDisk _).withDisk _
  | asked hwrite hask =>
      rw [copying, hwrite]
      show Reached w₀ now steps (given ++ [Utf8.encode text]) _
      rw [← World.contentOf_copy hwrite]
      exact (reached_tagLines ((h.withDisk _).withDisk _) hask).withDisk _

end Extraction

namespace Pipeline

theorem aside_readNotes (lines : List Text) : ∀ n ∈ Tag.readNotes lines, n.IsAside := by
  have hskipped : ∀ (lines : List Text) (k : Nat), ∀ n ∈ Tag.skippedNotes k lines, n.IsAside := by
    intro lines
    induction lines with
    | nil => exact fun _ _ hn => nomatch hn
    | cons line lines ih =>
        intro k n hn
        rw [Tag.skippedNotes] at hn
        split at hn
        · exact ih _ n hn
        · split at hn
          · exact ih _ n hn
          · rcases List.mem_cons.mp hn with rfl | hn
            · exact Note.aside_of_part rfl (by decide)
            · exact ih _ n hn
  intro n hn
  rcases List.mem_append.mp hn with hn | hn
  · exact hskipped lines 1 n hn
  · rw [List.mem_singleton.mp hn]
    exact Note.aside_of_part rfl (by decide)

theorem aside_synthesizeNotes (buffer : Option Buffer) (records : List Tag.Record) :
    ∀ n ∈ Prototype.synthesizeNotes buffer records, n.IsAside := by
  intro n hn
  rcases List.mem_append.mp hn with hn | hn
  · obtain ⟨r, -, hr⟩ := List.mem_filterMap.mp hn
    rw [Prototype.warning?] at hr
    split at hr
    · exact nomatch hr
    · rw [← Option.some.inj hr]
      exact Note.aside_of_part rfl (by decide)
  · rw [List.mem_singleton.mp hn]
    exact Note.aside_of_part rfl (by decide)

/-- The last part of a run takes four steps, and a fifth if the text can be written. -/
theorem reached_finish (h : Reached w₀ .extracted (Stage.stepsTo 2) given w) {m : Merged}
    {lines : List Text} {out : Except Fault Product} (hout : finish m lines w = (out, w')) :
    (∃ fault, out = .error fault ∧ Reached w₀ .composed (Stage.stepsTo 6) given w') ∨
      (∃ product, out = .ok product ∧ Reached w₀ .done (Stage.stepsTo 7) given w') := by
  have hcomposing : Reached w₀ .composed (Stage.stepsTo 6) given (composing m lines w) := by
    have hparsed := (h.notes (aside_readNotes lines)).advanced .parsed
    have hsynthesized := (hparsed.notes (aside_synthesizeNotes (some m.buffer)
      (Tag.readLines lines))).advanced .synthesized
    have hlocated := (hsynthesized.note (n := Trivia.locateNote m.buffer.text)
      (Note.aside_of_part rfl (by decide))).advanced .located
    exact (hlocated.note (n := Buffer.composeNote (Trivia.locate m.buffer.text)
      (Merged.prototypes lines)) (Note.aside_of_part rfl (by decide))).advanced .composed
  have hcases := finish_finishes m lines w
  rw [hout] at hcases
  cases hcases with
  | notWritten => exact .inl ⟨_, rfl, hcomposing.withDisk _⟩
  | written =>
      exact .inr ⟨_, rfl, ((hcomposing.withDisk _).advanced .done).note
        (Note.aside_of_start 'W' rfl (by decide))⟩

-- ── The whole run ───────────────────────────────────────────────────────────

/-- What is handed over in a run: the merged text, if it comes to that and its temporary copy
    can be written. -/
def givenOver (p : Pipeline) (project output : Option Text) (w : World) : List (List UInt8) :=
  match p.merge project output w.started with
  | (.ok m, w') =>
    if (Extraction.copying m.project.name m.buffer.text (w'.advanced .unified)).1.isOk then
      [Utf8.encode m.buffer.text]
    else []
  | (.error _, _) => []

/-- What the stages of a run come to, if it goes `n` steps along the chain. -/
structure Staged (p : Pipeline) (project output : Option Text) (w : World) (n : Nat)
    (out : Except Fault Product × World) : Prop where
  /-- The records of the run tell of these steps, and of one to failure unless the chain is
      at its end. -/
  steps : ∃ told, out.2.journal.records = w.journal.records ++ told ∧
    told.filterMap Journal.Record.step? = Stage.stepsTo n ++ Stage.fall n
  within : n < Stage.chain.length
  /-- There is a product exactly at the end of the chain. -/
  ends : (∃ product, out.1 = .ok product) ↔ n + 1 = Stage.chain.length
  /-- The stage of the run is where the last step leads. -/
  last : some out.2.stage = (Stage.stepsTo n ++ Stage.fall n).getLast?.map Prod.snd
  journal : out.2.journal.stage = out.2.stage.word
  /-- The first step is taken exactly when the sketches are merged. -/
  unified : 0 < n ↔ ∃ m, (p.merge project output w.started).1 = .ok m
  handed : out.2.handed = w.handed ++ p.givenOver project output w

/-- After one step the merged text has been handed over, if it ever is. -/
theorem reached_extracted {p : Pipeline} {project output : Option Text} {m : Merged}
    {w₁ w₂ : World} {from_ : TagSource} {out : Except Fault (List Text)}
    (hmerge : p.merge project output w.started = (.ok m, w₁))
    (hextract : Extraction.extract from_ m.project.name m.buffer.text (w₁.advanced .unified)
      = (out, w₂)) :
    Reached w .unified (Stage.stepsTo 1) (p.givenOver project output w) w₂ := by
  have hunified := (reached_merge (reached_started w) hmerge).advanced .unified
  rw [givenOver, hmerge]
  exact Extraction.reached_extract hunified hextract

/-- A run that has come to a stage before the end of the chain fails from there. -/
theorem staged_stopped {p : Pipeline} {project output : Option Text} {n : Nat} {fault : Fault}
    (h : Reached w now (Stage.stepsTo n) (p.givenOver project output w) w')
    (hfall : Stage.fall n = [(now, .failed)]) (hn : n + 1 < Stage.chain.length)
    (hunified : 0 < n ↔ ∃ m, (p.merge project output w.started).1 = .ok m) :
    Staged p project output w n (.error fault, w'.stopped fault) := by
  have hstopped := h.stopped fault
  rw [← hfall] at hstopped
  refine ⟨hstopped.records, by omega, ⟨fun ⟨_, hok⟩ => (nomatch hok), fun hend => by omega⟩, ?_,
    ?_, hunified, hstopped.handed⟩
  · rw [hstopped.stage, hfall, List.getLast?_concat]
    rfl
  · rw [hstopped.journal, hstopped.stage]

/-- **A RUN GOES ALONG THE CHAIN**, from its start to its end or to some stage from which it
    fails, whatever the world holds and whatever was run before. -/
theorem run_staged (p : Pipeline) (project output : Option Text) (w : World) :
    ∃ n, Staged p project output w n (p.run project output w) := by
  have hcourse := run_course p project output w
  generalize p.run project output w = out at hcourse ⊢
  cases hcourse with
  | notMerged hmerge =>
      have hgiven : p.givenOver project output w = [] := by rw [givenOver, hmerge]
      refine ⟨0, staged_stopped (hgiven ▸ reached_merge (reached_started w) hmerge) rfl
        (by decide) ?_⟩
      rw [hmerge]
      exact ⟨(nomatch ·), fun ⟨_, hok⟩ => nomatch hok⟩
  | notExtracted hmerge hextract =>
      exact ⟨1, staged_stopped (reached_extracted hmerge hextract) rfl (by decide)
        ⟨fun _ => ⟨_, congrArg Prod.fst hmerge⟩, fun _ => by decide⟩⟩
  | notFinished hmerge hextract hfinish =>
      rcases reached_finish ((reached_extracted hmerge hextract).advanced .extracted) hfinish
        with ⟨fault, -, hcomposed⟩ | ⟨product, hok, -⟩
      · exact ⟨6, staged_stopped hcomposed rfl (by decide)
          ⟨fun _ => ⟨_, congrArg Prod.fst hmerge⟩, fun _ => by decide⟩⟩
      · exact nomatch hok
  | finished hmerge hextract hfinish =>
      rcases reached_finish ((reached_extracted hmerge hextract).advanced .extracted) hfinish
        with ⟨fault, herror, -⟩ | ⟨product, hok, hdone⟩
      · exact nomatch herror
      · refine ⟨7, hdone.records, by decide, ⟨fun _ => rfl, fun _ => ⟨_, rfl⟩⟩, ?_, ?_,
          ⟨fun _ => ⟨_, congrArg Prod.fst hmerge⟩, fun _ => by decide⟩, hdone.handed⟩
        · rw [hdone.stage]
          rfl
        · rw [hdone.journal, hdone.stage]

end Pipeline

end SketchMerge
