import SketchMerge.Proofs.Sketch.LineNumbers
import SketchMerge.Run.Pipeline

/-! # The course of a run

    What each part of a run can come to, said once and in full: the result together
    with the world it leaves, put together from entering notes, going on to a stage
    and changing the disk.  A part that can end in several ways has an inductive
    predicate with ONE CASE FOR EACH WAY, and what a run keeps or brings about is
    then shown case by case. -/

namespace SketchMerge

-- ── What happens to worlds ──────────────────────────────────────────────────

namespace World

/-- The world with notes in its journal. -/
def notes (w : World) (ns : List Note) : World :=
  ns.foldl World.note w

/-- The world after a run has gone on to a stage. -/
def advanced (w : World) (next : Stage) : World :=
  { (w.note (Pipeline.stageNote w.stage next)).atStage next.word with stage := next }

/-- The world at the start of a run. -/
def started (w : World) : World :=
  { w.atStage Stage.start.word with stage := .start }

/-- The world after a run has stopped. -/
def stopped (w : World) (fault : Fault) : World :=
  (w.advanced .failed).note (Pipeline.abortNote fault)

end World

-- ── Actions as functions of a world ─────────────────────────────────────────

namespace Action

variable {ε α β : Type}

theorem bind_run (x : Action ε α) (f : α → Action ε β) (w : World) :
    (x >>= f) w = match x w with
      | (.ok a, w') => f a w'
      | (.error e, w') => (.error e, w') := by
  show ExceptT.bindCont f (x w).1 (x w).2 = _
  cases x w with
  | mk result w' =>
      cases result with
      | ok a => rfl
      | error e => rfl

theorem tryCatch_run (x : Action ε α) (handle : ε → Action ε α) (w : World) :
    (tryCatch x handle : Action ε α) w = match x w with
      | (.ok a, w') => (.ok a, w')
      | (.error e, w') => handle e w' := by
  -- the action matters by what it does in this world only
  have hhere : (tryCatch x handle : Action ε α) w
      = (tryCatch (fun _ => x w : Action ε α) handle : Action ε α) w := rfl
  rw [hhere]
  cases x w with
  | mk result w' =>
      cases result with
      | ok a => rfl
      | error e => rfl

theorem sayAll_run (ns : List Note) (w : World) :
    (sayAll ns : Action ε Unit) w = (.ok (), w.notes ns) := by
  induction ns generalizing w with
  | nil => rfl
  | cons n ns ih =>
      show (say n >>= fun _ => sayAll ns : Action ε Unit) w = _
      rw [bind_run]
      exact ih (w.note n)

theorem ofResult_run (r : Except ε α) (w : World) : ofResult r w = (r, w) := by
  cases r with
  | ok a => rfl
  | error e => rfl

theorem say_run (n : Note) (w : World) : (say n : Action ε Unit) w = (.ok (), w.note n) := rfl

theorem ask_run (f : Disk → Except ε α) (w : World) : ask f w = (f w.disk, w) :=
  ofResult_run (f w.disk) w

theorem change_run (f : Disk → Except ε α × Disk) (w : World) :
    change f w = ((f w.disk).1, w.withDisk (f w.disk).2) :=
  ofResult_run (f w.disk).1 (w.withDisk (f w.disk).2)

theorem changeFiles_run (f : Disk → Except Files.Fault α × Disk) (w : World) :
    changeFiles f w = ((f w.disk).1.mapError .file, w.withDisk (f w.disk).2) :=
  change_run _ w

end Action

open SketchMerge.Action SketchMerge.World

-- ── Merging the sketches ────────────────────────────────────────────────────

namespace Pipeline

/-- The ways in which finding the project and preparing the output folder can end. -/
inductive Prepares (s : Settings) (root target : Path) (w : World) :
    Except Fault (Project × List Path) × World → Prop
  | notFound {fault : Project.Fault}
      (hscan : Project.scan w.disk s.sketchEndings s.companionEndings root.text = .error fault) :
      Prepares s root target w (.error (.project fault), w)
  | notCleared {found : Project} {fault : Files.Fault} {d : Disk}
      (hscan : Project.scan w.disk s.sketchEndings s.companionEndings root.text = .ok found)
      (hclear : Output.clear target (s.sketchEndings ++ s.companionEndings)
        (w.note found.scanNote).disk = (.error fault, d)) :
      Prepares s root target w (.error (.file fault), (w.note found.scanNote).withDisk d)
  | notCopied {found : Project} {removed : List Path} {fault : Files.Fault} {d d' : Disk}
      {w' : World}
      (hscan : Project.scan w.disk s.sketchEndings s.companionEndings root.text = .ok found)
      (hclear : Output.clear target (s.sketchEndings ++ s.companionEndings)
        (w.note found.scanNote).disk = (.ok removed, d))
      (hcleared : w' = ((w.note found.scanNote).withDisk d).notes
        (Output.clearNotes target removed))
      (hcopy : Output.copyEach target found.companions w'.disk = (.error fault, d')) :
      Prepares s root target w (.error (.file fault), w'.withDisk d')
  | prepared {found : Project} {removed copied : List Path} {d d' : Disk} {w' : World}
      (hscan : Project.scan w.disk s.sketchEndings s.companionEndings root.text = .ok found)
      (hclear : Output.clear target (s.sketchEndings ++ s.companionEndings)
        (w.note found.scanNote).disk = (.ok removed, d))
      (hcleared : w' = ((w.note found.scanNote).withDisk d).notes
        (Output.clearNotes target removed))
      (hcopy : Output.copyEach target found.companions w'.disk = (.ok copied, d')) :
      Prepares s root target w (.ok (found, copied), w'.withDisk d')

theorem prepare_prepares (s : Settings) (root target : Path) (w : World) :
    Prepares s root target w (prepare s root target w) := by
  rw [prepare, bind_run, ask_run]
  cases hscan : Project.scan w.disk s.sketchEndings s.companionEndings root.text with
  | error fault => exact .notFound hscan
  | ok found =>
      dsimp only [Except.mapError]
      rw [bind_run, say_run]
      dsimp only
      rw [bind_run, changeFiles_run]
      cases hclear : Output.clear target (s.sketchEndings ++ s.companionEndings)
          (w.note found.scanNote).disk with
      | mk result d =>
          cases result with
          | error fault => exact .notCleared hscan hclear
          | ok removed =>
              dsimp only [Except.mapError]
              rw [bind_run, sayAll_run]
              dsimp only
              rw [bind_run, changeFiles_run]
              cases hcopy : Output.copyEach target found.companions
                  (((w.note found.scanNote).withDisk d).notes
                    (Output.clearNotes target removed)).disk with
              | mk result d' =>
                  cases result with
                  | error fault => exact .notCopied hscan hclear rfl hcopy
                  | ok copied => exact .prepared hscan hclear rfl hcopy

/-- The ways in which merging the sketches can end. -/
inductive Merges (p : Pipeline) (project output : Option Text) (w : World) :
    Except Fault Merged × World → Prop
  | noFolders {fault : Project.Fault}
      (hfolders : Project.folders w.disk project output = .error fault) :
      Merges p project output w (.error (.project fault), w)
  | noSettings {root target : Path} {fault : Settings.Fault}
      (hfolders : Project.folders w.disk project output = .ok (root, target))
      (hload : Settings.load w.disk root = .error fault) :
      Merges p project output w (.error (.settings fault), w)
  | noVariant {root target : Path} {s : Settings} {fault : Settings.Fault}
      (hfolders : Project.folders w.disk project output = .ok (root, target))
      (hload : Settings.load w.disk root = .ok s)
      (hvariant : s.variantFor p.variant = .error fault) :
      Merges p project output w (.error (.settings fault), w)
  | notPrepared {root target : Path} {s : Settings} {v : Variant} {fault : Fault} {w' : World}
      (hfolders : Project.folders w.disk project output = .ok (root, target))
      (hload : Settings.load w.disk root = .ok s) (hvariant : s.variantFor p.variant = .ok v)
      (hprepare : prepare s root target (w.note (startNote root v)) = (.error fault, w')) :
      Merges p project output w (.error fault, w')
  | merged {root target : Path} {s : Settings} {v : Variant} {found : Project}
      {copied : List Path} {w' : World}
      (hfolders : Project.folders w.disk project output = .ok (root, target))
      (hload : Settings.load w.disk root = .ok s) (hvariant : s.variantFor p.variant = .ok v)
      (hprepare : prepare s root target (w.note (startNote root v)) = (.ok (found, copied), w')) :
      Merges p project output w
        (.ok { settings := s, variant := v, project := found, target, copied },
          w'.notes (Buffer.unifyNotes found.sketches))

/-- What has been decided and done when the sketches are merged. -/
structure Decided (p : Pipeline) (project output : Option Text) (w : World) (m : Merged)
    (root : Path) (prepared : World) : Prop where
  folders : Project.folders w.disk project output = .ok (root, m.target)
  settings : Settings.load w.disk root = .ok m.settings
  variant : m.settings.variantFor p.variant = .ok m.variant
  prepare : prepare m.settings root m.target (w.note (startNote root m.variant))
    = (.ok (m.project, m.copied), prepared)

theorem merge_merges (p : Pipeline) (project output : Option Text) (w : World) :
    Merges p project output w (p.merge project output w) := by
  rw [merge, bind_run, ask_run]
  cases hfolders : Project.folders w.disk project output with
  | error fault => exact .noFolders hfolders
  | ok roots =>
      obtain ⟨root, target⟩ := roots
      dsimp only [Except.mapError]
      rw [bind_run, ask_run]
      cases hload : Settings.load w.disk root with
      | error fault => exact .noSettings hfolders hload
      | ok s =>
          dsimp only [Except.mapError]
          rw [bind_run, ofResult_run]
          cases hvariant : s.variantFor p.variant with
          | error fault => exact .noVariant hfolders hload hvariant
          | ok v =>
              dsimp only [Except.mapError]
              rw [bind_run, say_run]
              dsimp only
              rw [bind_run]
              cases hprepare : prepare s root target (w.note (startNote root v)) with
              | mk result w' =>
                  cases result with
                  | error fault => exact .notPrepared hfolders hload hvariant hprepare
                  | ok made =>
                      obtain ⟨found, copied⟩ := made
                      dsimp only
                      rw [bind_run, sayAll_run]
                      exact .merged hfolders hload hvariant hprepare

theorem merge_eq_ok {p : Pipeline} {project output : Option Text} {w w' : World} {m : Merged}
    (h : p.merge project output w = (.ok m, w')) :
    ∃ root prepared, Decided p project output w m root prepared ∧
      w' = prepared.notes (Buffer.unifyNotes m.project.sketches) := by
  have hcases := merge_merges p project output w
  rw [h] at hcases
  cases hcases with
  | merged hfolders hload hvariant hprepare =>
      exact ⟨_, _, ⟨hfolders, hload, hvariant, hprepare⟩, rfl⟩

end Pipeline

-- ── Extracting tags ─────────────────────────────────────────────────────────

namespace World

/-- The world with the temporary folder. -/
def withFolder (w : World) : World :=
  w.withDisk { w.disk with tree := w.disk.tree.putFolder w.temporary }

/-- The world without a folder. -/
def without (w : World) (folder : Location) : World :=
  w.withDisk { w.disk with tree := w.disk.tree.prune folder }

/-- The world after a content is handed over. -/
def handing (w : World) (content : List UInt8) : World :=
  { w with handed := w.handed ++ [content] }

/-- The content of a file, empty if it cannot be read. -/
def contentOf (w : World) (source : Path) : List UInt8 :=
  (w.disk.read source).toOption.getD []

end World

namespace Extraction

/-- What a tool has printed. -/
def printed (tool : Tool) : Tag.ToolOutput :=
  { status := tool.status, stdout := printedText tool.stdout, stderr := printedText tool.stderr }

/-- The ways in which calling a tool can end. -/
inductive Calls (executable : Text) (arguments : List Text) (source : Path) (content : List UInt8)
    (w : World) : Except Fault (Option Tag.ToolOutput) × World → Prop
  | barred {fault : Files.Fault}
      (hword : barredWord? (Tag.command executable arguments source.text) = some fault) :
      Calls executable arguments source content w (.error (.file fault), w)
  | uncallable {cause : Files.Cause} (hfind : findTool w executable = .error cause) :
      Calls executable arguments source content w (.error (.file (.at cause executable)), w)
  | missing (hfind : findTool w executable = .ok none) :
      Calls executable arguments source content w (.ok none, w)
  | called {tool : Tool} (hfind : findTool w executable = .ok (some tool)) :
      Calls executable arguments source content w
        (.ok (some (printed tool)),
          { w with calls := w.calls ++ [{
              tool := executable
              arguments := (Tag.command executable arguments source.text).tail
              source := content }] })

theorem call_calls (executable : Text) (arguments : List Text) (source : Path)
    (content : List UInt8) (w : World) :
    Calls executable arguments source content w (call executable arguments source content w) := by
  have hget : (get : Action Fault World) w = (.ok w, w) := rfl
  rw [call, bind_run, hget]
  dsimp only
  cases hword : barredWord? (Tag.command executable arguments source.text) with
  | some fault => exact .barred hword
  | none =>
      dsimp only
      cases hfind : findTool w executable with
      | error cause => exact .uncallable hfind
      | ok found =>
          cases found with
          | none => exact .missing hfind
          | some tool => exact .called hfind

/-- The ways in which asking for the tag lines of a file can end. -/
inductive Answers (source : Path) (w : World) :
    TagSource → Except Fault (List Text) × World → Prop
  | extractor (answer : Extractor) :
      Answers source w (.extractor answer)
        ((answer (w.contentOf source)).mapError Extractor.Fault.ofRun,
          w.handing (w.contentOf source))
  | notCalled {executable : Text} {arguments : List Text} {fault : Fault} {w' : World}
      (hcall : call executable arguments source (w.contentOf source)
        ((w.handing (w.contentOf source)).note
          (Tag.callNote (Tag.command executable arguments source.text))) = (.error fault, w')) :
      Answers source w (.tool executable arguments) (.error fault, w')
  | noLines {executable : Text} {arguments : List Text} {output : Option Tag.ToolOutput}
      {fault : Tag.ToolFault} {w' : World}
      (hcall : call executable arguments source (w.contentOf source)
        ((w.handing (w.contentOf source)).note
          (Tag.callNote (Tag.command executable arguments source.text))) = (.ok output, w'))
      (hlines : Tag.tagLines executable output = .error fault) :
      Answers source w (.tool executable arguments) (.error (.tool fault), w')
  | printed {executable : Text} {arguments : List Text} {output : Option Tag.ToolOutput}
      {lines : List Text} {w' : World}
      (hcall : call executable arguments source (w.contentOf source)
        ((w.handing (w.contentOf source)).note
          (Tag.callNote (Tag.command executable arguments source.text))) = (.ok output, w'))
      (hlines : Tag.tagLines executable output = .ok lines) :
      Answers source w (.tool executable arguments)
        (.ok lines, w'.notes (output.toList.flatMap (Tag.outputNotes executable)))

theorem tagLines_answers (from_ : TagSource) (source : Path) (w : World) :
    Answers source w from_ (tagLines from_ source w) := by
  have hget : (get : Action Fault World) w = (.ok w, w) := rfl
  have hhand : (modify fun w' : World =>
      { w' with handed := w'.handed ++ [w.contentOf source] } : Action Fault Unit) w
        = (.ok (), w.handing (w.contentOf source)) := rfl
  rw [tagLines, bind_run, hget]
  dsimp only
  rw [bind_run, ← World.contentOf, hhand]
  cases from_ with
  | extractor answer =>
      dsimp only
      rw [ofResult_run]
      exact .extractor answer
  | tool executable arguments =>
      dsimp only
      rw [toolLines, bind_run, say_run]
      dsimp only
      rw [bind_run]
      cases hcall : call executable arguments source (w.contentOf source)
          ((w.handing (w.contentOf source)).note
            (Tag.callNote (Tag.command executable arguments source.text))) with
      | mk result w' =>
          cases result with
          | error fault => exact .notCalled hcall
          | ok output =>
              dsimp only
              rw [bind_run, ofResult_run]
              cases hlines : Tag.tagLines executable output with
              | error fault => exact .noLines hcall hlines
              | ok lines =>
                  dsimp only [Except.mapError]
                  rw [bind_run, sayAll_run]
                  exact .printed hcall hlines

/-- The ways in which extracting tags can end. -/
inductive Extracts (from_ : TagSource) (project text : Text) (w : World) :
    Except Fault (List Text) × World → Prop
  | notWritten {fault : Files.Fault} {d : Disk}
      (hwrite : w.withFolder.disk.writeText (copyPath w.temporary project) text
        = (.error fault, d)) :
      Extracts from_ project text w
        (.error (.file fault), (w.withFolder.withDisk d).without w.temporary)
  | asked {d : Disk} {result : Except Fault (List Text)} {w' : World}
      (hwrite : w.withFolder.disk.writeText (copyPath w.temporary project) text = (.ok (), d))
      (hask : tagLines from_ (copyPath w.temporary project) (w.withFolder.withDisk d)
        = (result, w')) :
      Extracts from_ project text w (result, w'.without w.temporary)

theorem extract_extracts (from_ : TagSource) (project text : Text) (w : World) :
    Extracts from_ project text w (extract from_ project text w) := by
  have hget : (get : Action Fault World) w = (.ok w, w) := rfl
  have hfolder : (change fun d => (.ok (), { d with tree := d.tree.putFolder w.temporary })
      : Action Fault Unit) w = (.ok (), w.withFolder) := change_run _ w
  have hclean (v : World) : (cleanUp w.temporary : Action Fault Unit) v
      = (.ok (), v.without w.temporary) := change_run _ v
  rw [extract, bind_run, hget]
  dsimp only
  rw [bind_run, hfolder]
  dsimp only
  rw [tryCatch_run, bind_run, fromCopy, bind_run, changeFiles_run]
  cases hwrite : w.withFolder.disk.writeText (copyPath w.temporary project) text with
  | mk result d =>
      cases result with
      | error fault =>
          dsimp only [Except.mapError]
          rw [bind_run, hclean]
          exact .notWritten hwrite
      | ok written =>
          dsimp only [Except.mapError]
          cases hask : tagLines from_ (copyPath w.temporary project) (w.withFolder.withDisk d) with
          | mk answer w' =>
              cases answer with
              | error fault =>
                  dsimp only
                  rw [bind_run, hclean]
                  exact .asked hwrite hask
              | ok lines =>
                  dsimp only
                  rw [bind_run, hclean]
                  exact .asked hwrite hask

end Extraction

-- ── Finishing, and the whole run ────────────────────────────────────────────

namespace Pipeline

namespace Merged

/-- The text that is written: the merged text, with the declarations at the insertion
    point. -/
def text (m : Merged) (lines : List Text) : Text :=
  let o := Trivia.locate m.buffer.text
  m.buffer.text.take o ++ m.buffer.block m.variant.lineCorrection o (prototypes lines)
    ++ m.buffer.text.drop o

/-- The insertion point is never refused. -/
theorem composed_eq_ok (m : Merged) (lines : List Text) :
    ∃ b, m.composed lines = .ok b ∧ b.text = m.text lines := by
  by_cases hsome : prototypes lines = []
  · refine ⟨m.buffer, ?_, ?_⟩
    · rw [composed, hsome]
      rfl
    · rw [text, hsome]
      show _ = List.take _ _ ++ [] ++ List.drop _ _
      rw [List.append_nil, List.take_append_drop]
  · exact ⟨_, Buffer.compose_fresh m.buffer rfl (Trivia.locate_le_length _) hsome, rfl⟩

end Merged

/-- The world when the insertion point is found. -/
def locating (m : Merged) (lines : List Text) (w : World) : World :=
  (((((w.notes (Tag.readNotes lines)).advanced .parsed).notes
    (Prototype.synthesizeNotes (some m.buffer) (Tag.readLines lines))).advanced .synthesized).note
    (Trivia.locateNote m.buffer.text)).advanced .located

/-- The world when the declarations are in the text. -/
def composing (m : Merged) (lines : List Text) (w : World) : World :=
  ((locating m lines w).note (Buffer.composeNote (Trivia.locate m.buffer.text)
    (Merged.prototypes lines))).advanced .composed

/-- The ways in which the last part of a run can end. -/
inductive Finishes (m : Merged) (lines : List Text) (w : World) :
    Except Fault Product × World → Prop
  | notWritten {fault : Files.Fault} {d : Disk}
      (hwrite : (composing m lines w).disk.writeText m.path (m.text lines) = (.error fault, d)) :
      Finishes m lines w (.error (.file fault), (composing m lines w).withDisk d)
  | written {d : Disk}
      (hwrite : (composing m lines w).disk.writeText m.path (m.text lines) = (.ok (), d)) :
      Finishes m lines w (.ok (m.product lines),
        (((composing m lines w).withDisk d).advanced .done).note (doneNote (m.product lines)))

theorem advance_run {ε : Type} (next : Stage) (w : World) :
    (advance next : Action ε Unit) w = (.ok (), w.advanced next) := rfl

theorem finish_finishes (m : Merged) (lines : List Text) (w : World) :
    Finishes m lines w (finish m lines w) := by
  obtain ⟨b, hb, htext⟩ := m.composed_eq_ok lines
  rw [finish, bind_run, sayAll_run]
  dsimp only
  rw [bind_run, advance_run]
  dsimp only
  rw [bind_run, sayAll_run]
  dsimp only
  rw [bind_run, advance_run]
  dsimp only
  rw [bind_run, say_run]
  dsimp only
  rw [bind_run, advance_run]
  dsimp only
  rw [← locating, hb, bind_run, ofResult_run]
  dsimp only [Except.mapError]
  rw [bind_run, say_run]
  dsimp only
  rw [bind_run, advance_run]
  dsimp only
  rw [← composing, bind_run, changeFiles_run, htext]
  cases hwrite : (composing m lines w).disk.writeText m.path (m.text lines) with
  | mk result d =>
      cases result with
      | error fault => exact .notWritten hwrite
      | ok done => exact .written hwrite

/-- The ways in which a run can end. -/
inductive Course (p : Pipeline) (project output : Option Text) (w : World) :
    Except Fault Product × World → Prop
  | notMerged {fault : Fault} {w₁ : World}
      (hmerge : p.merge project output w.started = (.error fault, w₁)) :
      Course p project output w (.error fault, w₁.stopped fault)
  | notExtracted {m : Merged} {fault : Fault} {w₁ w₂ : World}
      (hmerge : p.merge project output w.started = (.ok m, w₁))
      (hextract : Extraction.extract
        (p.tagSource m.settings m.variant (w₁.advanced .unified).toolVariable) m.project.name
        m.buffer.text (w₁.advanced .unified) = (.error fault, w₂)) :
      Course p project output w (.error fault, w₂.stopped fault)
  | notFinished {m : Merged} {lines : List Text} {fault : Fault} {w₁ w₂ w₃ : World}
      (hmerge : p.merge project output w.started = (.ok m, w₁))
      (hextract : Extraction.extract
        (p.tagSource m.settings m.variant (w₁.advanced .unified).toolVariable) m.project.name
        m.buffer.text (w₁.advanced .unified) = (.ok lines, w₂))
      (hfinish : finish m lines (w₂.advanced .extracted) = (.error fault, w₃)) :
      Course p project output w (.error fault, w₃.stopped fault)
  | finished {m : Merged} {lines : List Text} {product : Product} {w₁ w₂ w₃ : World}
      (hmerge : p.merge project output w.started = (.ok m, w₁))
      (hextract : Extraction.extract
        (p.tagSource m.settings m.variant (w₁.advanced .unified).toolVariable) m.project.name
        m.buffer.text (w₁.advanced .unified) = (.ok lines, w₂))
      (hfinish : finish m lines (w₂.advanced .extracted) = (.ok product, w₃)) :
      Course p project output w (.ok product, w₃)

/-- **EVERY RUN TAKES A COURSE.** -/
theorem run_course (p : Pipeline) (project output : Option Text) (w : World) :
    Course p project output w (p.run project output w) := by
  have hstart : (modify fun w => { w.atStage Stage.start.word with stage := .start }
      : Action Fault Unit) w = (.ok (), w.started) := rfl
  have hget (v : World) : (get : Action Fault World) v = (.ok v, v) := rfl
  rw [run, bind_run, hstart]
  dsimp only
  rw [tryCatch_run, work, bind_run]
  cases hmerge : p.merge project output w.started with
  | mk result w₁ =>
      cases result with
      | error fault => exact .notMerged hmerge
      | ok m =>
          dsimp only
          rw [bind_run, advance_run]
          dsimp only
          rw [bind_run, hget]
          dsimp only
          rw [bind_run]
          cases hextract : Extraction.extract
              (p.tagSource m.settings m.variant (w₁.advanced .unified).toolVariable)
              m.project.name m.buffer.text (w₁.advanced .unified) with
          | mk result w₂ =>
              cases result with
              | error fault => exact .notExtracted hmerge hextract
              | ok lines =>
                  dsimp only
                  rw [bind_run, advance_run]
                  dsimp only
                  cases hfinish : finish m lines (w₂.advanced .extracted) with
                  | mk result w₃ =>
                      cases result with
                      | error fault => exact .notFinished hmerge hextract hfinish
                      | ok product => exact .finished hmerge hextract hfinish

end Pipeline

end SketchMerge
