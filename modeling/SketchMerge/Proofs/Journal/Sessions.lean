import Mathlib.Data.List.Induction
import SketchMerge.Proofs.Journal.Governance
import SketchMerge.Proofs.Run.Agreement

/-! # What a session leaves in its sinks

    A session sets the journal up, goes on to stages and enters notes, in any order and
    number.  What is in force for a note is decided by the LAST SET-UP, which may have
    failed to open its log file, and by the last stage.  Between set-ups nothing of it
    changes (`InForce.performAll`), so a note that is heavy enough is shown once on the
    console and written once to the log file of the last set-up, with the stage.

    That holds of the parts that the head voice governs, by whatever rule: every part by
    the hierarchy of names, and by the search for parents every part whose name does not
    start with a dot.  What has been passed over since the last set-up does not stand in
    the way, for A GOVERNED VOICE IS ONLY PASSED OVER WHERE IT SHOULD BE
    (`Tracks.passedOver`). -/

namespace SketchMerge

-- ── Texts of characters ─────────────────────────────────────────────────────

namespace Text

/-- The text holds characters only, and no surrogate. -/
def Clean (t : Text) : Prop :=
  ∀ g ∈ t, g.char?.isSome = true

instance (t : Text) : Decidable t.Clean :=
  inferInstanceAs (Decidable (∀ g ∈ t, g.char?.isSome = true))

theorem clean_nil : Clean [] :=
  fun _ h => absurd h List.not_mem_nil

theorem Clean.append {s t : Text} (hs : s.Clean) (ht : t.Clean) : Clean (s ++ t) := by
  intro g hg
  rcases List.mem_append.mp hg with hg | hg
  · exact hs g hg
  · exact ht g hg

theorem clean_ofString (string : String) : Clean (ofString string) := by
  intro g hg
  obtain ⟨c, -, rfl⟩ := List.mem_map.mp hg
  rfl

/-- A text of characters is the text of a string. -/
theorem Clean.eq_ofString {t : Text} (h : t.Clean) : ∃ string, t = ofString string := by
  induction t with
  | nil => exact ⟨"", rfl⟩
  | cons g t ih =>
      obtain ⟨string, rfl⟩ := ih fun x hx => h x (List.mem_cons_of_mem _ hx)
      obtain ⟨c, hc⟩ := Option.isSome_iff_exists.mp (h g (List.mem_cons_self ..))
      cases g with
      | surrogate index => cases hc
      | char c => exact ⟨String.ofList (c :: string.toList), by simp [ofString]⟩

theorem toString?_ofString (string : String) : toString? (ofString string) = some string := by
  have hchars : (ofString string).mapM Glyph.char? = some string.toList := by
    rw [ofString]
    generalize string.toList = cs
    induction cs with
    | nil => rfl
    | cons c cs ih =>
        rw [List.map_cons, List.mapM_cons, ih]
        rfl
  rw [toString?, hchars, Option.map_some, String.ofList_toList]

/-- A console shows characters as they are. -/
theorem Clean.console {t : Text} (h : t.Clean) : ofString (Quoted.console t) = t := by
  obtain ⟨string, rfl⟩ := h.eq_ofString
  have hglyphs : (ofString string).flatMap Quoted.consoleGlyph = string.toList := by
    rw [ofString, List.flatMap_map]
    exact List.flatMap_singleton' _
  rw [Quoted.console, hglyphs, String.ofList_toList]

end Text

-- ── Steps of a session ──────────────────────────────────────────────────────

namespace Journal

/-- What can be done in a session. -/
inductive Step where
  | setUp (verbose : Bool) (logFile : Option Path)
  | stage (word : Text)
  | log (n : Note)

namespace Step

def isSetUp : Step → Bool
  | .setUp .. => true
  | _ => false

def isLog : Step → Bool
  | .log _ => true
  | _ => false

/-- The stage that a step goes on to, if it does. -/
def stage? : Step → Option Text
  | .stage word => some word
  | _ => none

/-- The name that a step uses to enter a note, if it does. -/
def part? : Step → Option Text
  | .log n => some n.part
  | _ => none

end Step

/-- The texts of the note hold characters only. -/
def CleanNote (n : Note) : Prop :=
  n.part.Clean ∧ n.message.Clean ∧ n.detail.Clean

instance (n : Note) : Decidable (CleanNote n) :=
  inferInstanceAs (Decidable (_ ∧ _ ∧ _))

/-- The stage that some steps have come to. -/
def lastStage (steps : List Step) : Text :=
  (steps.filterMap Step.stage?).getLast?.getD "-"

/-- The names that some steps have used to enter notes. -/
def names (steps : List Step) : List Text :=
  steps.filterMap Step.part?

/-- How heavy a note must be to be shown. -/
def levelFor (verbose : Bool) : Level :=
  if verbose then .debug else .info

/-- A note as the console shows it. -/
def consoleEntry (n : Note) : Text :=
  "[sketchpp] " ++ n.level.label ++ " " ++ body n ++ "\n"

/-- A note as it is written to the log file at a stage. -/
def logEntry (time stage : Text) (n : Note) : Text :=
  time ++ " " ++ n.level.label ++ " " ++ Voice.ofPart n.part ++ " [" ++ stage ++ "]: "
    ++ body n ++ "\n"

theorem lastStage_concat (steps : List Step) (step : Step) :
    lastStage (steps ++ [step]) = step.stage?.getD (lastStage steps) := by
  rw [lastStage, lastStage, List.filterMap_append]
  cases hstage : step.stage? with
  | none => rw [List.filterMap_cons_none hstage, List.filterMap_nil, List.append_nil, Option.getD_none]
  | some word =>
      rw [List.filterMap_cons_some hstage, List.filterMap_nil, List.getLast?_concat,
        Option.getD_some, Option.getD_some]

theorem names_concat (steps : List Step) (step : Step) :
    names (steps ++ [step]) = names steps ++ step.part?.toList := by
  rw [names, names, List.filterMap_append]
  cases hpart : step.part? with
  | none => rw [List.filterMap_cons_none hpart, List.filterMap_nil, Option.toList_none]
  | some part => rw [List.filterMap_cons_some hpart, List.filterMap_nil, Option.toList_some]

theorem mem_callUp (j : Journal) (voice v : Text) :
    v ∈ (j.callUp voice).voices ↔ v = voice ∨ v ∈ j.voices := by
  rw [callUp]
  split
  next hin =>
      constructor
      · exact .inr
      · rintro (rfl | h)
        · exact List.contains_iff_mem.mp hin
        · exact h
  next => exact List.mem_cons

theorem threshold_callUp (j : Journal) (voice : Text) :
    (j.callUp voice).threshold = j.threshold := by
  rw [World.callUp_eq]

theorem stage_callUp (j : Journal) (voice : Text) : (j.callUp voice).stage = j.stage := by
  rw [World.callUp_eq]

theorem passedOver_callUp (j : Journal) (voice : Text) :
    (j.callUp voice).passedOver = j.passedOver := by
  rw [World.callUp_eq]

theorem clean_body {n : Note} (h : CleanNote n) : (body n).Clean := by
  rw [body]
  split
  · exact h.2.1
  · exact (h.2.1.append (Text.clean_ofString _)).append h.2.2

theorem clean_consoleEntry {n : Note} (h : CleanNote n) : (consoleEntry n).Clean :=
  ((((Text.clean_ofString _).append (Text.clean_ofString _)).append (Text.clean_ofString _)).append
    (clean_body h)).append (Text.clean_ofString _)

theorem clean_ofPart {part : Text} (h : part.Clean) : (Voice.ofPart part).Clean := by
  rw [Voice.ofPart]
  split
  · exact Text.clean_ofString _
  · exact ((Text.clean_ofString _).append (Text.clean_ofString _)).append h

theorem clean_logEntry {time stage : Text} {n : Note} (htime : time.Clean) (hstage : stage.Clean)
    (h : CleanNote n) : (logEntry time stage n).Clean := by
  have hspace := Text.clean_ofString " "
  exact ((((((((htime.append hspace).append (Text.clean_ofString _)).append hspace).append
    (clean_ofPart h.1)).append (Text.clean_ofString _)).append hstage).append
    (Text.clean_ofString _)).append (clean_body h)).append (Text.clean_ofString _)

theorem clean_lastStage {steps : List Step}
    (h : ∀ word, Step.stage word ∈ steps → Text.Clean word) : (lastStage steps).Clean := by
  induction steps using List.reverseRecOn with
  | nil => exact Text.clean_ofString "-"
  | append_singleton steps step ih =>
      have hlast := ih fun word hword => h word (List.mem_append_left _ hword)
      rw [lastStage_concat]
      cases step with
      | setUp verbose logFile => exact hlast
      | stage word => exact h word (List.mem_append_right _ (List.mem_singleton_self _))
      | log n => exact hlast

end Journal

open Journal

namespace World

section

variable (governs : Voice.Rule)

/-- The world after a step, by a rule for the voices. -/
def perform (w : World) : Step → World
  | .setUp verbose logFile => (Action.setUpJournal verbose logFile w).2
  | .stage word => w.atStage word
  | .log n => w.noteBy governs n

/-- The world after some steps. -/
def performAll (w : World) (steps : List Step) : World :=
  steps.foldl (perform governs) w

theorem performAll_append (w : World) (steps later : List Step) :
    w.performAll governs (steps ++ later) = (w.performAll governs steps).performAll governs later :=
  List.foldl_append ..

theorem performAll_cons (w : World) (step : Step) (steps : List Step) :
    w.performAll governs (step :: steps) = (w.perform governs step).performAll governs steps := rfl

theorem performAll_concat (w : World) (steps : List Step) (step : Step) :
    w.performAll governs (steps ++ [step]) = (w.performAll governs steps).perform governs step :=
  List.foldl_concat ..

end

-- ── Setting up ──────────────────────────────────────────────────────────────

/-- The location of the log file that a set-up opens, if it opens one. -/
def fileOpened (w : World) (logFile : Option Path) : Option Location :=
  logFile.bind fun p => (w.disk.target (w.disk.absolutePath p)).toOption

/-- The world with the journal set up and no log file open. -/
def consoleOnly (w : World) (verbose : Bool) : World :=
  { w with journal := w.journal.setUp (levelFor verbose) }

/-- The world with a log file open, which is made if it is not there. -/
def withLog (w : World) (l : Location) : World :=
  { w with
    disk := { w.disk with
      tree := if (w.disk.tree.get? l).isSome then w.disk.tree else w.disk.tree.put l (.file []) }
    journal := { w.journal with logFile := some ⟨some l⟩ } }

/-- A log file that is opened is made if it is not there, and nothing else changes. -/
theorem get?_withLog (w : World) {l : Location} (hl : l ≠ []) (k : Location) :
    (w.withLog l).disk.tree.get? k
      = if k = l ∧ w.disk.tree.get? l = none then some (.file []) else w.disk.tree.get? k := by
  rw [withLog]
  dsimp only
  cases hget : w.disk.tree.get? l with
  | some e => rw [if_pos Option.isSome_some, if_neg fun hk => Option.some_ne_none e hk.2]
  | none =>
      rw [if_neg (by decide), Tree.get?_put _ hl]
      by_cases hk : k = l
      · rw [if_pos hk, if_pos ⟨hk, rfl⟩]
      · rw [if_neg hk, if_neg fun h => hk h.1]

/-- The ways in which a set-up can end, each with the log file that it opens. -/
inductive SetsUp (verbose : Bool) (w : World) (logFile : Option Path) :
    Option Location → Except Files.Fault Unit × World → Prop
  | console (hnone : logFile = none) : SetsUp verbose w logFile none (.ok (), w.consoleOnly verbose)
  | unopened {fault : Files.Fault} (hsome : logFile.isSome = true) :
      SetsUp verbose w logFile none (.error fault, w.consoleOnly verbose)
  | opened {p : Path} {l : Location} (htarget : w.disk.target (w.disk.absolutePath p) = .ok l) :
      SetsUp verbose w logFile (some l) (.ok (), (w.consoleOnly verbose).withLog l)

theorem setUpJournal_setsUp (verbose : Bool) (logFile : Option Path) (w : World) :
    SetsUp verbose w logFile (w.fileOpened logFile) (Action.setUpJournal verbose logFile w) := by
  cases logFile with
  | none => exact .console rfl
  | some p =>
      have hdisk : (w.consoleOnly verbose).disk = w.disk := rfl
      rw [Action.setUpJournal, Action.bind_run]
      show SetsUp verbose w (some p) _ ((Action.ask _ >>= _) (w.consoleOnly verbose))
      rw [Action.bind_run, Action.ask_run, hdisk, fileOpened, Option.bind_some]
      cases htarget : w.disk.target (w.disk.absolutePath p) with
      | error fault => exact .unopened rfl
      | ok l => exact .opened htarget

/-- A set-up fails exactly if it is given a log file that it cannot open. -/
theorem setUpJournal_eq_ok_iff (verbose : Bool) (logFile : Option Path) (w : World) :
    (Action.setUpJournal verbose logFile w).1 = .ok ()
      ↔ (logFile.isSome = true → (w.fileOpened logFile).isSome = true) := by
  have hsetsUp := setUpJournal_setsUp verbose logFile w
  generalize Action.setUpJournal verbose logFile w = out at hsetsUp ⊢
  generalize w.fileOpened logFile = file at hsetsUp ⊢
  cases hsetsUp with
  | console hnone =>
      rw [hnone]
      exact ⟨fun _ h => h, fun _ => rfl⟩
  | unopened hsome =>
      constructor
      · intro hok
        cases hok
      · intro hopened
        cases hopened hsome
  | opened _ => exact ⟨fun _ _ => rfl, fun _ => rfl⟩

-- ── What is in force ────────────────────────────────────────────────────────

variable {governs : Voice.Rule}

/-- What the last set-up has put in force: the weight from which on notes are shown, and
    the log file that it opened. -/
structure InForce (w : World) (level : Level) (file : Option Location) : Prop where
  threshold : w.journal.threshold = some level
  logFile : w.journal.logFile = file.map fun l => ⟨some l⟩
  isFile : ∀ l ∈ file, ∃ content, w.disk.tree.get? l = some (.file content)

theorem inForce_setUp (governs : Voice.Rule) (w : World) (verbose : Bool) (logFile : Option Path) :
    InForce (w.perform governs (.setUp verbose logFile)) (levelFor verbose) (w.fileOpened logFile) := by
  have hsetsUp := setUpJournal_setsUp verbose logFile w
  rw [perform]
  generalize Action.setUpJournal verbose logFile w = out at hsetsUp ⊢
  generalize w.fileOpened logFile = file at hsetsUp ⊢
  cases hsetsUp with
  | console _ => exact ⟨rfl, rfl, fun l hl => by cases hl⟩
  | unopened _ => exact ⟨rfl, rfl, fun l hl => by cases hl⟩
  | @opened p l htarget =>
      refine ⟨rfl, rfl, ?_⟩
      rintro k ⟨rfl⟩
      rw [get?_withLog _ (Disk.target_ne_nil htarget)]
      rcases Disk.target_none_or_file (w.disk.isAbsolute_absolutePath p) htarget with
        hnone | ⟨content, hfile⟩
      · exact ⟨[], if_pos ⟨rfl, hnone⟩⟩
      · have hthere : ¬ (l = l ∧ (w.consoleOnly verbose).disk.tree.get? l = none) := by
          rintro ⟨-, hnone⟩
          cases hnone.symm.trans hfile
        exact ⟨content, (if_neg hthere).trans hfile⟩

/-- **BETWEEN SET-UPS**, a step leaves in force what is. -/
theorem InForce.perform {w : World} {level : Level} {file : Option Location}
    (h : InForce w level file) {step : Step} (hstep : step.isSetUp = false) :
    InForce (w.perform governs step) level file := by
  cases step with
  | setUp verbose logFile => cases hstep
  | stage word => exact ⟨h.threshold, h.logFile, h.isFile⟩
  | log n =>
      refine ⟨?_, ?_, ?_⟩
      · show ((w.journal.callUp _).callUp _).threshold = _
        rw [threshold_callUp, threshold_callUp, h.threshold]
      · rw [World.perform, logFile_noteBy, h.logFile]
      · intro l hl
        obtain ⟨content, hcontent⟩ := h.isFile l hl
        have hagree : Agrees w (w.noteBy governs n) := agree_noteBy governs w n
        rcases hagree.like l trivial with hsame | ⟨content', _, hfile, -⟩
        · exact ⟨content, hsame.trans hcontent⟩
        · exact ⟨content', hfile⟩

theorem InForce.performAll {level : Level} {file : Option Location} {steps : List Step} :
    ∀ {w : World}, InForce w level file → (∀ step ∈ steps, step.isSetUp = false) →
      InForce (w.performAll governs steps) level file := by
  induction steps with
  | nil =>
      intro w h _
      exact h
  | cons step steps ih =>
      intro w h hsteps
      rw [performAll_cons]
      exact ih (h.perform (hsteps step (List.mem_cons_self ..)))
        fun x hx => hsteps x (List.mem_cons_of_mem _ hx)

theorem InForce.sinks_eq {w : World} {level : Level} {file : Option Location}
    (h : InForce w level file) : w.journal.sinks = if file.isSome then 2 else 1 := by
  rw [Journal.sinks, h.threshold, h.logFile, Option.isSome_map]
  cases file with
  | none => rfl
  | some l => rfl

-- ── What a session keeps track of ───────────────────────────────────────────

/-- The stage, the voices and whether the journal is set up are those that the steps of
    the session have left, and the time is that of its start.  Where the head voice governs
    a part, its notes have been passed over only if they were too light. -/
structure Tracks (governs : Voice.Rule) (start : World) (steps : List Step) (w : World) :
    Prop where
  stage : w.journal.stage = lastStage steps
  time : w.time = start.time
  isSetUp : w.journal.threshold.isSome = steps.any Step.isSetUp
  voices : ∀ v, v ∈ w.journal.voices
    ↔ steps.any Step.isSetUp = true ∧ v = Voice.head ∨ ∃ part ∈ names steps, v = Voice.ofPart part
  passedOver : ∀ part, Voice.Governs governs part → ∀ level threshold,
    (Voice.ofPart part, level) ∈ w.journal.passedOver → w.journal.threshold = some threshold →
      level.reaches threshold = false

theorem Tracks.nil {start : World} (h : start.journal = {}) : Tracks governs start [] start where
  stage := by rw [h]; rfl
  time := rfl
  isSetUp := by rw [h]; rfl
  voices := by
    intro v
    rw [h]
    constructor
    · intro hv
      cases hv
    · rintro (⟨hany, -⟩ | ⟨part, hpart, -⟩)
      · cases hany
      · cases hpart
  passedOver := by
    intro part _ level threshold hpassed
    rw [h] at hpassed
    cases hpassed

/-- A set-up calls up the head voice, forgets what has been passed over, and leaves stage
    and time. -/
theorem journal_setUp (governs : Voice.Rule) (w : World) (verbose : Bool) (logFile : Option Path) :
    (w.perform governs (.setUp verbose logFile)).journal.stage = w.journal.stage
      ∧ (w.perform governs (.setUp verbose logFile)).journal.voices
          = (w.journal.callUp Voice.head).voices
      ∧ (w.perform governs (.setUp verbose logFile)).journal.passedOver = []
      ∧ (w.perform governs (.setUp verbose logFile)).time = w.time := by
  have hsetsUp := setUpJournal_setsUp verbose logFile w
  rw [perform]
  generalize Action.setUpJournal verbose logFile w = out at hsetsUp ⊢
  generalize w.fileOpened logFile = file at hsetsUp
  cases hsetsUp with
  | console _ => exact ⟨stage_callUp _ _, rfl, rfl, rfl⟩
  | unopened _ => exact ⟨stage_callUp _ _, rfl, rfl, rfl⟩
  | opened _ => exact ⟨stage_callUp _ _, rfl, rfl, rfl⟩

/-- The voices that are known when a note is entered. -/
theorem Tracks.known {start w : World} {steps : List Step} (h : Tracks governs start steps w)
    (hsetUp : steps.any Step.isSetUp = true) (part : Text) :
    Voice.Voices (w.journal.callUp (Voice.ofPart part)).voices (names steps ++ [part]) := by
  intro v
  rw [mem_callUp, h.voices]
  simp only [hsetUp, true_and, List.mem_append, List.mem_singleton, or_and_right, exists_or,
    exists_eq_left]
  rw [or_comm, or_assoc]

/-- By the rule of the session, what is in force is in force for a part that is governed. -/
theorem Tracks.thresholdFor {start w : World} {steps : List Step}
    (h : Tracks governs start steps w) {threshold : Level}
    (hthreshold : w.journal.threshold = some threshold) {part : Text}
    (hgoverns : Voice.Governs governs part) :
    (w.journal.callUp (Voice.ofPart part)).thresholdFor governs (Voice.ofPart part)
      = some threshold := by
  have hsetUp : steps.any Step.isSetUp = true := by
    rw [← h.isSetUp, hthreshold]
    rfl
  rw [Journal.thresholdFor, if_pos (hgoverns _ _ (h.known hsetUp part)), threshold_callUp,
    hthreshold]

/-- A note of a part that is governed is taken if it is heavy enough, and passed over if
    not. -/
theorem Tracks.takes {start w : World} {steps : List Step} (h : Tracks governs start steps w)
    {threshold : Level} (hthreshold : w.journal.threshold = some threshold) {n : Note}
    (hgoverns : Voice.Governs governs n.part) :
    (w.journal.callUp (Voice.ofPart n.part)).takes governs n = n.level.reaches threshold := by
  rw [Journal.takes, h.thresholdFor hthreshold hgoverns, Option.getD_some, passedOver_callUp]
  cases hreaches : n.level.reaches threshold with
  | false => exact Bool.and_false _
  | true =>
      have hnew : w.journal.passedOver.contains (Voice.ofPart n.part, n.level) = false := by
        rw [Bool.eq_false_iff, ne_eq, List.contains_iff_mem]
        intro hpassed
        cases hreaches.symm.trans (h.passedOver _ hgoverns _ _ hpassed hthreshold)
      rw [hnew]
      rfl

/-- What is passed over after a note. -/
theorem mem_passedOver_noteBy {w : World} {n : Note} {voice : Text} {level : Level}
    (h : (voice, level) ∈ (w.noteBy governs n).journal.passedOver) :
    (voice, level) ∈ w.journal.passedOver
      ∨ (voice = Voice.ofPart n.part ∧ level = n.level
        ∧ (w.journal.callUp (Voice.ofPart n.part)).takes governs n = false) := by
  have hjournal : (w.noteBy governs n).journal.passedOver
      = if (w.journal.callUp (Voice.ofPart n.part)).takes governs n then w.journal.passedOver
        else w.journal.passedOver.insert (Voice.ofPart n.part, n.level) := by
    rw [← passedOver_callUp w.journal (Voice.ofPart n.part)]
    rfl
  rw [hjournal] at h
  split at h
  next => exact .inl h
  next htakes =>
      rcases List.mem_insert_iff.mp h with heq | hold
      · cases heq
        exact .inr ⟨rfl, rfl, Bool.eq_false_iff.mpr htakes⟩
      · exact .inl hold

theorem Tracks.perform {start w : World} {steps : List Step} (h : Tracks governs start steps w)
    (step : Step) : Tracks governs start (steps ++ [step]) (w.perform governs step) := by
  cases step with
  | setUp verbose logFile =>
      obtain ⟨hstage, hvoices, hpassed, htime⟩ := journal_setUp governs w verbose logFile
      have hinForce := inForce_setUp governs w verbose logFile
      refine ⟨?_, htime.trans h.time, ?_, ?_, ?_⟩
      · rw [hstage, h.stage, lastStage_concat]
        rfl
      · rw [hinForce.threshold, List.any_append]
        exact (Bool.or_true _).symm
      · intro v
        rw [hvoices, mem_callUp, h.voices, names_concat, List.any_append]
        simp only [Step.part?, Step.isSetUp, Option.toList_none, List.append_nil, List.any_cons,
          Bool.true_or, Bool.or_true, true_and]
        tauto
      · intro part _ level threshold hin
        rw [hpassed] at hin
        cases hin
  | stage word =>
      refine ⟨?_, h.time, ?_, ?_, h.passedOver⟩
      · rw [lastStage_concat]
        rfl
      · rw [List.any_append]
        exact h.isSetUp.trans (Bool.or_false _).symm
      · intro v
        rw [names_concat, List.any_append]
        simp only [Step.part?, Step.isSetUp, Option.toList_none, List.append_nil, List.any_cons,
          List.any_nil, Bool.or_false]
        exact h.voices v
  | log n =>
      have hthreshold : (w.noteBy governs n).journal.threshold = w.journal.threshold :=
        (threshold_callUp _ _).trans (threshold_callUp _ _)
      refine ⟨?_, h.time, ?_, ?_, ?_⟩
      · rw [lastStage_concat]
        exact (stage_callUp _ _).trans ((stage_callUp _ _).trans h.stage)
      · rw [World.perform, hthreshold, List.any_append]
        exact h.isSetUp.trans (Bool.or_false _).symm
      · intro v
        show v ∈ ((w.journal.callUp _).callUp _).voices ↔ _
        rw [mem_callUp, mem_callUp, h.voices, names_concat, List.any_append]
        simp only [Step.part?, Step.isSetUp, Option.toList_some, List.any_cons, List.any_nil,
          Bool.or_false, List.mem_append, List.mem_singleton, or_and_right, exists_or,
          exists_eq_left]
        rw [or_self_left, or_comm, or_assoc]
      · intro part hgoverns level threshold hin hset
        rw [World.perform, hthreshold] at hset
        rcases mem_passedOver_noteBy hin with hold | ⟨hvoice, rfl, htakes⟩
        · exact h.passedOver part hgoverns level threshold hold hset
        · -- the voice is governed, so it is passed over by the weight that is in force
          rw [Voice.ofPart_injective hvoice] at hgoverns
          rw [← htakes, h.takes hset hgoverns]

theorem tracks_performAll (governs : Voice.Rule) {start : World} (h : start.journal = {})
    (steps : List Step) :
    Tracks governs start steps (start.performAll governs steps) := by
  induction steps using List.reverseRecOn with
  | nil => exact .nil h
  | append_singleton steps step ih =>
      rw [performAll_concat]
      exact ih.perform step

-- ── What a note leaves ──────────────────────────────────────────────────────

/-- Between two worlds the console has received a text, and so has the log file at a
    location, if one is given.  No other file is touched. -/
structure Receives (w w' : World) (file : Option Location) (shown written : Text) : Prop where
  console : w'.console = w.console ++ shown
  log : ∀ l ∈ file, ∃ content, w.disk.tree.get? l = some (.file content)
    ∧ w'.disk.tree.get? l = some (.file (content ++ Utf8.encode written))
  others : ∀ l, l ∉ file → w'.disk.tree.get? l = w.disk.tree.get? l

theorem get?_appendLog {t : Tree} {l : Location} {content : List UInt8} {entry : Text}
    (hfile : t.get? l = some (.file content)) (hentry : entry.Clean) (k : Location) :
    (appendLog t (some ⟨some l⟩) entry).get? k
      = if k = l then some (.file (content ++ Utf8.encode entry)) else t.get? k := by
  obtain ⟨string, rfl⟩ := hentry.eq_ofString
  have hl : l ≠ [] := by
    rintro rfl
    cases hfile
  have happend : appendLog t (some ⟨some l⟩) (Text.ofString string)
      = t.put l (.file (content ++ Utf8.encode (Text.ofString string))) := by
    rw [appendLog, hfile, Text.toString?_ofString]
  rw [happend, Tree.get?_put t hl]

section

variable {w : World} {level : Level} {file : Option Location} {n : Note}

/-- What the journal hands to its sinks. -/
theorem InForce.receives (h : InForce w level file) {shown written : Text}
    (hshown : (w.journal.callUp (Voice.ofPart n.part)).consoleLine governs n = shown)
    (hwritten : (w.journal.callUp (Voice.ofPart n.part)).logLine governs w.time n
      = written)
    (hclean : written.Clean) : Receives w (w.noteBy governs n) file shown written := by
  have htree : (w.noteBy governs n).disk.tree
      = appendLog w.disk.tree (file.map fun l => ⟨some l⟩) written := by
    rw [← hwritten, ← h.logFile, ← logFile_callUp]
    rfl
  refine ⟨by rw [← hshown]; rfl, ?_, ?_⟩
  · intro l hl
    obtain ⟨content, hcontent⟩ := h.isFile l hl
    cases hl
    refine ⟨content, hcontent, ?_⟩
    rw [htree, Option.map_some, get?_appendLog hcontent hclean, if_pos rfl]
  · intro l hl
    rw [htree]
    cases file with
    | none => rfl
    | some k =>
        obtain ⟨content, hcontent⟩ := h.isFile k rfl
        have hne : l ≠ k := by
          rintro rfl
          exact hl rfl
        rw [Option.map_some, get?_appendLog hcontent hclean, if_neg hne]

/-- Where nothing is written, no file is touched. -/
theorem Receives.of_nothing {w' : World} {shown : Text} (h : Receives w w' file shown []) :
    Receives w w' none shown [] := by
  refine ⟨h.console, ?_, ?_⟩
  · intro l hl
    cases hl
  · intro l _
    by_cases hl : l ∈ file
    · obtain ⟨content, hold, hnew⟩ := h.log l hl
      have hnil : Utf8.encode [] = [] := rfl
      rw [hold, hnew, hnil, List.append_nil]
    · exact h.others l hl

/-- A note that is taken, of a part for which the weight is in force: one entry for each
    sink. -/
theorem note_taken (h : InForce w level file)
    (htakes : (w.journal.callUp (Voice.ofPart n.part)).takes governs n = true)
    (hthreshold : (w.journal.callUp (Voice.ofPart n.part)).thresholdFor governs (Voice.ofPart n.part)
      = some level) (hn : CleanNote n) (htime : w.time.Clean) (hstage : w.journal.stage.Clean) :
    Receives w (w.noteBy governs n) file (consoleEntry n) (logEntry w.time w.journal.stage n) := by
  refine h.receives ?_ ?_ (clean_logEntry htime hstage hn)
  · rw [Journal.consoleLine, if_pos htakes, hthreshold]
    exact (clean_consoleEntry hn).console
  · rw [Journal.logLine, htakes, hthreshold, if_pos (by rfl), stage_callUp]
    rfl

/-- A note that is passed over: nothing. -/
theorem note_passedOver (h : InForce w level file)
    (htakes : (w.journal.callUp (Voice.ofPart n.part)).takes governs n = false) :
    Receives w (w.noteBy governs n) none [] [] := by
  refine (h.receives ?_ ?_ Text.clean_nil).of_nothing
  · rw [Journal.consoleLine, if_neg (Bool.eq_false_iff.mp htakes)]
  · rw [Journal.logLine, htakes, if_neg (by exact Bool.false_ne_true)]

/-- What is too light for a set-up is passed over, and so it is if the voice is not
    governed, for then it would have to be a warning. -/
theorem InForce.takes_light {verbose : Bool} (h : InForce w (levelFor verbose) file)
    (hlight : n.level.reaches (levelFor verbose) = false) :
    (w.journal.callUp (Voice.ofPart n.part)).takes governs n = false := by
  have hwarning : n.level.reaches .warning = false := by
    have hle : (levelFor verbose).rank ≤ Level.warning.rank := by
      cases verbose with
      | false => decide
      | true => decide
    rw [Bool.eq_false_iff]
    intro hreaches
    exact absurd (hle.trans (of_decide_eq_true hreaches)) (of_decide_eq_false hlight)
  rw [Journal.takes, Journal.thresholdFor, threshold_callUp, h.threshold]
  split
  · rw [Option.getD_some, hlight, Bool.and_false]
  · rw [Option.getD_none, hwarning, Bool.and_false]

end

-- ── Steps that enter no note ────────────────────────────────────────────────

/-- A set-up or a stage shows nothing and leaves all that is there.  At most it makes a log
    file, which is empty. -/
theorem perform_silent (w : World) {step : Step} (hstep : step.isLog = false) :
    (w.perform governs step).console = w.console
      ∧ ∀ l, (w.perform governs step).disk.tree.get? l = w.disk.tree.get? l
        ∨ w.disk.tree.get? l = none ∧ (w.perform governs step).disk.tree.get? l = some (.file []) := by
  cases step with
  | log n => cases hstep
  | stage word => exact ⟨rfl, fun l => .inl rfl⟩
  | setUp verbose logFile =>
      have hsetsUp := setUpJournal_setsUp verbose logFile w
      rw [perform]
      generalize Action.setUpJournal verbose logFile w = out at hsetsUp ⊢
      generalize w.fileOpened logFile = file at hsetsUp
      cases hsetsUp with
      | console _ => exact ⟨rfl, fun l => .inl rfl⟩
      | unopened _ => exact ⟨rfl, fun l => .inl rfl⟩
      | @opened p l htarget =>
          refine ⟨rfl, fun k => ?_⟩
          rw [get?_withLog _ (Disk.target_ne_nil htarget)]
          split
          next hnew => exact .inr ⟨hnew.1 ▸ hnew.2, rfl⟩
          next => exact .inl rfl

-- ── Sessions ────────────────────────────────────────────────────────────────

/-- **WHAT A SESSION LEAVES IN ITS SINKS**, by any rule for the voices.  After a last set-up,
    its level is in force, and its log file if it could be opened.  A note that is too light
    leaves nothing.  One that is heavy enough leaves ONE ENTRY on the console and one at the
    end of that file, with the last stage, and nothing else: by the hierarchy of names
    whatever its part, and by another rule if it has that part below the head voice.  Other
    steps show nothing, and at most make an empty log file. -/
theorem session_recorded (governs : Voice.Rule) {start : World} (hfresh : start.journal = {})
    (htime : start.time.Clean) {before after steps : List Step} {verbose : Bool}
    {logFile : Option Path} (hsteps : steps = before ++ .setUp verbose logFile :: after)
    (hlast : ∀ step ∈ after, step.isSetUp = false)
    (hstages : ∀ word, .stage word ∈ steps → Text.Clean word) {file : Option Location}
    (hfile : (start.performAll governs before).fileOpened logFile = file) :
    (start.performAll governs steps).journal.threshold = some (levelFor verbose)
    ∧ (start.performAll governs steps).journal.sinks = (if file.isSome then 2 else 1)
    ∧ ((Action.setUpJournal verbose logFile (start.performAll governs before)).1 = .ok ()
        ↔ (logFile.isSome = true → file.isSome = true))
    ∧ (∀ n, CleanNote n →
        (n.level.reaches (levelFor verbose) = false →
          Receives (start.performAll governs steps) (start.performAll governs (steps ++ [.log n]))
            none [] [])
        ∧ (n.level.reaches (levelFor verbose) = true →
          governs = Voice.isBelow ∨ Voice.Governs governs n.part →
          Receives (start.performAll governs steps) (start.performAll governs (steps ++ [.log n]))
            file (consoleEntry n) (logEntry start.time (lastStage steps) n)))
    ∧ ∀ step, step.isLog = false →
        (start.performAll governs (steps ++ [step])).console
            = (start.performAll governs steps).console
        ∧ ∀ l, (start.performAll governs (steps ++ [step])).disk.tree.get? l
              = (start.performAll governs steps).disk.tree.get? l
            ∨ (start.performAll governs steps).disk.tree.get? l = none
              ∧ (start.performAll governs (steps ++ [step])).disk.tree.get? l
                  = some (.file []) := by
  have hinForce : InForce (start.performAll governs steps) (levelFor verbose) file := by
    rw [hsteps, performAll_append, performAll_cons, ← hfile]
    exact (inForce_setUp governs _ verbose logFile).performAll hlast
  have htracks := tracks_performAll governs hfresh steps
  refine ⟨hinForce.threshold, hinForce.sinks_eq, ?_, ?_, ?_⟩
  · rw [setUpJournal_eq_ok_iff, hfile]
  · intro n hn
    rw [performAll_concat]
    constructor
    · intro hlight
      exact note_passedOver hinForce (hinForce.takes_light hlight)
    · intro hheavy hrule
      have hgoverns : Voice.Governs governs n.part := by
        rcases hrule with rfl | hgoverns
        · exact Voice.governs_isBelow n.part
        · exact hgoverns
      have hstage : (start.performAll governs steps).journal.stage.Clean := by
        rw [htracks.stage]
        exact clean_lastStage hstages
      rw [← htracks.time, ← htracks.stage]
      exact note_taken hinForce ((htracks.takes hinForce.threshold hgoverns).trans hheavy)
        (htracks.thresholdFor hinForce.threshold hgoverns) hn (htracks.time ▸ htime) hstage
  · intro step hstep
    rw [performAll_concat]
    exact perform_silent _ hstep

/-- The start of a session with a log file. -/
def oldLog : List Step :=
  [.setUp true (some (Path.ofText "old.log")), .log (.debug "tags" "first")]

/-- The session goes over to another log file, and on to a stage. -/
def newLog : List Step :=
  oldLog ++ .setUp false (some (Path.ofText "new.log")) :: [.stage "merge"]

/-- By the hierarchy of names and by the search for parents. -/
theorem session_recorded_new_log :
    Receives ((holding []).performAll Voice.isBelow newLog)
        ((holding []).performAll Voice.isBelow (newLog ++ [.log (.info ".tags" "second")]))
        (some ["new.log"]) "[sketchpp] INFO second\n" " INFO sketchpp..tags [merge]: second\n"
      ∧ Receives ((holding []).performAll Voice.isGoverned newLog)
        ((holding []).performAll Voice.isGoverned (newLog ++ [.log (.info "tags" "second")]))
        (some ["new.log"]) "[sketchpp] INFO second\n" " INFO sketchpp.tags [merge]: second\n" := by
  have hsteps : newLog = oldLog ++ .setUp false (some (Path.ofText "new.log")) :: [.stage "merge"] :=
    rfl
  have hlast : ∀ step ∈ [Step.stage "merge"], step.isSetUp = false := by
    intro step hstep
    rw [List.mem_singleton.mp hstep]
    rfl
  have hstages : ∀ word, .stage word ∈ newLog → Text.Clean word := by
    intro word hword
    have hmerge : word = "merge" := by simpa [newLog, oldLog] using hword
    rw [hmerge]
    exact Text.clean_ofString "merge"
  constructor
  · have hfile : ((holding []).performAll Voice.isBelow oldLog).fileOpened
        (some (Path.ofText "new.log")) = some (["new.log"] : Location) := by decide
    obtain ⟨-, -, -, hnotes, -⟩ :=
      session_recorded Voice.isBelow rfl Text.clean_nil hsteps hlast hstages hfile
    exact (hnotes (.info ".tags" "second") (by decide)).2 rfl (.inl rfl)
  · have hfile : ((holding []).performAll Voice.isGoverned oldLog).fileOpened
        (some (Path.ofText "new.log")) = some (["new.log"] : Location) := by decide
    obtain ⟨-, -, -, hnotes, -⟩ :=
      session_recorded Voice.isGoverned rfl Text.clean_nil hsteps hlast hstages hfile
    exact (hnotes (.info "tags" "second") (by decide)).2 rfl
      (.inr (Voice.governs_isGoverned_iff.mpr (by decide)))

end World

end SketchMerge
