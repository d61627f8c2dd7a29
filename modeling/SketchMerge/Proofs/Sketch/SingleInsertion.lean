import SketchMerge.Proofs.Text.Splitting
import SketchMerge.Sketch.Compose

/-! # A buffer takes one insertion

    A buffer is asked and changed by operations in any order.  What one operation
    can come to is said once, with ONE CASE FOR EACH WAY (`Performs`): it answers
    and leaves the buffer alone, it is refused because the buffer has taken its
    insertion, it misses the text, or it puts a block in.  Only the last way changes
    the buffer, and after it only the first two are left.  So a whole run of
    operations changes the buffer at most once (`perform_inserts_once`). -/

namespace SketchMerge.Buffer

-- ── Operations ──────────────────────────────────────────────────────────────

/-- What can be asked of a buffer, or done to it. -/
inductive Operation where
  | insert (offset : Int) (block : Text)
  | compose (correction : Bool) (offset : Int) (prototypes : List Text)
  | origin (line : Int)
  | markerCount (offset : Int)
  | segmentHolding (offset : Int)
  | lineNumberAt (offset : Int)
  | block (correction : Bool) (offset : Int) (prototypes : List Text)
  deriving DecidableEq, Repr

/-- What an operation answers. -/
inductive Answer where
  | inserted
  | text (t : Text)
  | origin (place : Option (Text × Int))
  | count (n : Nat)
  | segment (s : Option Segment)
  | line (n : Int)
  deriving DecidableEq, Repr

/-- The answer to a change that may be refused, and the buffer that is left.  A change
    that is refused leaves the buffer as it was. -/
def settle (b : Buffer) (answer : Buffer → Answer) :
    Except Refusal Buffer → Except Refusal Answer × Buffer
  | .ok c => (.ok (answer c), c)
  | .error refusal => (.error refusal, b)

/-- The answer of an operation, and the buffer that it leaves. -/
def perform (b : Buffer) : Operation → Except Refusal Answer × Buffer
  | .insert offset block => b.settle (fun _ => .inserted) (b.insert offset block)
  | .compose correction offset prototypes =>
    b.settle (.text ·.text) (b.compose correction offset prototypes)
  | .origin line => (.ok (.origin (b.origin line)), b)
  | .markerCount offset => (.ok (.count (b.markerCount offset)), b)
  | .segmentHolding offset => (.ok (.segment (b.segmentHolding offset)), b)
  | .lineNumberAt offset => (.ok (.line (b.lineNumberAt offset)), b)
  | .block correction offset prototypes => (.ok (.text (b.block correction offset prototypes)), b)

/-- The buffer after some operations. -/
def after (b : Buffer) (ops : List Operation) : Buffer :=
  ops.foldl (fun c op => (c.perform op).2) b

/-- Where an operation puts a block in, if it is one that does.  Composing without
    declarations is not. -/
def Operation.place? : Operation → Option Int
  | .insert offset _ => some offset
  | .compose _ offset prototypes => if prototypes.isEmpty then none else some offset
  | _ => none

/-- The block that an operation puts into a buffer. -/
def blockOf (b : Buffer) : Operation → Text
  | .insert _ block => block
  | .compose correction offset prototypes => b.block correction offset prototypes
  | _ => []

/-- The position lies in the text or at its end. -/
def Inside (b : Buffer) (offset : Int) : Prop :=
  0 ≤ offset ∧ offset ≤ b.text.length

/-- The buffer with its insertion made. -/
def withBlock (b : Buffer) (offset : Int) (block : Text) : Buffer :=
  { b with
    text := b.text.take offset.toNat ++ block ++ b.text.drop offset.toNat
    composed := true }

/-- The operation puts a block into the buffer and is not refused. -/
def Inserts (b : Buffer) (op : Operation) : Prop :=
  op.place?.isSome = true ∧ ∃ answer, (b.perform op).1 = .ok answer

/-- One of the operations has put a block into the buffer. -/
def HasTaken (b : Buffer) (ops : List Operation) : Prop :=
  ∃ before op later, ops = before ++ op :: later ∧ (b.after before).Inserts op

-- ── One operation ───────────────────────────────────────────────────────────

theorem insert_of_composed {b : Buffer} (h : b.composed = true) (offset : Int) (block : Text) :
    b.insert offset block = .error .alreadyComposed := by
  rw [insert, if_pos h]

theorem insert_of_fresh {b : Buffer} (h : b.composed = false) (offset : Int) (block : Text) :
    b.insert offset block = if 0 ≤ offset && offset ≤ b.text.length
      then .ok (b.withBlock offset block) else .error (.outside offset b.text.length) := by
  rw [insert, h, if_neg Bool.false_ne_true]
  rfl

theorem block_ne_nil (b : Buffer) (correction : Bool) (offset : Int) {prototypes : List Text}
    (h : prototypes ≠ []) : b.block correction offset prototypes ≠ [] := by
  rw [block, if_neg (fun hnil => h (List.isEmpty_iff.mp hnil))]
  -- even a declaration of no glyphs is a line
  exact List.append_ne_nil_of_left_ne_nil (List.append_ne_nil_of_right_ne_nil _ (by decide)) _

theorem compose_nil (b : Buffer) (correction : Bool) (offset : Int) :
    b.compose correction offset [] = .ok b := rfl

theorem compose_eq_insert (b : Buffer) (correction : Bool) (offset : Int) {prototypes : List Text}
    (h : prototypes ≠ []) :
    b.compose correction offset prototypes
      = b.insert offset (b.block correction offset prototypes) := by
  rw [compose, if_neg (fun hnil => b.block_ne_nil correction offset h (List.isEmpty_iff.mp hnil))]

/-- The ways in which an operation can end. -/
inductive Performs (b : Buffer) (op : Operation) : Except Refusal Answer × Buffer → Prop
  | answered (hplace : op.place? = none) (answer : Answer) : Performs b op (.ok answer, b)
  | refused {o : Int} (hplace : op.place? = some o) (hcomposed : b.composed = true) :
      Performs b op (.error .alreadyComposed, b)
  | missed {o : Int} (hplace : op.place? = some o) (hfresh : b.composed = false)
      (hout : ¬ b.Inside o) : Performs b op (.error (.outside o b.text.length), b)
  | inserted {o : Int} (hplace : op.place? = some o) (hfresh : b.composed = false)
      (hin : b.Inside o) (answer : Answer) :
      Performs b op (.ok answer, b.withBlock o (b.blockOf op))

/-- An insertion that is settled ends in one of three ways. -/
theorem performs_insertion (b : Buffer) (op : Operation) {o : Int} (hplace : op.place? = some o)
    (answer : Buffer → Answer) :
    Performs b op (b.settle answer (b.insert o (b.blockOf op))) := by
  cases hcomposed : b.composed with
  | true =>
      rw [insert_of_composed hcomposed]
      exact .refused hplace hcomposed
  | false =>
      rw [insert_of_fresh hcomposed]
      by_cases hin : b.Inside o
      · rw [if_pos (by rw [decide_eq_true hin.1, decide_eq_true hin.2]; rfl)]
        exact .inserted hplace hcomposed hin _
      · rw [if_neg (fun h => hin ((Bool.and_eq_true _ _ ▸ h).imp of_decide_eq_true
          of_decide_eq_true))]
        exact .missed hplace hcomposed hin

/-- **WHAT AN OPERATION CAN COME TO.** -/
theorem perform_performs (b : Buffer) (op : Operation) : Performs b op (b.perform op) := by
  cases op with
  | insert offset block => exact performs_insertion b (.insert offset block) rfl _
  | compose correction offset prototypes =>
      rw [perform]
      cases prototypes with
      | nil =>
          rw [compose_nil]
          exact .answered rfl _
      | cons first rest =>
          rw [compose_eq_insert b correction offset (List.cons_ne_nil first rest)]
          exact performs_insertion b (.compose correction offset (first :: rest)) rfl _
  | origin line => exact .answered rfl _
  | markerCount offset => exact .answered rfl _
  | segmentHolding offset => exact .answered rfl _
  | lineNumberAt offset => exact .answered rfl _
  | block correction offset prototypes => exact .answered rfl _

/-- An operation that changes the buffer finds it fresh and leaves it composed. -/
theorem composed_of_changed {b : Buffer} {op : Operation} (h : (b.perform op).2 ≠ b) :
    b.composed = false ∧ (b.perform op).2.composed = true := by
  have hway := b.perform_performs op
  generalize b.perform op = outcome at h hway
  cases hway with
  | answered => exact absurd rfl h
  | refused => exact absurd rfl h
  | missed => exact absurd rfl h
  | inserted hplace hfresh => exact ⟨hfresh, rfl⟩

/-- A buffer that has taken its insertion is left alone. -/
theorem perform_of_composed {b : Buffer} (h : b.composed = true) (op : Operation) :
    (b.perform op).2 = b := by
  have hway := b.perform_performs op
  generalize b.perform op = outcome at hway
  cases hway with
  | answered => rfl
  | refused => rfl
  | missed => rfl
  | inserted _ hfresh => cases h.symm.trans hfresh

/-- An operation on a fresh buffer makes its insertion, or leaves the buffer alone. -/
theorem perform_of_fresh {b : Buffer} (h : b.composed = false) (op : Operation) :
    (∃ o, op.place? = some o ∧ b.Inside o ∧ b.Inserts op
      ∧ (b.perform op).2 = b.withBlock o (b.blockOf op))
    ∨ ¬ b.Inserts op ∧ (b.perform op).2 = b := by
  have hway := b.perform_performs op
  rw [Inserts]
  generalize b.perform op = outcome at hway
  cases hway with
  | answered hnone =>
      refine .inr ⟨?_, rfl⟩
      rintro ⟨hplace, -⟩
      rw [hnone] at hplace
      cases hplace
  | refused _ hcomposed => cases hcomposed.symm.trans h
  | missed =>
      refine .inr ⟨?_, rfl⟩
      rintro ⟨-, answer, hanswer⟩
      cases hanswer
  | inserted hplace _ hin answer =>
      exact .inl ⟨_, hplace, hin, ⟨by rw [hplace]; rfl, answer, rfl⟩, rfl⟩

/-- An insertion that succeeds changes the buffer, be its block empty. -/
theorem changed_of_inserts {b : Buffer} {op : Operation} (h : b.Inserts op) :
    (b.perform op).2 ≠ b := by
  obtain ⟨hplace, answer, hanswer⟩ := h
  have hway := b.perform_performs op
  generalize b.perform op = outcome at hanswer hway
  cases hway with
  | answered hnone =>
      rw [hnone] at hplace
      cases hplace
  | refused => cases hanswer
  | missed => cases hanswer
  | inserted _ hfresh =>
      intro hsame
      have hcomposed : b.composed = true := congrArg Buffer.composed hsame.symm
      cases hcomposed.symm.trans hfresh

-- ── A run of operations ─────────────────────────────────────────────────────

theorem after_cons (b : Buffer) (op : Operation) (ops : List Operation) :
    b.after (op :: ops) = (b.perform op).2.after ops := rfl

theorem after_append (b : Buffer) (ops later : List Operation) :
    b.after (ops ++ later) = (b.after ops).after later :=
  List.foldl_append ..

/-- A buffer that has taken its insertion is changed no more. -/
theorem after_of_composed {b : Buffer} (h : b.composed = true) (ops : List Operation) :
    b.after ops = b := by
  induction ops with
  | nil => rfl
  | cons op ops ih => rw [after_cons, perform_of_composed h, ih]

/-- A run on a fresh buffer changes nothing, or one of its operations meets the buffer
    as it was at first and makes the insertion. -/
theorem after_cases {b : Buffer} (hfresh : b.composed = false) (ops : List Operation) :
    (¬ b.HasTaken ops ∧ b.after ops = b) ∨
      ∃ before op later o, ops = before ++ op :: later ∧ op.place? = some o ∧ b.Inside o
        ∧ b.after before = b ∧ b.Inserts op ∧ b.after ops = b.withBlock o (b.blockOf op) := by
  induction ops with
  | nil =>
      refine .inl ⟨?_, rfl⟩
      rintro ⟨before, op, later, hsplit, -⟩
      exact absurd hsplit.symm (List.append_ne_nil_of_right_ne_nil _ (List.cons_ne_nil _ _))
  | cons op ops ih =>
      rw [after_cons]
      rcases perform_of_fresh hfresh op with ⟨o, hplace, hin, hinserts, hmade⟩ | ⟨hnot, hsame⟩
      · refine .inr ⟨[], op, ops, o, rfl, hplace, hin, rfl, hinserts, ?_⟩
        rw [hmade, after_of_composed rfl]
      · rw [hsame]
        rcases ih with ⟨hnone, hafter⟩ | ⟨before, op', later, o, rfl, hplace, hin, hbefore, hinserts,
          hafter⟩
        · refine .inl ⟨?_, hafter⟩
          rintro ⟨before, op', later, hsplit, hlater⟩
          rcases List.cons_eq_append_iff.mp hsplit with ⟨rfl, hcons⟩ | ⟨rest, rfl, hrest⟩
          · obtain ⟨rfl, -⟩ := List.cons.inj hcons
            exact hnot hlater
          · rw [after_cons, hsame] at hlater
            exact hnone ⟨rest, op', later, hrest, hlater⟩
        · refine .inr ⟨op :: before, op', later, o, rfl, hplace, hin, ?_, hinserts, hafter⟩
          rw [after_cons, hsame, hbefore]

/-- A fresh buffer is composed once an insertion has succeeded, and until then it is as
    it was at first. -/
theorem after_of_taken {b : Buffer} (hfresh : b.composed = false) {ops : List Operation}
    (h : b.HasTaken ops) : (b.after ops).composed = true := by
  rcases after_cases hfresh ops with ⟨hnone, -⟩ | ⟨_, _, _, _, _, _, _, _, _, hafter⟩
  · exact absurd h hnone
  · rw [hafter]
    rfl

theorem after_of_not_taken {b : Buffer} (hfresh : b.composed = false) {ops : List Operation}
    (h : ¬ b.HasTaken ops) : b.after ops = b := by
  rcases after_cases hfresh ops with ⟨-, hafter⟩ | ⟨before, op, later, _, hsplit, _, _, hbefore,
    hinserts, _⟩
  · exact hafter
  · exact absurd ⟨before, op, later, hsplit, hbefore.symm ▸ hinserts⟩ h

/-- When an operation that asks for an insertion is refused, and how. -/
theorem perform_error_iff {b : Buffer} (hfresh : b.composed = false) (before : List Operation)
    {op : Operation} {o : Int} (hplace : op.place? = some o) (refusal : Refusal) :
    ((b.after before).perform op).1 = .error refusal ↔
      refusal = .alreadyComposed ∧ b.HasTaken before
      ∨ refusal = .outside o b.text.length ∧ ¬ b.HasTaken before ∧ ¬ b.Inside o := by
  have hway := (b.after before).perform_performs op
  by_cases htaken : b.HasTaken before
  · have hcomposed := after_of_taken hfresh htaken
    generalize (b.after before).perform op = outcome at hway
    cases hway with
    | answered hnone => cases hplace.symm.trans hnone
    | refused =>
        constructor
        · exact fun h => .inl ⟨(Except.error.inj h).symm, htaken⟩
        · rintro (⟨rfl, -⟩ | ⟨-, hnot, -⟩)
          · rfl
          · exact absurd htaken hnot
    | missed _ hfresh' => cases hcomposed.symm.trans hfresh'
    | inserted _ hfresh' => cases hcomposed.symm.trans hfresh'
  · rw [after_of_not_taken hfresh htaken] at hway ⊢
    generalize b.perform op = outcome at hway
    cases hway with
    | answered hnone => cases hplace.symm.trans hnone
    | refused _ hcomposed => cases hcomposed.symm.trans hfresh
    | missed hplace' _ hout =>
        obtain rfl := Option.some.inj (hplace.symm.trans hplace')
        constructor
        · exact fun h => .inr ⟨(Except.error.inj h).symm, htaken, hout⟩
        · rintro (⟨-, hhas⟩ | ⟨rfl, -, -⟩)
          · exact absurd hhas htaken
          · rfl
    | inserted hplace' _ hin =>
        obtain rfl := Option.some.inj (hplace.symm.trans hplace')
        constructor
        · intro h
          cases h
        · rintro (⟨-, hhas⟩ | ⟨-, -, hout⟩)
          · exact absurd hhas htaken
          · exact absurd hin hout

/-- Behind an operation that changes the buffer no other does. -/
theorem perform_behind_change {b : Buffer} {before : List Operation} {op : Operation}
    (h : ((b.after before).perform op).2 ≠ b.after before) (between : List Operation)
    (op' : Operation) :
    ((b.after (before ++ op :: between)).perform op').2 = b.after (before ++ op :: between) := by
  have hcomposed := (composed_of_changed h).2
  rw [after_append, after_cons, after_of_composed hcomposed]
  exact perform_of_composed hcomposed op'

/-- Of two operations of a run that change the buffer, none comes before the other. -/
theorem changed_once {b : Buffer} {ops before before' later later' : List Operation}
    {op op' : Operation} (hsplit : ops = before ++ op :: later)
    (hsplit' : ops = before' ++ op' :: later')
    (h : ((b.after before).perform op).2 ≠ b.after before)
    (h' : ((b.after before').perform op').2 ≠ b.after before') : before = before' := by
  rcases around_order (hsplit.symm.trans hsplit') with ⟨hsame, -⟩ | ⟨mid, rfl⟩ | ⟨mid, rfl⟩
  · exact hsame
  · exact absurd (perform_behind_change h mid op') h'
  · exact absurd (perform_behind_change h' mid op) h

/-- **A BUFFER TAKES ONE INSERTION.**  Operations are performed in any order and number on
    a fresh buffer.  An operation that asks for an insertion is refused as composed exactly
    when an insertion has succeeded before it, and otherwise as outside exactly when its
    position is; a refused operation leaves the buffer as it was.  All other operations,
    composing without declarations among them, answer and leave the buffer as it was.  At
    most one operation changes the buffer, and in the end the text is the first one, or
    the first one with the block of the only insertion that succeeded. -/
theorem perform_inserts_once (text : Text) (segments : List Segment) (ops : List Operation) :
    let b : Buffer := { text, segments }
    (∀ before op later, ops = before ++ op :: later →
      let c := b.after before
      (∀ o, op.place? = some o → ∀ refusal, (c.perform op).1 = .error refusal ↔
          refusal = .alreadyComposed ∧ b.HasTaken before
          ∨ refusal = .outside o text.length ∧ ¬ b.HasTaken before
            ∧ ¬ (0 ≤ o ∧ o ≤ text.length))
      ∧ (∀ refusal, (c.perform op).1 = .error refusal → (c.perform op).2 = c)
      ∧ (op.place? = none → ∃ answer, c.perform op = (.ok answer, c)))
    ∧ (∀ before op later before' op' later', ops = before ++ op :: later →
        ops = before' ++ op' :: later' → ((b.after before).perform op).2 ≠ b.after before →
        ((b.after before').perform op').2 ≠ b.after before' → before = before')
    ∧ (¬ b.HasTaken ops ∧ b.after ops = b
      ∨ ∃ before op later, ∃ o : Int, ops = before ++ op :: later ∧ op.place? = some o
          ∧ 0 ≤ o ∧ o ≤ text.length ∧ b.after before = b ∧ b.Inserts op
          ∧ (∀ before' op' later', ops = before' ++ op' :: later' →
              (b.after before').Inserts op' → before' = before)
          ∧ b.after ops =
            { text := text.take o.toNat ++ b.blockOf op ++ text.drop o.toNat
              segments
              composed := true }) := by
  intro b
  have hfresh : b.composed = false := rfl
  refine ⟨?_, ?_, ?_⟩
  · intro before op later _ c
    refine ⟨fun o hplace refusal => perform_error_iff hfresh before hplace refusal, ?_, ?_⟩
    · intro refusal herror
      have hway := c.perform_performs op
      generalize c.perform op = outcome at hway herror
      cases hway with
      | answered => rfl
      | refused => rfl
      | missed => rfl
      | inserted => cases herror
    · intro hnone
      have hway := c.perform_performs op
      generalize c.perform op = outcome at hway
      cases hway with
      | answered _ answer => exact ⟨answer, rfl⟩
      | refused hplace => cases hplace.symm.trans hnone
      | missed hplace => cases hplace.symm.trans hnone
      | inserted hplace => cases hplace.symm.trans hnone
  · intro before op later before' op' later' hsplit hsplit' h h'
    exact changed_once hsplit hsplit' h h'
  · rcases after_cases hfresh ops with hnone | ⟨before, op, later, o, hsplit, hplace, hin, hbefore,
      hinserts, hafter⟩
    · exact .inl hnone
    · refine .inr ⟨before, op, later, o, hsplit, hplace, hin.1, hin.2, hbefore, hinserts, ?_, hafter⟩
      intro before' op' later' hsplit' hinserts'
      rw [← hbefore] at hinserts
      exact changed_once hsplit' hsplit (changed_of_inserts hinserts') (changed_of_inserts hinserts)

end SketchMerge.Buffer
