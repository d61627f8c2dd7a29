import Mathlib.Algebra.Group.Nat.Defs
import Mathlib.Data.List.Induction
import Mathlib.Data.List.TakeDrop
import Mathlib.Data.List.TakeWhile
import SketchMerge.Number.Numeral

/-! # Decimal numerals

    The numeral of a number is a run of ASCII digits, and the digits read back
    to the number.  A numeral that is not too long is read as a whole: nothing in
    it is a margin, an underscore or a digit of another script, so
    `Numeral.readInt_ofInt` gives the number back.  And a number that was read has a
    numeral that is not too long (`Numeral.natAbs_lt_of_readInt`). -/

namespace SketchMerge

/-- The glyphs of the numeral of a natural number. -/
theorem Text.ofNat_eq_map (n : Nat) : Text.ofNat n = (Nat.toDigits 10 n).map Glyph.char := by
  rw [Text.ofNat, Text.ofString, Nat.toString_eq_repr, Nat.toList_repr]

theorem Text.ofInt_negSucc (n : Nat) :
    Text.ofInt (Int.negSucc n) = Glyph.char '-' :: Text.ofNat (n + 1) := by
  show Text.ofString ("-" ++ Nat.repr (n + 1)) = _
  rw [Text.ofString, String.toList_append, List.map_append]
  rfl

theorem Text.ofNat_ne_nil (n : Nat) : Text.ofNat n ≠ [] := by
  rw [Text.ofNat_eq_map]
  exact fun h => Nat.toDigits_ne_nil (List.map_eq_nil_iff.mp h)

/-- The number of an ASCII digit lies in the range of digits. -/
theorem Glyph.code_of_isDigit {c : Char} (h : c.isDigit = true) :
    0x30 ≤ (Glyph.char c).code ∧ (Glyph.char c).code ≤ 0x39 := by
  rw [Char.isDigit, Bool.and_eq_true, decide_eq_true_eq, decide_eq_true_eq] at h
  exact ⟨UInt32.le_iff_toNat_le.mp h.1, UInt32.le_iff_toNat_le.mp h.2⟩

/-- Every glyph of a numeral is an ASCII digit. -/
theorem Text.isAsciiDigit_of_mem_ofNat {n : Nat} {g : Glyph} (h : g ∈ Text.ofNat n) :
    g.isAsciiDigit = true := by
  rw [Text.ofNat_eq_map] at h
  obtain ⟨c, hc, rfl⟩ := List.mem_map.mp h
  obtain ⟨hlo, hhi⟩ := Glyph.code_of_isDigit
    (Nat.isDigit_of_mem_toDigits (by decide) (by decide) hc)
  rw [Glyph.isAsciiDigit, decide_eq_true hlo, decide_eq_true hhi]
  rfl

/-- The digits of a numeral read back to the number. -/
theorem Numeral.ofDigits_ofNat (n : Nat) :
    Numeral.ofDigits 10 ((Text.ofNat n).map fun g => g.code - 0x30) = n := by
  have hfold : ∀ (cs : List Char) (m : Nat),
      ((cs.map Glyph.char).map fun g => g.code - 0x30).foldl (fun n d => n * 10 + d) m
        = Nat.ofDigitChars 10 cs m := by
    intro cs
    induction cs with
    | nil => exact fun m => rfl
    | cons c cs ih =>
        intro m
        rw [Nat.ofDigitChars_cons, ← ih, Nat.mul_comm 10 m]
        rfl
  rw [Numeral.ofDigits, Text.ofNat_eq_map, hfold, Nat.ofDigitChars_ten_toDigits]

namespace Numeral

-- ── Reading a numeral ───────────────────────────────────────────────────────

/-- The value of an ASCII digit. -/
theorem digit?_of_isAsciiDigit {g : Glyph} (h : g.isAsciiDigit = true) :
    g.digit? = some (g.code - 0x30) := by
  rw [Glyph.isAsciiDigit, Bool.and_eq_true, decide_eq_true_eq, decide_eq_true_eq] at h
  cases g with
  | surrogate index =>
      rw [Glyph.code_surrogate] at h
      omega
  | char c =>
      rw [Glyph.code_char] at h
      rw [Glyph.digit?, if_pos (by omega), decide_eq_true h.1, decide_eq_true h.2]
      rfl

theorem code_lt_of_isAsciiDigit {g : Glyph} (h : g.isAsciiDigit = true) : g.code - 0x30 < 10 := by
  rw [Glyph.isAsciiDigit, Bool.and_eq_true, decide_eq_true_eq, decide_eq_true_eq] at h
  omega

/-- An ASCII digit is none of the other glyphs that have a part in numerals. -/
theorem ne_char_of_isAsciiDigit {g : Glyph} (h : g.isAsciiDigit = true) {c : Char}
    (hc : (Glyph.char c).isAsciiDigit = false) : g ≠ .char c := by
  rintro rfl
  rw [h] at hc
  exact nomatch hc

theorem isMargin_of_isAsciiDigit {g : Glyph} (h : g.isAsciiDigit = true) : isMargin g = false := by
  rw [Glyph.isAsciiDigit, Bool.and_eq_true, decide_eq_true_eq, decide_eq_true_eq] at h
  cases g with
  | surrogate index => rfl
  | char c =>
      rw [Glyph.code_char] at h
      rw [isMargin, Glyph.isBlank]
      grind

/-- ASCII digits are written in ASCII already. -/
theorem plainDigits_of_ascii {t : Text} (h : ∀ g ∈ t, g.isAsciiDigit = true) :
    plainDigits t = t := by
  rw [plainDigits]
  refine (List.map_congr_left fun g hg => ?_).trans (List.map_id' t)
  have hdigit := h g hg
  rw [digit?_of_isAsciiDigit hdigit]
  apply Glyph.code_injective
  rw [Glyph.code_char, Nat.toNat_digitChar_of_lt_ten (code_lt_of_isAsciiDigit hdigit)]
  rw [Glyph.isAsciiDigit, Bool.and_eq_true, decide_eq_true_eq, decide_eq_true_eq] at hdigit
  omega

/-- The value that a glyph has as a digit of base ten. -/
theorem decimal_of_isAsciiDigit {g : Glyph} (h : g.isAsciiDigit = true) :
    g.digitOrLetter?.filter (· < 10) = some (g.code - 0x30) := by
  rw [Glyph.digitOrLetter?, digit?_of_isAsciiDigit h, Option.filter_some,
    if_pos (decide_eq_true (code_lt_of_isAsciiDigit h))]

/-- A run of ASCII digits has the values of its digits. -/
theorem digitsFrom_of_ascii {t : Text} (h : ∀ g ∈ t, g.isAsciiDigit = true) {afterDigit : Bool}
    (hstart : afterDigit = true ∨ t ≠ []) :
    digitsFrom (fun g => g.digitOrLetter?.filter (· < 10)) afterDigit t
      = some (t.map fun g => g.code - 0x30) := by
  induction t generalizing afterDigit with
  | nil =>
      rcases hstart with rfl | hne
      · rfl
      · exact absurd rfl hne
  | cons g t ih =>
      have hg := h g (List.mem_cons_self ..)
      have hunderscore : g.is '_' = false :=
        beq_eq_false_iff_ne.mpr (ne_char_of_isAsciiDigit hg (by decide))
      rw [digitsFrom, hunderscore, if_neg Bool.false_ne_true, decimal_of_isAsciiDigit hg]
      dsimp only
      rw [ih (fun x hx => h x (List.mem_cons_of_mem _ hx)) (.inl rfl)]
      rfl

/-- What `readInt` does once the sign is off: a run of ASCII digits is read whole. -/
theorem span_of_ascii {t : Text} (h : ∀ g ∈ t, g.isAsciiDigit = true) :
    (dropBaseMark 10 t).span
      (fun g => g.is '_' || (g.digitOrLetter?.filter (· < 10)).isSome) = (t, []) := by
  have hall : ∀ g ∈ t, (g.is '_' || (g.digitOrLetter?.filter (· < 10)).isSome) = true := by
    intro g hg
    rw [decimal_of_isAsciiDigit (h g hg), Option.isSome_some, Bool.or_true]
  have hmark : dropBaseMark 10 t = t := rfl
  rw [hmark, List.span_eq_takeWhile_dropWhile, List.takeWhile_eq_self_iff.mpr hall,
    List.dropWhile_eq_nil_iff.mpr hall]

theorem takeSign_of_ascii {t : Text} (h : ∀ g ∈ t, g.isAsciiDigit = true) :
    takeSign t = (false, t) := by
  unfold takeSign
  split
  next => exact absurd rfl (ne_char_of_isAsciiDigit (h _ (List.mem_cons_self ..)) (by decide))
  next => exact absurd rfl (ne_char_of_isAsciiDigit (h _ (List.mem_cons_self ..)) (by decide))
  next => rfl

/-- A text that a sign and the numeral of a number make up reads as that number. -/
theorem readInt_of_sign {t : Text} (n : Nat) (negative : Bool) (hn : n < 10 ^ maxDigits)
    (hsign : takeSign (plainDigits (t.dropWhile isMargin)) = (negative, Text.ofNat n)) :
    readInt 10 t = .ok (if negative then -(n : Int) else n) := by
  have hdigits : ∀ g ∈ Text.ofNat n, g.isAsciiDigit = true :=
    fun g hg => Text.isAsciiDigit_of_mem_ofNat hg
  have hlength : ((Text.ofNat n).map fun g => g.code - 0x30).length ≤ maxDigits := by
    rw [List.length_map, Text.ofNat_eq_map, List.length_map]
    exact (Nat.length_toDigits_le_iff (by decide) (by decide)).mpr hn
  rw [readInt, hsign]
  dsimp only
  rw [span_of_ascii hdigits]
  dsimp only
  rw [digitsFrom_of_ascii hdigits (.inr (Text.ofNat_ne_nil n))]
  dsimp only
  rw [if_neg (by simpa using fun _ => hlength), if_neg (by simp), ofDigits_ofNat]

/-- **NUMERALS READ BACK**: the decimal numeral of an integer that is not too long. -/
theorem readInt_ofInt {n : Int} (hn : n.natAbs < 10 ^ maxDigits) :
    readInt 10 (Text.ofInt n) = .ok n := by
  have hdigits : ∀ m, ∀ g ∈ Text.ofNat m, g.isAsciiDigit = true :=
    fun m g hg => Text.isAsciiDigit_of_mem_ofNat hg
  cases n with
  | ofNat m =>
      have hmargin : (Text.ofNat m).dropWhile isMargin = Text.ofNat m := by
        cases h : Text.ofNat m with
        | nil => rfl
        | cons g t =>
            have hg : g ∈ Text.ofNat m := by
              rw [h]
              exact List.mem_cons_self ..
            refine List.dropWhile_cons_of_neg ?_
            rw [isMargin_of_isAsciiDigit (hdigits m g hg)]
            exact Bool.false_ne_true
      refine readInt_of_sign m false hn ?_
      show takeSign (plainDigits ((Text.ofNat m).dropWhile isMargin)) = _
      rw [hmargin, plainDigits_of_ascii (hdigits m), takeSign_of_ascii (hdigits m)]
  | negSucc m =>
      refine readInt_of_sign (m + 1) true hn ?_
      rw [Text.ofInt_negSucc, List.dropWhile_cons_of_neg (by decide), plainDigits, List.map_cons,
        ← plainDigits, plainDigits_of_ascii (hdigits (m + 1))]
      rfl

-- ── What is read can be written ─────────────────────────────────────────────

theorem lt_of_mem_digitsFrom {base : Nat} {afterDigit : Bool} {t : Text} {ds : List Nat}
    (h : digitsFrom (fun g => g.digitOrLetter?.filter (· < base)) afterDigit t = some ds) :
    ∀ d ∈ ds, d < base := by
  fun_induction digitsFrom _ afterDigit t generalizing ds with
  | case1 =>
      obtain rfl := Option.some.inj h
      exact fun _ hd => nomatch hd
  | case2 => exact nomatch h
  | case3 _ _ _ ih => exact ih h
  | case4 => exact nomatch h
  | case5 _ g rest _ d hvalue ih =>
      obtain ⟨ds, hrest, rfl⟩ := Option.map_eq_some_iff.mp h
      intro d' hd'
      rcases List.mem_cons.mp hd' with rfl | hd'
      · exact of_decide_eq_true (Option.filter_eq_some_iff.mp hvalue).2
      · exact ih hrest d' hd'
  | case6 => exact nomatch h

theorem ofDigits_lt {base : Nat} {ds : List Nat} (h : ∀ d ∈ ds, d < base) :
    ofDigits base ds < base ^ ds.length := by
  induction ds using List.reverseRecOn with
  | nil => exact Nat.one_pos
  | append_singleton ds d ih =>
      have hds := ih fun x hx => h x (List.mem_append_left _ hx)
      have hd := h d (List.mem_append_right _ (List.mem_singleton_self d))
      rw [ofDigits, List.foldl_append, List.foldl_cons, List.foldl_nil, ← ofDigits,
        List.length_append, List.length_singleton, Nat.pow_succ]
      calc ofDigits base ds * base + d
          < ofDigits base ds * base + base := Nat.add_lt_add_left hd _
        _ = (ofDigits base ds + 1) * base := (Nat.succ_mul _ _).symm
        _ ≤ base ^ ds.length * base := Nat.mul_le_mul_right base hds

theorem natAbs_lt_of_readInt {t : Text} {n : Int} (h : readInt 10 t = .ok n) :
    n.natAbs < 10 ^ maxDigits := by
  unfold readInt at h
  dsimp only at h
  split at h
  next => exact nomatch h
  next ds hdigits =>
    split at h
    next => exact nomatch h
    next hlength =>
      split at h
      next => exact nomatch h
      next =>
        have hlt := ofDigits_lt (lt_of_mem_digitsFrom hdigits)
        have hle : ds.length ≤ maxDigits := by
          simpa [baseLetter?] using hlength
        have hpow : 10 ^ ds.length ≤ 10 ^ maxDigits := Nat.pow_le_pow_right (by decide) hle
        have habs : n.natAbs = ofDigits 10 ds := by
          rw [← Except.ok.inj h]
          split <;> omega
        rw [habs]
        exact Nat.lt_of_lt_of_le hlt hpow

theorem writeInt_of_lt {n : Int} (h : n.natAbs < 10 ^ maxDigits) :
    writeInt n = .ok (Text.ofInt n) := by
  rw [writeInt, Nat.pow_eq, if_neg (Nat.not_le.mpr h)]

end Numeral

end SketchMerge
