import Mathlib.Data.List.Induction
import SketchMerge.Text.Lines
import SketchMerge.Text.Utf8

/-! # Bytes and texts

    ANY BYTES CAN BE READ AND WRITTEN BACK: a sequence that is well formed is that
    of the character it is read as, and every other byte is kept as it is.  A byte
    below `0x80` is part of no longer sequence, so what is done to the line ends of
    a text is done to the same bytes of its file. -/

namespace SketchMerge

namespace Utf8

-- ── The bytes of a character ────────────────────────────────────────────────

theorem val_ofNat {n : Nat} (h : n.isValidChar) : (Char.ofNat n).val.toNat = n := by
  rw [Char.ofNat, dif_pos h]
  rfl

theorem isTail_iff {b : UInt8} : isTail b = true ↔ 0x80 ≤ b.toNat ∧ b.toNat ≤ 0xBF := by
  rw [isTail, Bool.and_eq_true, decide_eq_true_iff, decide_eq_true_iff, UInt8.le_iff_toNat_le,
    UInt8.le_iff_toNat_le]
  rfl

/-- The second byte is a continuation, with a higher lower bound behind the least byte that
    starts such a sequence and a lower upper bound behind another. -/
theorem second_bounds {b t least other low high : UInt8} (hlow : 0x80 ≤ low.toNat)
    (hhigh : high.toNat ≤ 0xBF)
    (h : ((if b == least then low ≤ t else 0x80 ≤ t)
      && (if b == other then t ≤ high else t ≤ 0xBF) : Bool) = true) :
    0x80 ≤ t.toNat ∧ t.toNat ≤ 0xBF ∧ (b.toNat = least.toNat → low.toNat ≤ t.toNat) ∧
      (b.toNat = other.toNat → t.toNat ≤ high.toNat) := by
  rw [Bool.and_eq_true] at h
  obtain ⟨hbelow, habove⟩ := h
  have heq (n : UInt8) : b.toNat = n.toNat ↔ (b == n) = true := by
    rw [beq_iff_eq, UInt8.toNat_inj]
  rw [heq, heq]
  split at hbelow <;> split at habove <;>
    simp only [decide_eq_true_iff, UInt8.le_iff_toNat_le, UInt8.reduceToNat] at hbelow habove <;>
    grind

/-- The second byte of three: the number is neither smaller than three bytes are for nor that
    of a surrogate. -/
theorem isSecondOfThree_bounds {b t : UInt8} (h : isSecondOfThree b t = true) :
    0x80 ≤ t.toNat ∧ t.toNat ≤ 0xBF ∧ (b.toNat = 0xE0 → 0xA0 ≤ t.toNat) ∧
      (b.toNat = 0xED → t.toNat ≤ 0x9F) :=
  second_bounds (by decide) (by decide) h

/-- The second byte of four: the number is neither smaller than four bytes are for nor above
    the last one. -/
theorem isSecondOfFour_bounds {b t : UInt8} (h : isSecondOfFour b t = true) :
    0x80 ≤ t.toNat ∧ t.toNat ≤ 0xBF ∧ (b.toNat = 0xF0 → 0x90 ≤ t.toNat) ∧
      (b.toNat = 0xF4 → t.toNat ≤ 0x8F) :=
  second_bounds (by decide) (by decide) h

theorem ofNat_eq {n : Nat} {b : UInt8} (h : n = b.toNat) : UInt8.ofNat n = b := by
  rw [h, UInt8.ofNat_toNat]

theorem encodeChar_one {n : Nat} {b : UInt8} (hn : n ≤ 0x7F) (hb : n = b.toNat) :
    String.utf8EncodeChar (Char.ofNat n) = [b] := by
  simp only [String.utf8EncodeChar, val_ofNat (.inl (by omega) : n.isValidChar)]
  rw [if_pos hn, ofNat_eq hb]

theorem encodeChar_two {n : Nat} {b t : UInt8} (hlow : 0x7F < n) (hn : n ≤ 0x7FF)
    (hb : n / 64 % 32 + 192 = b.toNat) (ht : n % 64 + 128 = t.toNat) :
    String.utf8EncodeChar (Char.ofNat n) = [b, t] := by
  simp only [String.utf8EncodeChar, val_ofNat (.inl (by omega) : n.isValidChar)]
  rw [if_neg (by omega), if_pos hn, ofNat_eq hb, ofNat_eq ht]

theorem encodeChar_three {n : Nat} {b t u : UInt8} (hvalid : n.isValidChar) (hlow : 0x7FF < n)
    (hn : n ≤ 0xFFFF) (hb : n / 4096 % 16 + 224 = b.toNat) (ht : n / 64 % 64 + 128 = t.toNat)
    (hu : n % 64 + 128 = u.toNat) : String.utf8EncodeChar (Char.ofNat n) = [b, t, u] := by
  simp only [String.utf8EncodeChar, val_ofNat hvalid]
  rw [if_neg (by omega), if_neg (by omega), if_pos hn, ofNat_eq hb, ofNat_eq ht, ofNat_eq hu]

theorem encodeChar_four {n : Nat} {b t u v : UInt8} (hlow : 0xFFFF < n) (hn : n < 0x110000)
    (hb : n / 262144 % 8 + 240 = b.toNat) (ht : n / 4096 % 64 + 128 = t.toNat)
    (hu : n / 64 % 64 + 128 = u.toNat) (hv : n % 64 + 128 = v.toNat) :
    String.utf8EncodeChar (Char.ofNat n) = [b, t, u, v] := by
  simp only [String.utf8EncodeChar, val_ofNat (.inr ⟨by omega, hn⟩ : n.isValidChar)]
  rw [if_neg (by omega), if_neg (by omega), if_neg (by omega), ofNat_eq hb, ofNat_eq ht,
    ofNat_eq hu, ofNat_eq hv]

/-- `WellFormed b rest c more`: the byte `b` and the first `more` of the rest are the bytes of
    the character `c`. -/
inductive WellFormed : UInt8 → List UInt8 → Char → Nat → Prop
  | one {b : UInt8} {rest : List UInt8} (hb : b.toNat < 0x80) :
      WellFormed b rest (Char.ofNat b.toNat) 0
  | two {b t : UInt8} {rest : List UInt8} (hlow : 0xC2 ≤ b.toNat) (hhigh : b.toNat < 0xE0)
      (ht : isTail t = true) :
      WellFormed b (t :: rest) (Char.ofNat (b.toNat % 32 * 64 + tailBits t)) 1
  | three {b t u : UInt8} {rest : List UInt8} (hlow : 0xE0 ≤ b.toNat) (hhigh : b.toNat < 0xF0)
      (ht : isSecondOfThree b t = true) (hu : isTail u = true) :
      WellFormed b (t :: u :: rest)
        (Char.ofNat ((b.toNat % 16 * 64 + tailBits t) * 64 + tailBits u)) 2
  | four {b t u v : UInt8} {rest : List UInt8} (hlow : 0xF0 ≤ b.toNat) (hhigh : b.toNat < 0xF5)
      (ht : isSecondOfFour b t = true) (hu : isTail u = true) (hv : isTail v = true) :
      WellFormed b (t :: u :: v :: rest)
        (Char.ofNat (((b.toNat % 8 * 64 + tailBits t) * 64 + tailBits u) * 64 + tailBits v)) 3

/-- A character is read from a sequence that is well formed. -/
theorem wellFormed_of_front {b : UInt8} {rest : List UInt8} {c : Char} {more : Nat}
    (h : front b rest = .char c more) : WellFormed b rest c more := by
  have hlt {n : UInt8} (hn : b < n) : b.toNat < n.toNat := UInt8.lt_iff_toNat_lt.mp hn
  have hle {n : UInt8} (hn : ¬ b < n) : n.toNat ≤ b.toNat :=
    UInt8.le_iff_toNat_le.mp (UInt8.not_lt.mp hn)
  revert h
  -- four of the cases give a character, one for each number of bytes
  fun_cases front b rest <;> intro h <;> cases h
  next hb => exact .one (hlt hb)
  next hlow hhigh _ _ ht => exact .two (hle hlow) (hlt hhigh) ht
  next hlow hhigh _ _ _ ht hu =>
      exact .three (hle hlow) (hlt hhigh) (by simpa using ht) (by simpa using hu)
  next hlow hhigh _ _ _ _ ht hu hv =>
      exact .four (hle hlow) (hlt hhigh) (by simpa using ht) (by simpa using hu)
        (by simpa using hv)

/-- A character that is read has the bytes it is read from. -/
theorem encodeChar_of_front {b : UInt8} {rest : List UInt8} {c : Char} {more : Nat}
    (h : front b rest = .char c more) : String.utf8EncodeChar c = b :: rest.take more := by
  cases wellFormed_of_front h with
  | one hb => exact encodeChar_one (by omega) rfl
  | two hlow hhigh ht =>
      have ht := isTail_iff.mp ht
      refine encodeChar_two ?_ ?_ ?_ ?_ <;> simp only [tailBits] <;> omega
  | three hlow hhigh ht hu =>
      have ht := isSecondOfThree_bounds ht
      have hu := isTail_iff.mp hu
      refine encodeChar_three ?_ ?_ ?_ ?_ ?_ ?_ <;> simp only [tailBits, Nat.isValidChar] <;> omega
  | four hlow hhigh ht hu hv =>
      have ht := isSecondOfFour_bounds ht
      have hu := isTail_iff.mp hu
      have hv := isTail_iff.mp hv
      refine encodeChar_four ?_ ?_ ?_ ?_ ?_ ?_ <;> simp only [tailBits] <;> omega

theorem high_of_flaw {b : UInt8} {rest : List UInt8} {why : Flaw} {more : Nat}
    (h : front b rest = .flaw why more) : 0x80 ≤ b.toNat := by
  by_cases h80 : b < 0x80
  · rw [front.eq_def, if_pos h80] at h
    exact nomatch h
  · have : ¬ b.toNat < 0x80 := fun hlt => h80 (UInt8.lt_iff_toNat_lt.mpr hlt)
    omega

theorem encodeGlyph_surrogate (index : Fin 2048) :
    encodeGlyph (.surrogate index) =
      match (Glyph.surrogate index).byte? with
      | some b => [b]
      | none => threeBytes (Glyph.surrogate index).code := by
  rw [encodeGlyph.eq_def]
  cases (Glyph.surrogate index).byte? with
  | some b => rfl
  | none => rfl

theorem encodeGlyph_strayOf {b : UInt8} (hb : 0x80 ≤ b.toNat) : encodeGlyph (strayOf b) = [b] := by
  have hbyte : (strayOf b).byte? = some b := by
    rw [strayOf, Glyph.byte?_stray]
    have := b.toNat_lt
    exact congrArg some (ofNat_eq (by dsimp only; omega))
  rw [strayOf, Glyph.stray] at hbyte ⊢
  rw [encodeGlyph_surrogate, hbyte]

theorem encode_decodeAfter (skip : Nat) (bytes : List UInt8) :
    encode (decodeAfter skip bytes) = bytes.drop skip := by
  induction bytes generalizing skip with
  | nil =>
      rw [List.drop_nil]
      cases skip with
      | zero => rfl
      | succ skip => rfl
  | cons b rest ih =>
      cases skip with
      | succ skip => exact ih skip
      | zero =>
          rw [decodeAfter, List.drop_zero]
          split
          next c more hfront =>
              rw [encode_cons, ih]
              show String.utf8EncodeChar c ++ _ = _
              rw [encodeChar_of_front hfront, List.cons_append, List.take_append_drop]
          next why more hfront =>
              rw [encode_cons, ih, encodeGlyph_strayOf (high_of_flaw hfront)]
              rfl

/-- **ANY BYTES ARE WRITTEN BACK** as they were read. -/
theorem encode_decode (bytes : List UInt8) : encode (decode bytes) = bytes :=
  encode_decodeAfter 0 bytes

-- ── Small bytes ─────────────────────────────────────────────────────────────

theorem encodeGlyph_ne_nil (g : Glyph) : encodeGlyph g ≠ [] := by
  cases g with
  | char c =>
      intro h
      have hlength := congrArg List.length h
      rw [show encodeGlyph (.char c) = String.utf8EncodeChar c from rfl,
        String.length_utf8EncodeChar] at hlength
      exact absurd hlength (Nat.ne_of_gt c.utf8Size_pos)
  | surrogate index =>
      rw [encodeGlyph_surrogate]
      split
      · exact List.cons_ne_nil _ _
      · exact List.cons_ne_nil _ _

/-- A byte below `0x80` comes of the one character that has its number. -/
theorem eq_char_of_mem_encodeGlyph {g : Glyph} {b : UInt8} (hb : b.toNat < 0x80)
    (h : b ∈ encodeGlyph g) : g = .char (Char.ofNat b.toNat) := by
  have hhigh {n : Nat} (hn : n % 256 < 0x80 → False) : b ≠ UInt8.ofNat n := by
    rintro rfl
    rw [UInt8.toNat_ofNat'] at hb
    exact hn hb
  cases g with
  | char c =>
      change b ∈ String.utf8EncodeChar c at h
      simp only [String.utf8EncodeChar] at h
      split at h
      next hc =>
          rw [List.mem_singleton.mp h, UInt8.toNat_ofNat', Nat.mod_eq_of_lt (by omega)]
          exact congrArg Glyph.char c.ofNat_toNat.symm
      next hlow =>
      split at h
      next =>
          rw [List.mem_cons, List.mem_singleton] at h
          rcases h with h | h
          · exact absurd h (hhigh (by omega))
          · exact absurd h (hhigh (by omega))
      split at h
      next =>
          rw [List.mem_cons, List.mem_cons, List.mem_singleton] at h
          rcases h with h | h | h
          · exact absurd h (hhigh (by omega))
          · exact absurd h (hhigh (by omega))
          · exact absurd h (hhigh (by omega))
      next =>
          rw [List.mem_cons, List.mem_cons, List.mem_cons, List.mem_singleton] at h
          rcases h with h | h | h | h
          · exact absurd h (hhigh (by omega))
          · exact absurd h (hhigh (by omega))
          · exact absurd h (hhigh (by omega))
          · exact absurd h (hhigh (by omega))
  | surrogate index =>
      have hindex := index.isLt
      rw [encodeGlyph_surrogate] at h
      split at h
      next b' hbyte =>
          rw [Glyph.byte?] at hbyte
          split at hbyte
          next hrange =>
              rw [Bool.and_eq_true, decide_eq_true_iff, decide_eq_true_iff] at hrange
              rw [List.mem_singleton.mp h, ← Option.some.inj hbyte] at hhigh
              exact absurd rfl (hhigh (n := index.val - 0x400) (by omega))
          next => cases hbyte
      next =>
          rw [Glyph.code_surrogate, threeBytes, List.map_cons, List.map_cons, List.map_cons,
            List.map_nil, List.mem_cons, List.mem_cons, List.mem_singleton] at h
          rcases h with h | h | h
          · exact absurd h (hhigh (by omega))
          · exact absurd h (hhigh (by omega))
          · exact absurd h (hhigh (by omega))

end Utf8

-- ── Line ends of bytes ──────────────────────────────────────────────────────

namespace Bytes

/-- Every carriage return, alone or before a newline, becomes a newline. -/
def unifyNewlines : List UInt8 → List UInt8
  | 0x0D :: 0x0A :: rest => 0x0A :: unifyNewlines rest
  | 0x0D :: rest => 0x0A :: unifyNewlines rest
  | b :: rest => b :: unifyNewlines rest
  | [] => []

/-- The bytes with a newline at their end, unless there are none or they have one. -/
def closeLine (bytes : List UInt8) : List UInt8 :=
  if bytes = [] ∨ bytes.getLast? = some 0x0A then bytes else bytes ++ [0x0A]

/-- The bytes of a file as they stand in a merged one. -/
def normal (bytes : List UInt8) : List UInt8 :=
  closeLine (unifyNewlines bytes)

theorem unifyNewlines_other {b : UInt8} (hb : b ≠ 0x0D) (rest : List UInt8) :
    unifyNewlines (b :: rest) = b :: unifyNewlines rest := by
  rw [unifyNewlines]
  · exact fun _ h => absurd h hb
  · exact hb

theorem unifyNewlines_lone {rest : List UInt8} (h : rest.head? ≠ some 0x0A) :
    unifyNewlines (0x0D :: rest) = 0x0A :: unifyNewlines rest := by
  rw [unifyNewlines]
  rintro rest' rfl
  exact h rfl

theorem unifyNewlines_append {bytes : List UInt8} (h : 0x0D ∉ bytes) (rest : List UInt8) :
    unifyNewlines (bytes ++ rest) = bytes ++ unifyNewlines rest := by
  induction bytes with
  | nil => rfl
  | cons b bytes ih =>
      rw [List.cons_append, unifyNewlines_other (fun heq => h (heq ▸ List.mem_cons_self ..)),
        ih (fun hmem => h (List.mem_cons_of_mem _ hmem)), List.cons_append]

end Bytes

namespace Utf8

theorem head?_encode {t : Text} (h : t.head? ≠ some Glyph.newline) :
    (encode t).head? ≠ some 0x0A := by
  cases t with
  | nil => exact (nomatch ·)
  | cons g t =>
      intro hhead
      obtain ⟨b, bytes, hbytes⟩ := List.exists_cons_of_ne_nil (encodeGlyph_ne_nil g)
      rw [encode_cons, hbytes] at hhead
      have hmem : (0x0A : UInt8) ∈ encodeGlyph g := by
        rw [hbytes, Option.some.inj hhead]
        exact List.mem_cons_self ..
      exact h (congrArg some (eq_char_of_mem_encodeGlyph (by decide) hmem))

/-- Unifying the line ends of a text unifies those of its bytes. -/
theorem encode_unifyNewlines (t : Text) :
    encode t.unifyNewlines = Bytes.unifyNewlines (encode t) := by
  induction t using Text.unifyNewlines.induct with
  | case1 rest ih =>
      rw [Text.unifyNewlines, encode_cons, ih]
      rfl
  | case2 rest hnewline ih =>
      have hhead : rest.head? ≠ some Glyph.newline := by
        intro h
        obtain ⟨rest', rfl⟩ := List.head?_eq_some_iff.mp h
        exact hnewline rest' rfl
      rw [Text.unifyNewlines.eq_2 _ hnewline, encode_cons, encode_cons, ih]
      show _ = Bytes.unifyNewlines (0x0D :: encode rest)
      rw [Bytes.unifyNewlines_lone (head?_encode hhead)]
      rfl
  | case3 g rest hpair hreturn ih =>
      have hg : (0x0D : UInt8) ∉ encodeGlyph g :=
        fun hmem => hreturn (eq_char_of_mem_encodeGlyph (by decide) hmem)
      rw [Text.unifyNewlines.eq_3 _ _ hpair hreturn, encode_cons, encode_cons, ih,
        Bytes.unifyNewlines_append hg]
  | case4 => rfl

/-- Closing the last line of a text closes that of its bytes. -/
theorem encode_closeLine (t : Text) : encode t.closeLine = Bytes.closeLine (encode t) := by
  cases t using List.reverseRecOn with
  | nil => rfl
  | append_singleton init g =>
      have hne : encode (init ++ [g]) ≠ [] := by
        rw [encode_append, encode_cons]
        simp [encodeGlyph_ne_nil]
      have hlast : (encode (init ++ [g])).getLast? = some 0x0A ↔ g = Glyph.newline := by
        rw [encode_append, encode_cons, show encode [] = [] from rfl, List.append_nil,
          List.getLast?_append, List.getLast?_eq_some_getLast (encodeGlyph_ne_nil g),
          Option.some_or, ← List.getLast?_eq_some_getLast (encodeGlyph_ne_nil g)]
        constructor
        · exact fun h => eq_char_of_mem_encodeGlyph (by decide) (List.mem_of_getLast? h)
        · rintro rfl
          rfl
      rw [Text.closeLine, Bytes.closeLine, List.getLast?_concat]
      by_cases hg : g = Glyph.newline
      · rw [if_pos (by simp [hg]), if_pos (.inr (hlast.mpr hg))]
      · rw [if_neg (by simp [hg]), if_neg (not_or.mpr ⟨hne, fun h => hg (hlast.mp h)⟩),
          encode_append (init ++ [g])]
        rfl

/-- **A FILE IN A MERGED ONE**: what is read from bytes and closed is written as they are,
    up to their line ends. -/
theorem encode_normal (bytes : List UInt8) :
    encode (decode bytes).unifyNewlines.closeLine = Bytes.normal bytes := by
  rw [encode_closeLine, encode_unifyNewlines, encode_decode, Bytes.normal]

end Utf8

end SketchMerge
