import SketchMerge.Text.Glyph

/-! # Blanks

    The white space of Unicode together with the four information separators.
    Trimming, cutting into words and the blank runs of a sketch all use this one
    class; a surrogate is never blank. -/

namespace SketchMerge

/-- White space, from the tab to the ideographic space.  The zero width space
    and the byte order mark are not in it. -/
def Glyph.isBlank : Glyph → Bool
  | .char c =>
    let n := c.toNat
    (9 ≤ n && n ≤ 13) || (28 ≤ n && n ≤ 32) || n == 0x85 || n == 0xA0 || n == 0x1680
      || (0x2000 ≤ n && n ≤ 0x200A) || n == 0x2028 || n == 0x2029 || n == 0x202F
      || n == 0x205F || n == 0x3000
  | .surrogate _ => false

namespace Text

/-- The text without the blanks at its start. -/
def trimStart (t : Text) : Text :=
  t.dropWhile Glyph.isBlank

/-- The text without the glyphs at its end that satisfy `p`. -/
def dropEndWhile (p : Glyph → Bool) (t : Text) : Text :=
  (t.reverse.dropWhile p).reverse

/-- The text without the blanks at its ends. -/
def trim (t : Text) : Text :=
  dropEndWhile Glyph.isBlank (trimStart t)

/-- The text holds nothing but blanks. -/
def isBlank (t : Text) : Bool :=
  t.all Glyph.isBlank

/-- The maximal runs of glyphs that are not blank. -/
def words (t : Text) : List Text :=
  (splitAtEach Glyph.isBlank t).filter (!·.isEmpty)

end Text

end SketchMerge
