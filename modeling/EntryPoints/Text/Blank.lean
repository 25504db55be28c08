import EntryPoints.Text.Ranges

/-!
# Blanks

The characters that separate words: the ASCII blanks, the separators of the
information-interchange controls, the next-line control, and the Unicode space,
line and paragraph separators.
-/

namespace EntryPoints.Text

def blankRanges : Ranges := [
  (0x9, 0xd), (0x1c, 0x20), (0x85, 0x85), (0xa0, 0xa0), (0x1680, 0x1680), (0x2000, 0x200a),
   (0x2028, 0x2029), (0x202f, 0x202f), (0x205f, 0x205f), (0x3000, 0x3000)]

def isBlank (c : Char) : Bool := blankRanges.has c

end EntryPoints.Text
