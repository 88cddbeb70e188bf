import Sentential.Text.Basic

/-!
# Glyphs by name

The signs that are usual for the truth values of a display, each with a name under which a
configuration can refer to it.
-/

namespace Sentential

/-- The glyphs that have a name. -/
def glyphs : List (Text × Text) :=
  [("check", "✓"), ("cross", "✗"), ("top", "⊤"), ("bottom", "⊥"), ("one", "1"), ("zero", "0")].map
    fun entry => (entry.1.toList, entry.2.toList)

end Sentential
