import LivePage.Pattern.Places
import LivePage.Pattern.Reader
import LivePage.Pattern.Weight

/-!
# Patterns as texts

A text is a pattern if it can be read as one, and if that one is not too large.
-/

namespace LivePage

namespace Pattern

/-- The pattern that a text spells. -/
def parse? (text : String) : Option Pattern :=
  (read? text.toList).bind fun p => if p.fits then some p else none

end Pattern

end LivePage
