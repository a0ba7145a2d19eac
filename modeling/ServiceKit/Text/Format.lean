import ServiceKit.Text.Case
import ServiceKit.Text.Space

/-!
Texts brought into a wanted form.
-/

namespace ServiceKit

structure FormatOptions where
  trim : Bool := false
  lowercase : Bool := false
deriving DecidableEq, Repr, Inhabited

namespace Text

/-- White space at the ends is taken off first, then letters are put into lower case. -/
def format (o : FormatOptions) (s : Text) : Text :=
  let trimmed := if o.trim then trim s else s
  if o.lowercase then lower trimmed else trimmed

end Text

end ServiceKit
