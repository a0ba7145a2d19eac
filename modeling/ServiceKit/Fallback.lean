/-!
Values that may be unset.
-/

namespace ServiceKit.Fallback

variable {α : Type}

/-- The first value that is not the default one, and the default if there is none. -/
def coalesce [BEq α] [Inhabited α] (values : List α) : α :=
  (values.find? fun v => v != default).getD default

def deref [Inhabited α] (v : Option α) : α := v.getD default

end ServiceKit.Fallback
