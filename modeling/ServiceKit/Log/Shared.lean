import ServiceKit.Log.Logger

/-!
The logger that all parts of a program share.
-/

namespace ServiceKit.Log

abbrev Shared := Option Logger

namespace Shared

/-- A shared logger for a configuration, which gets its defaults first. -/
def ofConfig (c : Config) : Shared := some (.standard c.withDefaults [])

/-- The shared logger as it is asked for, and as it is kept from then on: if there is none yet, it is
one that nothing is configured for. -/
def get (s : Shared) : Logger × Shared :=
  let l := s.getD (.fallback [])
  (l, some l)

end Shared

end ServiceKit.Log
