import ServiceKit.Fault.Store

/-!
Errors under names. Several names may stand for one error, and what is done with it under one of them is
seen under all.
-/

namespace ServiceKit.Fault

/-- A store, and what each name stands for. -/
structure Session where
  store : Store := {}
  names : Keyed (Option Ref) := []

/-- An event with names as its operands, and the name for the error that it yields. -/
structure Command where
  event : Event Text
  into : Option Text := none

namespace Session

/-- The error that a name stands for; a name that was never given stands for none. -/
def ref? (s : Session) (name : Text) : Option Ref := (s.names.find? name).join

/-- The session after a command, and the error that the command yields. -/
def step (s : Session) (c : Command) : Session × Option Ref :=
  let (store, r) := s.store.step (c.event.map s.ref?)
  match c.into with
  | some name => (⟨store, s.names.put name r⟩, r)
  | none => ({ s with store := store }, r)

def run (s : Session) (commands : List Command) : Session :=
  commands.foldl (fun s c => (s.step c).1) s

end Session

end ServiceKit.Fault
