import ServiceKit.Cli.Run
import Std.Time.DateTime

/-!
The program: what a run is given comes from the process, and what it writes goes to the standard
streams.
-/

namespace ServiceKit.Cli

def entryAt (path : Text) : IO (Except Text Config.Entry) := do
  match String.fromUTF8? ⟨path.toArray⟩ with
  | none => return .error (utf8 "no such file or directory")
  | some name =>
    try
      let content ← IO.FS.readBinFile name
      return .ok (.file content.toList)
    catch
      | .noFileOrDirectory .. => return .error (utf8 "no such file or directory")
      | .inappropriateType _ code _ =>
        return if code == 21 then .ok .directory else .error (utf8 "not a directory")
      | .permissionDenied .. => return .ok (.closed (utf8 "permission denied"))
      | e => return .ok (.closed (utf8 (toString e)))

def filesAt (paths : List Text) : IO Config.Files := do
  let entries ← paths.mapM fun path => do return (path, ← entryAt path)
  return fun path =>
    match entries.find? fun e => e.1 == path with
    | some (_, entry) => entry
    | none => .error (utf8 "no such file or directory")

def environmentNow : IO Environment := do
  try
    let bytes ← IO.FS.readBinFile "/proc/self/environ"
    return Environment.ofEntries (Text.split 0 bytes.toList)
  catch _ => return []

/-- All that a stream holds, or why it cannot be read. -/
def readAll (stream : IO.FS.Stream) : IO (Text × Option Text) := do
  let mut content := ByteArray.empty
  try
    repeat
      let chunk ← stream.read 65536
      if chunk.isEmpty then break
      content := content ++ chunk
    return (content.toList, none)
  catch e => return (content.toList, some (utf8 (toString e)))

/-- The time, at UTC. -/
def timeNow : IO Timestamp := do
  let t := Std.Time.DateTime.ofTimestampWithZone (← Std.Time.Timestamp.now) .UTC
  return {
    year := t.year.toInt.toNat, month := t.month.toNat, day := t.day.toNat
    hour := t.hour.toNat, minute := t.minute.toNat
    second := t.second.toNat, nanosecond := t.nanosecond.toNat
    zone := .utc }

/-- The names that lead from the root to the working directory. -/
def directoryNow : IO (Option (List Text)) := do
  try
    return some (Route.ofText (utf8 (← IO.currentDir).toString)).down
  catch _ => return none

/-- Text for a standard stream; notices go where errors go. -/
def put (w : Log.Write) : IO Unit := do
  let stream ← if w.stream = .stdout then IO.getStdout else IO.getStderr
  stream.write ⟨w.line.toArray⟩
  stream.flush

/-- Everything that a run writes. If standard output fails, the run is the one in which it does. -/
def putAll (s : Setup) (outcome : Outcome) : IO Outcome := do
  let mut done := 0
  for w in outcome.writes do
    try
      put w
      if w.stream != .stdout then done := done + 1
    catch e =>
      let outcome := run { s with outputError := some (utf8 (toString e)) }
      for w in (outcome.writes.filter (·.stream != .stdout)).drop done do
        put w
      return outcome
  return outcome

end ServiceKit.Cli

open ServiceKit ServiceKit.Cli in
def main (args : List String) : IO UInt32 := do
  let args := args.map utf8
  let stdout ← IO.getStdout
  let stderr ← IO.getStderr
  let onTerminal := (← stdout.isTty, ← stderr.isTty)
  let (input, inputError) ← if wantsInput args then readAll (← IO.getStdin) else pure ([], none)
  let setup : Setup := {
    args := args, input := input, inputError := inputError
    files := ← filesAt (pathsOf args), environment := ← environmentNow
    terminal := fun stream => if stream = .stdout then onTerminal.1 else onTerminal.2
    now := ← timeNow, directory := ← directoryNow }
  let outcome ← putAll setup (run setup)
  return outcome.exit.code.toUInt32
