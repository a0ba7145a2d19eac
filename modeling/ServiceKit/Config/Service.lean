import ServiceKit.Check.Record
import ServiceKit.Log.Config
import ServiceKit.Text.Format

/-!
The configuration of a service.
-/

namespace ServiceKit.Config

structure ServiceConfig where
  name : Text := []
  environment : Text := []
  debug : Bool := false
  logging : Log.Config := {}
  format : FormatOptions := {}
deriving DecidableEq, Repr

namespace ServiceConfig

/-- Empty texts are replaced by defaults; with `debug`, the level that is filled in is a lower
one. -/
def withDefaults (c : ServiceConfig) : ServiceConfig :=
  { c with
    environment := Log.Config.filled c.environment (utf8 "development")
    logging := { c.logging with
      level := if c.debug then Log.Config.filled c.logging.level (utf8 "debug")
        else c.logging.level }.withDefaults }

def nameField : Check.Field where
  name := utf8 "Name"
  tag := utf8 "mapstructure:\"name\" validate:\"required\""

def environmentField : Check.Field where
  name := utf8 "Environment"
  tag := utf8 "mapstructure:\"environment\" validate:\"oneof=development staging production\""

/-- What the configuration has to satisfy, as the tags of its fields. -/
def rules (c : ServiceConfig) : Check.Subject :=
  .record (utf8 "ServiceConfig")
    [(nameField, .string c.name), (environmentField, .string c.environment)]

/-- The error of a configuration, if there is one. Its tags use no tests but those that are spelled
out. -/
def problem? (c : ServiceConfig) : Option Failure :=
  match Check.validate (fun _ => none) c.rules with
  | .ok (some f) => some f
  | _ => c.logging.problem?

end ServiceConfig

end ServiceKit.Config
