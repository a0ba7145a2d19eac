import ServiceKit.Fault.Basic
import ServiceKit.Storage
import ServiceKit.Text.Space

/-!
Checks of single values that collect what fails, and one error for all of it. An error that is handed out
shares the storage of the collector, which goes on to write into it.
-/

namespace ServiceKit.Check

structure FieldError where
  field : Text
  message : Text
deriving DecidableEq, Repr, Inhabited

namespace FieldError

def toJson (e : FieldError) : Detail :=
  .object [(utf8 "field", .string e.field), (utf8 "message", .string e.message)]

def text (e : FieldError) : Text := e.field ++ utf8 ": " ++ e.message

/-- The message of an error for a list of failures. -/
def summary (errors : List FieldError) : Text := Text.join (utf8 "; ") (errors.map text)

/-- A list of failures as a detail of an error. -/
def listed (errors : List FieldError) : Detail := .array (errors.map toJson)

def failure (errors : List FieldError) : Failure :=
  (Fault.validation (summary errors)).withDetail (utf8 "fields") (listed errors)

/-- No error for no failures. -/
def failure? : List FieldError → Option Failure
  | [] => none
  | errors => some (failure errors)

end FieldError

/-- A check of one value, or a failure that is found elsewhere. -/
inductive Probe where
  | required (field value : Text)
  | maxCount (field : Text) (values : List Text) (max : Int)
  | oneOf (field value : Text) (allowed : List Text)
  | custom (condition : Bool) (field message : Text)
  | addError (field message : Text)

namespace Probe

def failure? : Probe → Option FieldError
  | required field value =>
    if value.trim.isEmpty then some ⟨field, utf8 "is required"⟩ else none
  | maxCount field values max =>
    if max < values.length then
      some ⟨field, utf8 "accepts at most " ++ Number.integer max ++ utf8 " value(s), got "
        ++ Number.decimal values.length⟩
    else none
  | oneOf field value allowed =>
    if value.isEmpty || allowed.contains value then none
    else some ⟨field, utf8 "must be one of: " ++ Text.join (utf8 ", ") allowed⟩
  | custom condition field message => if condition then none else some ⟨field, message⟩
  | addError field message => some ⟨field, message⟩

end Probe

/-- An error that was handed out for collected failures. The message is its own; the failures that it
lists are read from the storage in which the collector has put them. -/
structure Verdict where
  message : Text
  fields : Span

/-- What an error is as long as the storage is in some state. -/
def Verdict.failure (v : Verdict) (s : Storage FieldError) : Failure :=
  (Fault.validation v.message).withDetail (utf8 "fields") (FieldError.listed (s.read v.fields))

/-- The failures found so far, in the order in which they were found. -/
structure Collector where
  storage : Storage FieldError := {}
  held : Span := {}
  holds : storage.Holds held := by exact ⟨Nat.zero_lt_one, Nat.zero_le _⟩

inductive Call where
  | probe (p : Probe)
  | validate

namespace Collector

def errors (c : Collector) : List FieldError := c.storage.read c.held

def add (c : Collector) (e : FieldError) : Collector :=
  ⟨(c.storage.push c.held e).1, (c.storage.push c.held e).2, c.holds.push e⟩

def probe (c : Collector) (p : Probe) : Collector :=
  match p.failure? with
  | some e => c.add e
  | none => c

def hasErrors (c : Collector) : Bool := 0 < c.held.length

/-- The error for everything found so far, as it is handed out. -/
def validate (c : Collector) : Option Verdict :=
  if c.hasErrors then some ⟨FieldError.summary c.errors, c.held⟩ else none

/-- The error for everything found so far, as it is now. -/
def verdict (c : Collector) : Option Failure := c.validate.map (·.failure c.storage)

/-- The collector after a call, and the error that the call hands out. -/
def step (c : Collector) : Call → Collector × Option Verdict
  | .probe p => (c.probe p, none)
  | .validate => (c, c.validate)

def run (c : Collector) (calls : List Call) : Collector :=
  calls.foldl (fun c call => (c.step call).1) c

end Collector

end ServiceKit.Check
