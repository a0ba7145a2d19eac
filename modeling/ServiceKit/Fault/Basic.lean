import ServiceKit.Json.Writer
import ServiceKit.Number.Numeral

/-!
Application errors: a code for programs, a message for people, details, and a cause that is never
shown to clients.
-/

namespace ServiceKit

/-- What a detail of an error may be. -/
abbrev Detail := Json Number.Numeral

/-- An application error whose cause is of type `κ`. Details that are absent differ from details
that are empty. -/
structure Fault (κ : Type) where
  code : Text
  message : Text
  details : Option (Keyed Detail) := none
  cause : Option κ := none

/-- An error whose cause is known by its text alone. -/
abbrev Failure := Fault Text

namespace Fault

def invalidInputCode : Text := utf8 "INVALID_INPUT"

def missingFieldCode : Text := utf8 "MISSING_FIELD"

def invalidFormatCode : Text := utf8 "INVALID_FORMAT"

def internalCode : Text := utf8 "INTERNAL_ERROR"

def isInputCode (code : Text) : Bool :=
  code == invalidInputCode || code == missingFieldCode || code == invalidFormatCode

variable {κ : Type}

/-- An error about a value that was given, and about its field if it has a name. -/
def invalidInput (field reason : Text) : Fault κ where
  code := invalidInputCode
  message := utf8 "Invalid input: " ++ reason
  details := some (if field.isEmpty then [] else [(utf8 "field", .string field)])

/-- An error about the input with a message of its own. -/
def validation (message : Text) : Fault κ where
  code := invalidInputCode
  message := message

def missingField (field : Text) : Fault κ where
  code := missingFieldCode
  message := utf8 "Missing required field: " ++ field
  details := some [(utf8 "field", .string field)]

def invalidFormat (field expected : Text) : Fault κ where
  code := invalidFormatCode
  message := utf8 "Invalid format for " ++ field ++ utf8 ". Expected: " ++ expected
  details := some [(utf8 "expected_format", .string expected), (utf8 "field", .string field)]

/-- An error that the user can do nothing about. -/
def internal (cause : Option κ) : Fault κ where
  code := internalCode
  message := utf8 "An unexpected error occurred."
  cause := cause

def withCause (f : Fault κ) (cause : Option κ) : Fault κ := { f with cause := cause }

/-- Details are added key by key to those that are there. -/
def withDetails (f : Fault κ) (details : Keyed Detail) : Fault κ :=
  { f with details := some ((f.details.getD []).putAll details) }

def withDetail (f : Fault κ) (key : Text) (value : Detail) : Fault κ :=
  f.withDetails [(key, value)]

/-- The error in one line, given the texts of causes. -/
def text (causeText : κ → Text) (f : Fault κ) : Text :=
  f.code ++ utf8 ": " ++ f.message ++ (match f.cause with
    | none => []
    | some c => utf8 " (cause: " ++ causeText c ++ utf8 ")")

/-- The part of an error that clients see. -/
def toJson (f : Fault κ) : Detail :=
  .object ([(utf8 "code", .string f.code), (utf8 "message", .string f.message)]
    ++ (match f.details with
      | none | some [] => []
      | some ds => [(utf8 "details", .object ds)]))

/-- The public part as a document that may stand inside markup. -/
def document (f : Fault κ) : Text := f.toJson.write .markup Number.Numeral.jsonText

end Fault

def Failure.text (f : Failure) : Text := Fault.text id f

end ServiceKit
