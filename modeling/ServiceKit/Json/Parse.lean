import ServiceKit.Fault.Basic
import ServiceKit.Json.Shape

/-!
Decoding a text for a caller who wants an application error, or who wants to know no more than
whether there is a value.
-/

namespace ServiceKit.Json

/-- The error for a text that is not a document of the wanted shape. -/
def DecodeError.failure (e : DecodeError) : Failure :=
  (Fault.invalidFormat (utf8 "json") (utf8 "JSON value")).withCause (some e.message)

/-- The value of a text, nothing for a null, or the error. -/
def decodeText (shape : Shape) (s : Text) : Except Failure (Option shape.Carrier) :=
  (shape.decode s).mapError DecodeError.failure

/-- The value of a text, and nothing for a null and for a text that cannot be decoded. -/
def parseText (shape : Shape) (s : Text) : Option shape.Carrier :=
  match decodeText shape s with
  | .ok v => v
  | .error _ => none

end ServiceKit.Json
