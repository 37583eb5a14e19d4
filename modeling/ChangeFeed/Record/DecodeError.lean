import ChangeFeed.Json.SyntaxError

/-!
# Why an image or an envelope cannot be decoded
-/

namespace ChangeFeed

/-- What a column is expected to hold. -/
inductive Expected where
  | integer
  | decimal
  | timestamp
deriving DecidableEq

/-- The word for what is expected. -/
def Expected.word : Expected → String
  | .integer => "integer"
  | .decimal => "decimal"
  | .timestamp => "timestamp"

/-- Why a text is not an envelope. -/
inductive EnvelopeError where
  | notJson (fault : Json.SyntaxError)
  | noLayout
deriving DecidableEq

/-- The wording of an envelope's fault. -/
def EnvelopeError.message : EnvelopeError → String
  | .notJson fault => fault.message
  | .noLayout => "data did not match any variant of untagged enum CdcMessage"

/-- Why an image or its envelope cannot be decoded. -/
inductive DecodeError where
  /-- A required field is absent or null. -/
  | missingField (field : String)
  /-- A field holds a value, here as compact text, that cannot be converted. -/
  | invalidField (field : String) (expected : Expected) (found : String)
  /-- The image is a value of another type. -/
  | notAnObject (found : String)
  /-- The message is not an envelope. -/
  | envelope (fault : EnvelopeError)
deriving DecidableEq

/-- The wording of an error. -/
def DecodeError.message : DecodeError → String
  | .missingField field => "required field '" ++ field ++ "' is missing or null"
  | .invalidField field expected found =>
    "field '" ++ field ++ "' expected " ++ expected.word ++ ", found " ++ found
  | .notAnObject found => "row image must be an object, found " ++ found
  | .envelope fault => "invalid change event envelope: " ++ fault.message

end ChangeFeed
