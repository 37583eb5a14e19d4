/-!
# What is wrong with a JSON text
-/

namespace ChangeFeed.Json

/-- The first fault of a text that is not JSON. -/
inductive SyntaxError where
  | endInValue
  | endInString
  | endInList
  | endInObject
  | expectedValue
  | expectedIdent
  | invalidNumber
  | numberOutOfRange
  | expectedListComma
  | expectedObjectComma
  | expectedColon
  | keyNotString
  | trailingComma
  | trailingCharacters
  | controlCharacter
  | invalidEscape
  | endOfHexEscape
  | loneSurrogate
  | invalidCodePoint
  | tooDeep
deriving DecidableEq

/-- The wording of a fault. -/
def SyntaxError.message : SyntaxError → String
  | .endInValue => "EOF while parsing a value"
  | .endInString => "EOF while parsing a string"
  | .endInList => "EOF while parsing a list"
  | .endInObject => "EOF while parsing an object"
  | .expectedValue => "expected value"
  | .expectedIdent => "expected ident"
  | .invalidNumber => "invalid number"
  | .numberOutOfRange => "number out of range"
  | .expectedListComma => "expected \x60,\x60 or \x60]\x60"
  | .expectedObjectComma => "expected \x60,\x60 or \x60\x7d\x60"
  | .expectedColon => "expected \x60:\x60"
  | .keyNotString => "key must be a string"
  | .trailingComma => "trailing comma"
  | .trailingCharacters => "trailing characters"
  | .controlCharacter => "control character (\\u0000-\\u001F) found while parsing a string"
  | .invalidEscape => "invalid escape"
  | .endOfHexEscape => "unexpected end of hex escape"
  | .loneSurrogate => "lone leading surrogate in hex escape"
  | .invalidCodePoint => "invalid unicode code point"
  | .tooDeep => "recursion limit exceeded"

end ChangeFeed.Json
