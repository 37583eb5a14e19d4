import ChangeFeed.Record.Coercion

/-!
# Row images

An image is an object with a member for each column. An absent member and a null one mean the
same.
-/

namespace ChangeFeed

/-- The columns of a row. -/
structure Image where
  members : List (String × Json)

namespace Image

/-- Takes an object as an image. -/
def ofJson : Json → Except DecodeError Image
  | .object members => .ok ⟨members⟩
  | v => .error (.notAnObject v.typeName)

/-- The value of a field that is there and not null. -/
def value? (image : Image) (field : String) : Option Json :=
  match Json.lookup? image.members field with
  | none => none
  | some .null => none
  | some v => some v

/-- A field's value under a coercion; a refusal names the field and shows the value. -/
def coerce (coercion : Json → Except Expected α) (field : String) (v : Json) :
    Except DecodeError α :=
  (coercion v).mapError fun expected => .invalidField field expected v.canonicalText

/-- A field that may be absent. -/
def optional (image : Image) (coercion : Json → Except Expected α) (field : String) :
    Except DecodeError (Option α) :=
  match image.value? field with
  | none => .ok none
  | some v => (coerce coercion field v).map some

/-- A field that has to be there. -/
def required (image : Image) (coercion : Json → Except Expected α) (field : String) :
    Except DecodeError α :=
  match image.value? field with
  | none => .error (.missingField field)
  | some v => coerce coercion field v

/-- An integer that has to be there. -/
def requiredInteger (image : Image) (field : String) : Except DecodeError Int64 :=
  image.required Coercion.integer field

/-- An integer, if there is one. -/
def integer (image : Image) (field : String) : Except DecodeError (Option Int64) :=
  image.optional Coercion.integer field

/-- A decimal, if there is one. -/
def decimal (image : Image) (field : String) : Except DecodeError (Option Binary64) :=
  image.optional Coercion.decimal field

/-- A timestamp, if there is one. -/
def timestamp (image : Image) (field : String) : Except DecodeError (Option Instant) :=
  image.optional Coercion.timestamp field

/-- A text, if there is one. -/
def text (image : Image) (field : String) : Except DecodeError (Option String) :=
  image.optional (fun v => .ok (Coercion.text v)) field

end Image

end ChangeFeed
