import ChangeFeed.Proofs.Instant.RoundTrip
import ChangeFeed.Proofs.Record.Decoding

/-!
# Decoding a record that was written

`Record.toJson` writes each field so that its own column reads it back: what is absent as null
(`Image.optional_ofOption`), integers as whole numbers, texts as strings, decimals as floats, which
are finite in a decoded record, and timestamps as texts. So a decoded record is decoded from what it
is written as, and so is its key (`Kind.decode_toJson`).
-/

namespace ChangeFeed

open Text

/-! ## Values -/

namespace Coercion

/-- An integer is read back. -/
theorem integer_ofInt64 (n : Int64) : integer (.ofInt64 n) = .ok n := by
  have hread : integer? (.ofInt64 n) = some n := toInt64?_eq_some_iff.2 rfl
  unfold integer
  rw [hread]
  rfl

/-- A finite decimal is written as a number and read back. -/
theorem decimal_ofBinary64 {x : Binary64} (h : x.isFinite = true) :
    Json.ofBinary64 x ≠ .null ∧ decimal (.ofBinary64 x) = .ok x := by
  have hwrite : Json.ofBinary64 x = .number (.float x) := if_pos h
  rw [hwrite]
  refine ⟨(fun h => nomatch h), ?_⟩
  unfold decimal
  rw [show decimal? (.number (.float x)) = some x from rfl, Option.filter_some_pos h]
  rfl

/-- A timestamp is read back where its text is. -/
theorem timestamp_ofInstant {t : Instant} (h : Instant.read? t.chars = some t) :
    timestamp (.ofInstant t) = .ok t := by
  unfold timestamp Json.ofInstant Instant.text
  dsimp only
  rw [String.toList_ofList, h]
  rfl

end Coercion

/-! ## Columns -/

namespace Image

variable {image : Image} {field : String} {α : Type} {coercion : Json → Except Expected α}

/-- An optional field is read back where its value is; what is absent is written as null. -/
theorem optional_ofOption {write : α → Json} {a? : Option α}
    (hmember : Json.lookup? image.members field = some (.ofOption write a?))
    (hread : ∀ a ∈ a?, write a ≠ .null ∧ coercion (write a) = .ok a) :
    image.optional coercion field = .ok a? := by
  unfold optional
  cases a? with
  | none =>
    have hvalue : image.value? field = none := by
      unfold value?
      rw [hmember]
      rfl
    rw [hvalue]
  | some a =>
    obtain ⟨hnull, ha⟩ := hread a rfl
    rw [value?_eq_some_iff.2 ⟨hmember, hnull⟩]
    show ((coercion (write a)).mapError _).map some = _
    rw [ha]
    rfl

/-- An integer that has to be there. -/
theorem requiredInteger_ofInt64 {n : Int64}
    (hmember : Json.lookup? image.members field = some (.ofInt64 n)) :
    image.requiredInteger field = .ok n := by
  unfold requiredInteger required coerce
  rw [value?_eq_some_iff.2 ⟨hmember, fun h => nomatch h⟩]
  dsimp only
  rw [Coercion.integer_ofInt64]
  rfl

/-- An optional integer. -/
theorem integer_ofOption {n? : Option Int64}
    (hmember : Json.lookup? image.members field = some (.ofOption .ofInt64 n?)) :
    image.integer field = .ok n? :=
  optional_ofOption hmember fun n _ => ⟨(fun h => nomatch h), Coercion.integer_ofInt64 n⟩

/-- An optional text. -/
theorem text_ofOption {s? : Option String}
    (hmember : Json.lookup? image.members field = some (.ofOption .string s?)) :
    image.text field = .ok s? :=
  optional_ofOption hmember fun _ _ => ⟨(fun h => nomatch h), rfl⟩

/-- An optional decimal. -/
theorem decimal_ofOption {x? : Option Binary64}
    (hmember : Json.lookup? image.members field = some (.ofOption .ofBinary64 x?))
    (hfinite : ∀ x ∈ x?.toList, x.isFinite = true) : image.decimal field = .ok x? :=
  optional_ofOption hmember fun x hx =>
    Coercion.decimal_ofBinary64 (hfinite x (Option.mem_toList.2 hx))

/-- An optional timestamp. -/
theorem timestamp_ofOption {t? : Option Instant}
    (hmember : Json.lookup? image.members field = some (.ofOption .ofInstant t?))
    (hread : ∀ t ∈ t?.toList, Instant.read? t.chars = some t) : image.timestamp field = .ok t? :=
  optional_ofOption hmember fun t ht =>
    ⟨(fun h => nomatch h), Coercion.timestamp_ofInstant (hread t (Option.mem_toList.2 ht))⟩

end Image

/-! ## Records -/

/-- A record is read from what it is written as, where its decimals are finite and the texts of its
timestamps are read. -/
theorem Record.decode_toJson {record : Record}
    (hfinite : ∀ x ∈ record.decimals, x.isFinite = true)
    (hread : ∀ t ∈ record.instants, Instant.read? t.chars = some t) :
    record.kind.decode record.toJson = .ok record := by
  rw [Kind.decode_eq_ok_iff]
  cases record with
  | customer row =>
    exact ⟨rfl, _, rfl, Customer.ofImage_eq_ok_iff.2 ⟨Image.requiredInteger_ofInt64 rfl,
      Image.text_ofOption rfl, Image.text_ofOption rfl, Image.text_ofOption rfl⟩⟩
  | product row =>
    exact ⟨rfl, _, rfl, Product.ofImage_eq_ok_iff.2 ⟨Image.requiredInteger_ofInt64 rfl,
      Image.text_ofOption rfl, Image.decimal_ofOption rfl hfinite, Image.integer_ofOption rfl⟩⟩
  | order row =>
    exact ⟨rfl, _, rfl, Order.ofImage_eq_ok_iff.2 ⟨Image.requiredInteger_ofInt64 rfl,
      Image.requiredInteger_ofInt64 rfl, Image.text_ofOption rfl,
      Image.decimal_ofOption rfl hfinite, Image.timestamp_ofOption rfl hread⟩⟩
  | orderItem row =>
    exact ⟨rfl, _, rfl, OrderItem.ofImage_eq_ok_iff.2 ⟨Image.requiredInteger_ofInt64 rfl,
      Image.requiredInteger_ofInt64 rfl, Image.integer_ofOption rfl, Image.integer_ofOption rfl,
      Image.decimal_ofOption rfl hfinite⟩⟩

/-- A record that was decoded, from whatever image, is decoded again from what it is written as, if
the year of its timestamp, if any, has four digits. So is its key. -/
theorem Kind.decode_toJson_of_decode {kind : Kind} {v : Json} {record : Record}
    (h : kind.decode v = .ok record)
    (hyears : ∀ t ∈ record.instants,
      0 ≤ (Date.ofDayNumber t.day).year ∧ (Date.ofDayNumber t.day).year ≤ 9999) :
    kind.decode record.toJson = .ok record ∧
      kind.decodeKey record.toJson = .ok record.key := by
  have hread : ∀ t ∈ record.instants, Instant.read? t.chars = some t := by
    intro t ht
    obtain ⟨column, hcolumn⟩ := Record.exists_timestamp_of_decode h t ht
    have hclock := Instant.isOnClock_of_timestamp hcolumn
    exact Instant.read?_chars hclock (hyears t ht).1 (hyears t ht).2
  have hagain : kind.decode record.toJson = .ok record := by
    have := Record.decode_toJson (Record.isFinite_of_decode h) hread
    rwa [kind_of_decode h] at this
  exact ⟨hagain, decodeKey_of_decode hagain⟩

/-- An order from a leap second that was written in another zone. -/
theorem Kind.decode_toJson_of_decode_leap_second :
    let v : Json := .object [("id", .string " 7.0 "), ("customer_id", .string "3"),
      ("status", .null), ("total", .string "-12.50"),
      ("order_date", .string "2016-12-31T18:59:60.25-05:00")]
    let record : Record := .order
      ⟨7, 3, none, some (.ofDecimal true 125 (-1)), some ⟨17166, 86399, 1250000000⟩⟩
    (Kind.order.decode v = .ok record ∧ ∀ t ∈ record.instants,
      0 ≤ (Date.ofDayNumber t.day).year ∧ (Date.ofDayNumber t.day).year ≤ 9999) ∧
      Kind.order.decode record.toJson = .ok record ∧
      Kind.order.decodeKey record.toJson = .ok 7 := by
  intro v record
  have h : Kind.order.decode v = .ok record := by decide +kernel +zetaReduce
  have hyears : ∀ t ∈ record.instants,
      0 ≤ (Date.ofDayNumber t.day).year ∧ (Date.ofDayNumber t.day).year ≤ 9999 := by
    decide +kernel +zetaReduce
  exact ⟨⟨h, hyears⟩, decode_toJson_of_decode h hyears⟩

end ChangeFeed
