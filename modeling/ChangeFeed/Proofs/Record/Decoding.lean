import ChangeFeed.Proofs.Result
import ChangeFeed.Record.Codec

/-!
# What a decoded record holds

A record of a kind is decoded from an object that its row is read from
(`Kind.decode_eq_ok_iff`), and a row is read exactly when each of its columns is
(`Customer.ofImage_eq_ok_iff` and its siblings). So what holds of every value that a coercion lets
through holds of the fields of every decoded record: its decimals are finite
(`Record.isFinite_of_decode`), and its timestamps were read as such
(`Record.exists_timestamp_of_decode`).

A key that is read alone is the one that its row would be read with (`Kind.decodeKey_of_decode`),
and where it is refused, so is the row (`Kind.decode_of_decodeKey_error`).
-/

namespace ChangeFeed

/-! ## Columns -/

/-- The value of a field is that of a member that is there and not null. -/
theorem Image.value?_eq_some_iff {image : Image} {field : String} {v : Json} :
    image.value? field = some v ↔ Json.lookup? image.members field = some v ∧ v ≠ .null := by
  unfold value?
  split
  · next h => simp [h]
  · next h => simp [h, eq_comm]
  · next v' hnull h =>
    have hne : v' ≠ .null := fun h => hnull h
    rw [h]
    constructor
    · rintro ⟨⟩
      exact ⟨rfl, hne⟩
    · exact And.left

/-- An optional column that is there comes from a value that its coercion lets through. -/
theorem Image.exists_of_optional {α : Type} {image : Image} {coercion : Json → Except Expected α}
    {field : String} {a : α} (h : image.optional coercion field = .ok (some a)) :
    ∃ v, coercion v = .ok a := by
  unfold optional at h
  split at h
  · cases h
  · next v _ =>
    unfold coerce at h
    cases hv : coercion v with
    | error e =>
      rw [hv] at h
      cases h
    | ok b =>
      rw [hv] at h
      cases h
      exact ⟨v, hv⟩

/-- A value that is taken as a decimal is finite. -/
theorem Coercion.isFinite_of_decimal {v : Json} {x : Binary64} (h : decimal v = .ok x) :
    x.isFinite = true := by
  unfold decimal at h
  cases hv : (decimal? v).filter Binary64.isFinite with
  | none =>
    rw [hv] at h
    cases h
  | some y =>
    rw [hv] at h
    cases h
    exact (Option.filter_eq_some_iff.1 hv).2

/-! ## Rows -/

variable {image : Image}

/-- A customer is decoded just if each of its columns is read. -/
theorem Customer.ofImage_eq_ok_iff {row : Customer} :
    ofImage image = .ok row ↔
      image.requiredInteger "id" = .ok row.id ∧ image.text "name" = .ok row.name ∧
      image.text "email" = .ok row.email ∧ image.text "city" = .ok row.city := by
  obtain ⟨id, name, email, city⟩ := row
  simp only [ofImage, bind_eq_ok_iff]
  constructor
  · rintro ⟨_, h1, _, h2, _, h3, _, h4, h⟩
    cases h
    exact ⟨h1, h2, h3, h4⟩
  · rintro ⟨h1, h2, h3, h4⟩
    exact ⟨_, h1, _, h2, _, h3, _, h4, rfl⟩

/-- A product is decoded just if each of its columns is read. -/
theorem Product.ofImage_eq_ok_iff {row : Product} :
    ofImage image = .ok row ↔
      image.requiredInteger "id" = .ok row.id ∧ image.text "name" = .ok row.name ∧
      image.decimal "price" = .ok row.price ∧ image.integer "stock" = .ok row.stock := by
  obtain ⟨id, name, price, stock⟩ := row
  simp only [ofImage, bind_eq_ok_iff]
  constructor
  · rintro ⟨_, h1, _, h2, _, h3, _, h4, h⟩
    cases h
    exact ⟨h1, h2, h3, h4⟩
  · rintro ⟨h1, h2, h3, h4⟩
    exact ⟨_, h1, _, h2, _, h3, _, h4, rfl⟩

/-- An order is decoded just if each of its columns is read. -/
theorem Order.ofImage_eq_ok_iff {row : Order} :
    ofImage image = .ok row ↔
      image.requiredInteger "id" = .ok row.id ∧
      image.requiredInteger "customer_id" = .ok row.customerId ∧
      image.text "status" = .ok row.status ∧ image.decimal "total" = .ok row.total ∧
      image.timestamp "order_date" = .ok row.orderDate := by
  obtain ⟨id, customerId, status, total, orderDate⟩ := row
  simp only [ofImage, bind_eq_ok_iff]
  constructor
  · rintro ⟨_, h1, _, h2, _, h3, _, h4, _, h5, h⟩
    cases h
    exact ⟨h1, h2, h3, h4, h5⟩
  · rintro ⟨h1, h2, h3, h4, h5⟩
    exact ⟨_, h1, _, h2, _, h3, _, h4, _, h5, rfl⟩

/-- An item of an order is decoded just if each of its columns is read. -/
theorem OrderItem.ofImage_eq_ok_iff {row : OrderItem} :
    ofImage image = .ok row ↔
      image.requiredInteger "id" = .ok row.id ∧
      image.requiredInteger "order_id" = .ok row.orderId ∧
      image.integer "product_id" = .ok row.productId ∧
      image.integer "quantity" = .ok row.quantity ∧
      image.decimal "unit_price" = .ok row.unitPrice := by
  obtain ⟨id, orderId, productId, quantity, unitPrice⟩ := row
  simp only [ofImage, bind_eq_ok_iff]
  constructor
  · rintro ⟨_, h1, _, h2, _, h3, _, h4, _, h5, h⟩
    cases h
    exact ⟨h1, h2, h3, h4, h5⟩
  · rintro ⟨h1, h2, h3, h4, h5⟩
    exact ⟨_, h1, _, h2, _, h3, _, h4, _, h5, rfl⟩

/-! ## Records -/

/-- The row of a record is read from an image. -/
def Record.IsReadFrom (image : Image) : Record → Prop
  | .customer row => Customer.ofImage image = .ok row
  | .product row => Product.ofImage image = .ok row
  | .order row => Order.ofImage image = .ok row
  | .orderItem row => OrderItem.ofImage image = .ok row

namespace Kind

variable {kind : Kind} {v : Json} {record : Record}

/-- A record of a kind is decoded from an object that its row is read from. -/
theorem decode_eq_ok_iff :
    kind.decode v = .ok record ↔
      record.kind = kind ∧ ∃ image, Image.ofJson v = .ok image ∧ record.IsReadFrom image := by
  constructor
  · intro h
    obtain ⟨image, hv, himage⟩ := bind_eq_ok_iff.1 h
    -- Each kind reads its own row and makes a record of it.
    cases kind with
    | customer =>
      obtain ⟨row, hrow, rfl⟩ := map_eq_ok_iff.1 himage
      exact ⟨rfl, image, hv, hrow⟩
    | product =>
      obtain ⟨row, hrow, rfl⟩ := map_eq_ok_iff.1 himage
      exact ⟨rfl, image, hv, hrow⟩
    | order =>
      obtain ⟨row, hrow, rfl⟩ := map_eq_ok_iff.1 himage
      exact ⟨rfl, image, hv, hrow⟩
    | orderItem =>
      obtain ⟨row, hrow, rfl⟩ := map_eq_ok_iff.1 himage
      exact ⟨rfl, image, hv, hrow⟩
  · rintro ⟨rfl, image, hv, hread⟩
    refine bind_eq_ok_iff.2 ⟨image, hv, ?_⟩
    cases record with
    | customer row => exact map_eq_ok_iff.2 ⟨row, hread, rfl⟩
    | product row => exact map_eq_ok_iff.2 ⟨row, hread, rfl⟩
    | order row => exact map_eq_ok_iff.2 ⟨row, hread, rfl⟩
    | orderItem row => exact map_eq_ok_iff.2 ⟨row, hread, rfl⟩

/-- An image of a kind is read as a record of that kind. -/
theorem kind_of_decode (h : kind.decode v = .ok record) : record.kind = kind :=
  (decode_eq_ok_iff.1 h).1

/-- The key of an image that is read is that of its record. -/
theorem decodeKey_of_decode (h : kind.decode v = .ok record) :
    kind.decodeKey v = .ok record.key := by
  obtain ⟨rfl, image, hv, hread⟩ := decode_eq_ok_iff.1 h
  refine bind_eq_ok_iff.2 ⟨image, hv, ?_⟩
  cases record with
  | customer row => exact (Customer.ofImage_eq_ok_iff.1 hread).1
  | product row => exact (Product.ofImage_eq_ok_iff.1 hread).1
  | order row => exact (Order.ofImage_eq_ok_iff.1 hread).1
  | orderItem row => exact (OrderItem.ofImage_eq_ok_iff.1 hread).1

/-- An image whose key is refused is refused for the same reason, as every kind reads the key
first. -/
theorem decode_of_decodeKey_error {e : DecodeError} (h : kind.decodeKey v = .error e) :
    kind.decode v = .error e := by
  unfold decodeKey at h
  unfold decode
  cases hv : Image.ofJson v with
  | error e' =>
    rw [hv] at h
    cases h
    rfl
  | ok image =>
    rw [hv] at h
    have hkey : image.requiredInteger "id" = .error e := h
    show kind.ofImage image = .error e
    cases kind with
    | customer => simp only [ofImage, Customer.ofImage, hkey]; rfl
    | product => simp only [ofImage, Product.ofImage, hkey]; rfl
    | order => simp only [ofImage, Order.ofImage, hkey]; rfl
    | orderItem => simp only [ofImage, OrderItem.ofImage, hkey]; rfl

end Kind

namespace Record

/-- The decimals that a record holds. -/
def decimals : Record → List Binary64
  | .customer _ => []
  | .product r => r.price.toList
  | .order r => r.total.toList
  | .orderItem r => r.unitPrice.toList

/-- The timestamps that a record holds. -/
def instants : Record → List Instant
  | .order r => r.orderDate.toList
  | _ => []

variable {kind : Kind} {v : Json} {record : Record}

/-- Every decimal of a decoded record is finite. -/
theorem isFinite_of_decode (h : kind.decode v = .ok record) :
    ∀ x ∈ record.decimals, x.isFinite = true := by
  have column : ∀ {image : Image} {field : String} {x? : Option Binary64},
      image.decimal field = .ok x? → ∀ x ∈ x?.toList, x.isFinite = true := by
    intro image field x? hcolumn x hx
    rw [Option.mem_toList.1 hx] at hcolumn
    obtain ⟨v, hv⟩ := Image.exists_of_optional hcolumn
    exact Coercion.isFinite_of_decimal hv
  obtain ⟨-, image, -, hread⟩ := Kind.decode_eq_ok_iff.1 h
  cases record with
  | customer row => exact fun x hx => absurd hx List.not_mem_nil
  | product row => exact column (Product.ofImage_eq_ok_iff.1 hread).2.2.1
  | order row => exact column (Order.ofImage_eq_ok_iff.1 hread).2.2.2.1
  | orderItem row => exact column (OrderItem.ofImage_eq_ok_iff.1 hread).2.2.2.2

/-- Every timestamp of a decoded record was read as one. -/
theorem exists_timestamp_of_decode (h : kind.decode v = .ok record) :
    ∀ t ∈ record.instants, ∃ column, Coercion.timestamp column = .ok t := by
  intro t ht
  obtain ⟨-, image, -, hread⟩ := Kind.decode_eq_ok_iff.1 h
  cases record with
  | order row =>
    have hdate := (Order.ofImage_eq_ok_iff.1 hread).2.2.2.2
    rw [Option.mem_toList.1 ht] at hdate
    exact Image.exists_of_optional hdate
  | _ => exact absurd ht List.not_mem_nil

end Record

end ChangeFeed
