import ChangeFeed.Instant.Printer
import ChangeFeed.Record.Basic
import ChangeFeed.Record.Image

/-!
# Records as row images

`Kind.decode` reads a record from an image, field by field in the order of declaration, and stops
at the first field that is missing or refused. `Record.toJson` writes a record as an object of its
fields in the same order, with null for what is absent.
-/

namespace ChangeFeed

/-- Reads a customer. -/
def Customer.ofImage (image : Image) : Except DecodeError Customer := do
  let id ← image.requiredInteger "id"
  let name ← image.text "name"
  let email ← image.text "email"
  let city ← image.text "city"
  return { id, name, email, city }

/-- Reads a product. -/
def Product.ofImage (image : Image) : Except DecodeError Product := do
  let id ← image.requiredInteger "id"
  let name ← image.text "name"
  let price ← image.decimal "price"
  let stock ← image.integer "stock"
  return { id, name, price, stock }

/-- Reads an order. -/
def Order.ofImage (image : Image) : Except DecodeError Order := do
  let id ← image.requiredInteger "id"
  let customerId ← image.requiredInteger "customer_id"
  let status ← image.text "status"
  let total ← image.decimal "total"
  let orderDate ← image.timestamp "order_date"
  return { id, customerId, status, total, orderDate }

/-- Reads an order item. -/
def OrderItem.ofImage (image : Image) : Except DecodeError OrderItem := do
  let id ← image.requiredInteger "id"
  let orderId ← image.requiredInteger "order_id"
  let productId ← image.integer "product_id"
  let quantity ← image.integer "quantity"
  let unitPrice ← image.decimal "unit_price"
  return { id, orderId, productId, quantity, unitPrice }

namespace Kind

/-- Reads a record of the kind from an image. -/
def ofImage (kind : Kind) (image : Image) : Except DecodeError Record :=
  match kind with
  | .customer => (Customer.ofImage image).map .customer
  | .product => (Product.ofImage image).map .product
  | .order => (Order.ofImage image).map .order
  | .orderItem => (OrderItem.ofImage image).map .orderItem

/-- Reads a record of the kind from a value. -/
def decode (kind : Kind) (v : Json) : Except DecodeError Record :=
  Image.ofJson v >>= kind.ofImage

/-- Reads only the key, which every kind keeps in the same field. -/
def decodeKey (_kind : Kind) (v : Json) : Except DecodeError Int64 :=
  Image.ofJson v >>= (·.requiredInteger "id")

end Kind

/-- An optional field, null when absent. -/
def Json.ofOption (write : α → Json) : Option α → Json
  | none => .null
  | some a => write a

/-- A timestamp as a string. -/
def Json.ofInstant (t : Instant) : Json :=
  .string t.text

namespace Record

/-- A record as an object of its fields. -/
def toJson : Record → Json
  | .customer r => .object [
      ("id", .ofInt64 r.id),
      ("name", .ofOption .string r.name),
      ("email", .ofOption .string r.email),
      ("city", .ofOption .string r.city)]
  | .product r => .object [
      ("id", .ofInt64 r.id),
      ("name", .ofOption .string r.name),
      ("price", .ofOption .ofBinary64 r.price),
      ("stock", .ofOption .ofInt64 r.stock)]
  | .order r => .object [
      ("id", .ofInt64 r.id),
      ("customer_id", .ofInt64 r.customerId),
      ("status", .ofOption .string r.status),
      ("total", .ofOption .ofBinary64 r.total),
      ("order_date", .ofOption .ofInstant r.orderDate)]
  | .orderItem r => .object [
      ("id", .ofInt64 r.id),
      ("order_id", .ofInt64 r.orderId),
      ("product_id", .ofOption .ofInt64 r.productId),
      ("quantity", .ofOption .ofInt64 r.quantity),
      ("unit_price", .ofOption .ofBinary64 r.unitPrice)]

/-- A record as compact text. -/
def text (r : Record) : String :=
  r.toJson.text

end Record

end ChangeFeed
