import ChangeFeed.Binary64.Basic
import ChangeFeed.Instant.Basic
import ChangeFeed.Record.Kind

/-!
# Records

A typed row of each kind. Orders belong to a customer and order items to an order; the affinity of
a record names the parent whose partition it has to share.
-/

namespace ChangeFeed

/-- The place of a record: its kind and its key. -/
structure Affinity where
  kind : Kind
  key : Int64
deriving DecidableEq

/-- Collection and key, with a slash between them. -/
def Affinity.text (a : Affinity) : String :=
  a.kind.collection ++ "/" ++ toString a.key.toInt

/-- A customer. -/
structure Customer where
  id : Int64
  name : Option String
  email : Option String
  city : Option String
deriving DecidableEq

/-- A product. -/
structure Product where
  id : Int64
  name : Option String
  price : Option Binary64
  stock : Option Int64
deriving DecidableEq

/-- An order of a customer. -/
structure Order where
  id : Int64
  customerId : Int64
  status : Option String
  total : Option Binary64
  orderDate : Option Instant
deriving DecidableEq

/-- An item of an order. -/
structure OrderItem where
  id : Int64
  orderId : Int64
  productId : Option Int64
  quantity : Option Int64
  unitPrice : Option Binary64
deriving DecidableEq

/-- A record of any kind. -/
inductive Record where
  | customer (row : Customer)
  | product (row : Product)
  | order (row : Order)
  | orderItem (row : OrderItem)
deriving DecidableEq

namespace Record

/-- The kind of a record. -/
def kind : Record → Kind
  | .customer _ => .customer
  | .product _ => .product
  | .order _ => .order
  | .orderItem _ => .orderItem

/-- The key that a record is stored under. -/
def key : Record → Int64
  | .customer r => r.id
  | .product r => r.id
  | .order r => r.id
  | .orderItem r => r.id

/-- The parent whose partition a record shares. -/
def affinity : Record → Option Affinity
  | .customer _ => none
  | .product _ => none
  | .order r => some ⟨.customer, r.customerId⟩
  | .orderItem r => some ⟨.order, r.orderId⟩

end Record

end ChangeFeed
