/-!
# Entity kinds

The four kinds of records, the collection that each is stored in, and the tables that feed it.
-/

namespace ChangeFeed

/-- A kind of record. -/
inductive Kind where
  | customer
  | product
  | order
  | orderItem
deriving DecidableEq

namespace Kind

/-- Every kind, in the order they are tried. -/
def all : List Kind :=
  [.customer, .product, .order, .orderItem]

/-- The collection that records of the kind are stored in. -/
def collection : Kind → String
  | .customer => "customers"
  | .product => "products"
  | .order => "orders"
  | .orderItem => "order_items"

/-- Every kind, in the order of the names of their collections. -/
def byCollection : List Kind :=
  [.customer, .orderItem, .order, .product]

/-- The kind in lower case with underscores. -/
def label : Kind → String
  | .customer => "customer"
  | .product => "product"
  | .order => "order"
  | .orderItem => "order_item"

/-- The tables that feed the kind without any alias. -/
def tableNames : Kind → List String
  | .customer => ["customers", "customer"]
  | .product => ["products", "product"]
  | .order => ["orders", "order"]
  | .orderItem => ["order_items", "order_item", "orderitems", "orderitem"]

/-- The kind stored in a collection. -/
def ofCollection? (collection : String) : Option Kind :=
  all.find? fun kind => kind.collection = collection

/-- The collection of a kind stands for it. -/
theorem ofCollection?_collection (kind : Kind) : ofCollection? kind.collection = some kind := by
  cases kind <;> decide

end Kind

end ChangeFeed
