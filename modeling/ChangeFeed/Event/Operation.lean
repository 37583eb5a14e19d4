/-!
# Row operations
-/

namespace ChangeFeed

/-- What happened to a row. A snapshot read is a row found by an initial scan. -/
inductive Operation where
  | insert
  | update
  | delete
  | snapshotRead
deriving DecidableEq

namespace Operation

/-- The code on the wire. -/
def code : Operation → String
  | .insert => "c"
  | .update => "u"
  | .delete => "d"
  | .snapshotRead => "r"

/-- The operation with a code. -/
def ofCode? : String → Option Operation
  | "c" => some .insert
  | "u" => some .update
  | "d" => some .delete
  | "r" => some .snapshotRead
  | _ => none

/-- The name of an operation. -/
def name : Operation → String
  | .insert => "insert"
  | .update => "update"
  | .delete => "delete"
  | .snapshotRead => "snapshot_read"

/-- Whether the operation writes the row; otherwise it removes it. -/
def isUpsert : Operation → Bool
  | .delete => false
  | _ => true

/-- The code of an operation stands for it. -/
theorem ofCode?_code (op : Operation) : ofCode? op.code = some op := by
  cases op <;> rfl

end Operation

end ChangeFeed
