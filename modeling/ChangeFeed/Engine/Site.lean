import ChangeFeed.Metrics.Recorder
import ChangeFeed.Store.Adapter

/-!
# Where an engine works

The state that an engine changes: the store, the calls it has made to the store, and the recorder.
-/

namespace ChangeFeed

/-- A call to a store. -/
inductive StoreCall where
  | put (kind : Kind) (key : Int64) (affinity : Option Affinity) (record : Record)
  | remove (kind : Kind) (key : Int64)
  | partitionOf (kind : Kind) (key : Int64)
deriving DecidableEq

/-- How a call to a store ends. -/
inductive CallEnd where
  | stored
  | removed (present : Bool)
  | placed (partition : Nat)
  | failed (error : StoreError)
  /-- The caller stopped waiting. -/
  | cancelled
deriving DecidableEq

/-- The end of a call with an answer, given what a value shows. -/
def CallEnd.ofAnswer (shown : α → CallEnd) : Except StoreError α → CallEnd
  | .ok a => shown a
  | .error e => .failed e

/-- A call with the time it was made at and its end. -/
structure CallNote where
  /-- Nanoseconds since the start. -/
  time : Nat
  call : StoreCall
  ending : CallEnd
deriving DecidableEq

/-- The state that an engine changes. -/
structure Site (σ : Type) where
  store : σ
  /-- The calls made, the oldest first. -/
  calls : List CallNote
  recorder : Recorder

namespace Site

/-- The site of an engine that has not done anything. -/
def new (store : σ) : Site σ :=
  ⟨store, [], .empty⟩

/-- Notes a call. -/
def note (site : Site σ) (store : σ) (now : Nat) (call : StoreCall) (ending : CallEnd) : Site σ :=
  { site with store := store, calls := site.calls ++ [⟨now, call, ending⟩] }

/-- The reply of the store to a call, with the call noted. -/
def reply (site : Site σ) (now : Nat) (call : StoreCall) (shown : α → CallEnd)
    (r : Reply σ (Except StoreError α)) : Reply (Site σ) (Except StoreError α) where
  delay := r.delay
  answer := r.answer
  after := site.note r.after now call (.ofAnswer shown r.answer)
  abandoned := site.note r.abandoned now call .cancelled
  lines := r.lines

/-- Changes the recorder. -/
def record (site : Site σ) (f : Recorder → Recorder) : Site σ :=
  { site with recorder := f site.recorder }

end Site

end ChangeFeed
