import ChangeFeed.Event.Basic
import ChangeFeed.Service.ServiceError
import ChangeFeed.Timeline.Basic

/-!
# Log clients

A log client hands out batches of messages and takes acknowledgements. Its state is its own; what
it answers may depend on the time.
-/

namespace ChangeFeed

/-- A client of an ordered log with states `ρ`. -/
structure LogClient (ρ : Type) where
  /-- Asks for a batch, waiting at most so long for a first message; also given the time. -/
  poll : Duration → (now : Nat) → ρ → Reply ρ (Except ServiceError (List Message))
  /-- Acknowledges all that was handed out; also given the time. -/
  commit : (now : Nat) → ρ → Reply ρ (Except ServiceError Unit)

end ChangeFeed
