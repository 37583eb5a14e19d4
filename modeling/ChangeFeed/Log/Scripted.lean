import ChangeFeed.Log.Client

/-!
# The scripted log

A log in memory that hands out the batches of a script, one per poll. When they are used up it
answers like an idle topic: nothing, after the whole wait. Polls can be made to fail. A commit
notes the offset of the last message that was handed out.
-/

namespace ChangeFeed

/-- The state of a scripted log. -/
structure ScriptedLog where
  /-- The batches still to be handed out. -/
  batches : List (List Message)
  /-- The offset of the last message handed out. -/
  lastOffset : Option Int64
  /-- The offsets noted by commits, the oldest first. -/
  commits : List Int64
  /-- The topics subscribed to, the oldest first. -/
  subscriptions : List String
  /-- How many polls are still to fail. -/
  failingPolls : UInt32
deriving DecidableEq

namespace ScriptedLog

/-- A log with a script. -/
def ofBatches (batches : List (List Message)) : ScriptedLog :=
  ⟨batches, none, [], [], 0⟩

/-- Makes the next `n` polls fail. -/
def failNextPolls (log : ScriptedLog) (n : UInt32) : ScriptedLog :=
  { log with failingPolls := n }

/-- Subscribes to topics. -/
def subscribe (log : ScriptedLog) (topics : List String) : ScriptedLog :=
  { log with subscriptions := log.subscriptions ++ topics }

/-- The fault of a poll that is made to fail. -/
def pollFault : ServiceError :=
  .kafka "broker transport failure"

/-- Notes that a batch is handed out. -/
def deliver (log : ScriptedLog) (batch : List Message) (rest : List (List Message)) :
    ScriptedLog :=
  { log with
    batches := rest
    lastOffset := (batch.getLast?.map Message.offset).or log.lastOffset }

/-- Asks for the next batch. -/
def poll (log : ScriptedLog) (wait : Duration) :
    Reply ScriptedLog (Except ServiceError (List Message)) :=
  if log.failingPolls ≠ 0 then
    .now (.error pollFault) { log with failingPolls := log.failingPolls - 1 }
  else
    match log.batches with
    | batch :: rest => .now (.ok batch) (log.deliver batch rest)
    | [] => ⟨some wait, .ok [], log, log, []⟩

/-- Notes the offset of the last message, if there was any. -/
def commit (log : ScriptedLog) : ScriptedLog :=
  { log with commits := log.commits ++ log.lastOffset.toList }

/-- The scripted log as a client. -/
def client : LogClient ScriptedLog where
  poll wait _ log := log.poll wait
  commit _ log := .now (.ok ()) log.commit

end ScriptedLog

end ChangeFeed
