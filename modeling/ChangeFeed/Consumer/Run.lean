import ChangeFeed.Consumer.Health
import ChangeFeed.Consumer.StopSignal
import ChangeFeed.Consumer.WallClock
import ChangeFeed.Engine.Handle
import ChangeFeed.Log.Client

/-!
# The consume loop

A consumer polls a log, hands each batch to an engine and acknowledges it when every message of it
has its outcome. It looks at the stop signal between batches only. A poll or commit that fails
counts against the consumer's health and is followed by a wait, which the stop signal ends early.

`Consumer.step` is one turn of the loop and `Consumer.loop` repeats it while the signal is down.
The contacts with the log and the outcomes of the messages are kept, so that what a run did can be
read off its state.
-/

namespace ChangeFeed

/-- What a run has done so far. -/
structure RunSummary where
  batches : Nat
  events : Nat
  rejected : Nat
  commitFailures : Nat
deriving DecidableEq

/-- A run that has done nothing. -/
def RunSummary.zero : RunSummary :=
  ⟨0, 0, 0, 0⟩

/-- A sort of contact with the log. -/
inductive Stage where
  | poll
  | commit
deriving DecidableEq

/-- The name of a sort of contact. -/
def Stage.name : Stage → String
  | .poll => "poll"
  | .commit => "commit"

/-- What came of a contact. -/
inductive ContactResult where
  | batch (messages : List Message)
  | committed
  | failed (cause : ServiceError)
deriving DecidableEq

/-- A contact with the log. -/
structure Contact where
  stage : Stage
  /-- When it returned, in nanoseconds. -/
  time : Nat
  result : ContactResult
  /-- The metrics at that time. -/
  recorder : Recorder
deriving DecidableEq

/-- Where a run stands. -/
structure Run (σ ρ : Type) where
  timeline : Timeline (Site σ)
  log : ρ
  health : Health
  /-- The number of polls started. -/
  polls : Nat
  /-- The contacts with the log, the oldest first. -/
  contacts : List Contact
  /-- The messages handled with their outcomes, the oldest first. -/
  handled : List (Message × Outcome)
  summary : RunSummary

namespace Run

/-- A run that has not started. -/
def new (timeline : Timeline (Site σ)) (log : ρ) (health : Health) : Run σ ρ :=
  ⟨timeline, log, health, 0, [], [], .zero⟩

/-- Notes a contact that has just returned. -/
def note (run : Run σ ρ) (stage : Stage) (result : ContactResult) : Run σ ρ :=
  { run with
    contacts := run.contacts ++
      [⟨stage, run.timeline.now, result, run.timeline.state.recorder⟩] }

/-- Changes the recorder. -/
def record (run : Run σ ρ) (f : Recorder → Recorder) : Run σ ρ :=
  { run with timeline := run.timeline.update (·.record f) }

/-- Writes a line. -/
def report (run : Run σ ρ) (level : Journal.Level) (message : String)
    (fields : List (String × Journal.Value)) : Run σ ρ :=
  { run with timeline := run.timeline.log level message fields }

/-- Takes a reply of the log; none if it never comes. -/
def take? (run : Run σ ρ) (reply : Reply ρ α) : Option (α × Run σ ρ) :=
  reply.delay.map fun delay =>
    let t := run.timeline.sleep delay
    (reply.answer,
      { run with
        timeline := { t with journal := t.journal ++ reply.lines }
        log := reply.after })

/-- Notes a batch that has been handled. -/
def addBatch (run : Run σ ρ) (report : BatchReport) : Run σ ρ :=
  { run with
    handled := run.handled ++ report.messages.zip report.outcomes
    summary :=
      { run.summary with
        batches := run.summary.batches + 1
        events := run.summary.events + report.events
        rejected := run.summary.rejected + report.rejected } }

/-- Counts a commit that failed. -/
def countCommitFailure (run : Run σ ρ) : Run σ ρ :=
  { run with
    summary := { run.summary with commitFailures := run.summary.commitFailures + 1 } }

end Run

/-- A consumer of a log. -/
structure Consumer (σ ρ : Type) where
  engine : Engine σ
  log : LogClient ρ
  stop : StopSignal
  /-- The clock that its health goes by. -/
  clock : WallClock

namespace Consumer

/-- What the wall clock shows by now. -/
def reading (consumer : Consumer σ ρ) (run : Run σ ρ) : Int64 :=
  consumer.clock.reading run.timeline.now

/-- Notes a contact that went well. -/
def succeed (consumer : Consumer σ ρ) (run : Run σ ρ) : Run σ ρ :=
  { run with health := run.health.recordSuccess (consumer.reading run) }

/-- How a failure is reported, by the number of errors since the last success and the time since
then. The time is told of a critical one only. -/
def failureLine (errors : Nat) (sinceSuccess : Duration) :
    Journal.Level × String × List (String × Journal.Value) :=
  if Health.criticalThreshold ≤ errors then
    (.error, "CRITICAL: log client failing persistently: ",
      [("time_since_success_secs", .whole sinceSuccess.wholeSeconds)])
  else if Health.unhealthyThreshold ≤ errors then
    (.warn, "Log client unhealthy after repeated errors: ", [])
  else (.warn, "Log client error, retrying after backoff: ", [])

/-- Notes a contact that failed and reports it. -/
def noteFailure (consumer : Consumer σ ρ) (stage : Stage) (e : ServiceError) (run : Run σ ρ) :
    Run σ ρ :=
  let (errors, health) := run.health.recordError
  let (level, text, told) :=
    failureLine errors.toNat (health.timeSinceSuccess (consumer.reading run))
  let fields : List (String × Journal.Value) :=
    [("worker", .whole health.worker), ("stage", .text stage.name),
      ("consecutive_errors", .whole errors.toNat),
      ("backoff_ms", .whole health.backoff.millisWord.toNat)]
  ({ run with health := health }.record (·.countConsumerError)).report level (text ++ e.message)
    (fields ++ told)

/-- Waits after a failure, until the wait is over or the stop signal is up. -/
def backOff (consumer : Consumer σ ρ) (run : Run σ ρ) : Run σ ρ :=
  let wait := consumer.stop.wait run.timeline.now run.polls run.health.backoff
  { run with timeline := run.timeline.sleep wait }

/-- Acknowledges what was polled; none if the log never answers. -/
def commit (consumer : Consumer σ ρ) (run : Run σ ρ) : Option (Run σ ρ) :=
  (run.take? (consumer.log.commit run.timeline.now run.log)).map fun
    | (.ok _, run) => (consumer.succeed (run.note .commit .committed)).record (·.countCommit)
    | (.error e, run) =>
      consumer.backOff
        (consumer.noteFailure .commit e (run.note .commit (.failed e)).countCommitFailure)

/-- Handles a batch. -/
def process (consumer : Consumer σ ρ) (batch : List Message) (run : Run σ ρ) : Run σ ρ :=
  let (report, t) := consumer.engine.handleBatch batch run.timeline
  { run with timeline := t }.addBatch report

/-- Polls the log; none if it never answers. -/
def poll (consumer : Consumer σ ρ) (run : Run σ ρ) :
    Option (Except ServiceError (List Message) × Run σ ρ) :=
  { run with polls := run.polls + 1 }.take?
    (consumer.log.poll consumer.engine.tuning.pollTimeout run.timeline.now run.log)

/-- One turn of the loop; none if the log never answers. -/
def step (consumer : Consumer σ ρ) (run : Run σ ρ) : Option (Run σ ρ) :=
  (consumer.poll run).bind fun
    | (.error e, run) =>
      some (consumer.backOff (consumer.noteFailure .poll e (run.note .poll (.failed e))))
    | (.ok batch, run) =>
      let run := consumer.succeed (run.note .poll (.batch batch))
      if batch.isEmpty then some run else consumer.commit (consumer.process batch run)

/-- Whether the consumer is told to stop. -/
def isStopped (consumer : Consumer σ ρ) (run : Run σ ρ) : Bool :=
  consumer.stop.isRaised run.timeline.now run.polls

/-- Takes turns until the stop signal is up, at most so many; none if it is not up by then or the
log does not answer. -/
def loop (consumer : Consumer σ ρ) : (turns : Nat) → Run σ ρ → Option (Run σ ρ)
  | 0, run => if consumer.isStopped run then some run else none
  | turns + 1, run =>
    if consumer.isStopped run then some run
    else (consumer.step run).bind (consumer.loop turns)

/-- Opens a run. -/
def enter (run : Run σ ρ) : Run σ ρ :=
  (run.report .info "Starting sync loop" [("worker", .whole run.health.worker)]).record
    (·.enterWorker)

/-- Closes a run. -/
def leave (run : Run σ ρ) : Run σ ρ :=
  (run.record (·.leaveWorker)).report .info "Sync loop stopped"
    [("worker", .whole run.health.worker), ("batches", .whole run.summary.batches),
      ("events", .whole run.summary.events), ("rejected", .whole run.summary.rejected)]

/-- Runs the consumer until it is told to stop, in at most so many turns. -/
def run (consumer : Consumer σ ρ) (turns : Nat) (start : Run σ ρ) : Option (Run σ ρ) :=
  (consumer.loop turns (enter start)).map leave

end Consumer

end ChangeFeed
