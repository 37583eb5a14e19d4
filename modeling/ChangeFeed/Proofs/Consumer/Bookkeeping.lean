import ChangeFeed.Log.Faulty
import ChangeFeed.Log.Scripted
import ChangeFeed.Proofs.Consumer.Effect
import ChangeFeed.Proofs.Engine.InMemory

/-!
# The books of a run

Turn by turn the books of a run follow from what each turn adds: what was handled, counted and
summed up, when the signal was looked at, and how long the loop waited after a failure (`Run.Books`,
kept by `Run.Books.step`). `Consumer.books_of_run` states them for whatever a run reaches and for
every run that returns, whatever its log answers.

The wait after a failure is the one that is due after the number of failures since the last success,
with two limits: the number is kept in 32 bits, and no timer runs for more than thirty years.
`Consumer.wait_limits` has a run for either one.
-/

namespace ChangeFeed

variable {σ ρ : Type}

/-- The contacts of some turns. -/
def contactsOf (turns : List Turn) : List Contact :=
  turns.flatMap Turn.contacts

/-- One more turn adds its contacts at the end. -/
theorem contactsOf_snoc (turns : List Turn) (turn : Turn) :
    contactsOf (turns ++ [turn]) = contactsOf turns ++ turn.contacts := by
  unfold contactsOf
  rw [List.flatMap_append, List.flatMap_singleton]

/-- The reports of the batches that were handled in some turns. -/
def reportsOf (turns : List Turn) : List BatchReport :=
  turns.flatMap fun turn => turn.report.toList

/-- One more turn adds its report at the end, if it has one. -/
theorem reportsOf_snoc (turns : List Turn) (turn : Turn) :
    reportsOf (turns ++ [turn]) = reportsOf turns ++ turn.report.toList := by
  unfold reportsOf
  rw [List.flatMap_append, List.flatMap_singleton]

/-- A count summed up over some reports. -/
def BatchReport.total (count : BatchReport → Nat) (reports : List BatchReport) : Nat :=
  reports.foldl (fun sum report => sum + count report) 0

/-- A counter of 32 bits that goes on from what another one holds comes to the same. -/
theorem failuresInARow_mod (before : Nat) (contacts : List Contact) :
    failuresInARow (before % 2 ^ 32) contacts % 2 ^ 32 =
      failuresInARow before contacts % 2 ^ 32 := by
  unfold failuresInARow
  induction contacts generalizing before with
  | nil => exact Nat.mod_mod _ _
  | cons contact rest ih =>
    rw [List.foldl_cons, List.foldl_cons]
    cases contact.isFailed with
    | false => rfl
    | true =>
      -- Both go on from numbers that are the same in 32 bits.
      have hsame : (before % 2 ^ 32 + 1) % 2 ^ 32 = (before + 1) % 2 ^ 32 := Nat.mod_add_mod _ _ _
      have hleft := ih (before % 2 ^ 32 + 1)
      rw [hsame, ih] at hleft
      exact hleft.symm

/-! ## The books -/

/-- When the loop goes on after some turns, if it began at a time. -/
def goesOnAt (began : Nat) (turns : List Turn) : Nat :=
  (turns.getLast?.map Turn.ended).getD began

/-- How a turn follows on those before it in a run that began at `t` with a health. -/
structure Turn.Follows (consumer : Consumer σ ρ) (t : Timeline (Site σ)) (health : Health)
    (earlier : List Turn) (turn : Turn) : Prop where
  /-- The poll starts as soon as the turn before is over, -/
  began : turn.began = goesOnAt t.now earlier
  /-- with the signal down. -/
  down : consumer.stop.isRaised turn.began earlier.length = false
  /-- It comes to what the log answers then. -/
  asked : ∃ log contact, turn.contacts.head? = some contact ∧ contact.result = .ofPoll
    (consumer.log.poll consumer.engine.tuning.pollTimeout turn.began log).answer
  shape : Turn.Shape (turn.contacts.map fun contact => (contact.stage, contact.result)) turn.report
  /-- A commit finds all that was delivered processed. -/
  inTime : ∀ contact ∈ turn.contacts, contact.stage = .commit → contact.recorder.processed =
    t.state.recorder.processed + (delivered (contactsOf (earlier ++ [turn]))).length
  /-- After a failure the loop waits as long as is due, and otherwise not at all. -/
  waits : ∃ contact, turn.contacts.getLast? = some contact ∧
    if contact.isFailed then
      consumer.stop.Waits (earlier.length + 1) contact.time
        (min (health.dueNanos
          (failuresInARow health.errors.toNat (contactsOf (earlier ++ [turn])) % 2 ^ 32))
          Duration.longestTimer.nanos) turn.ended
    else turn.ended = contact.time

/-- The books of a run that began at `t` with a health and has taken some turns. -/
structure Run.Books (consumer : Consumer σ ρ) (t : Timeline (Site σ)) (health : Health)
    (turns : List Turn) (run : Run σ ρ) : Prop where
  follows : ∀ earlier turn later, turns = earlier ++ turn :: later →
    turn.Follows consumer t health earlier
  now : run.timeline.now = goesOnAt t.now turns
  polls : run.polls = turns.length
  contacts : run.contacts = contactsOf turns
  /-- What is delivered is handled, each message once and in order, with the outcomes that the
  reports are about. -/
  handled : run.handled = turns.flatMap Turn.handled
  messages : run.handled.map (·.1) = delivered run.contacts
  handles : consumer.engine.Handles run.handled t run.timeline
  batches : run.summary.batches = (reportsOf turns).length
  events : run.summary.events = BatchReport.total BatchReport.events (reportsOf turns)
  rejected : run.summary.rejected = BatchReport.total BatchReport.rejected (reportsOf turns)
  commitFailures : run.summary.commitFailures = failures .commit run.contacts
  consumerErrors : run.timeline.state.recorder.consumerErrors =
    t.state.recorder.consumerErrors + failures .poll run.contacts + run.summary.commitFailures
  committed : run.timeline.state.recorder.batchesCommitted + run.summary.commitFailures =
    t.state.recorder.batchesCommitted + run.summary.batches
  errors : run.health.errors.toNat =
    failuresInARow health.errors.toNat run.contacts % 2 ^ 32
  lastSuccess : run.health.lastSuccess =
    lastSuccessOf consumer.clock health.lastSuccess run.contacts
  least : run.health.minBackoff = health.minBackoff
  bound : run.health.maxBackoff = health.maxBackoff

variable {consumer : Consumer σ ρ} {t : Timeline (Site σ)} {health : Health}

/-- A run that opens has taken no turn. -/
theorem Run.books_enter (consumer : Consumer σ ρ) (t : Timeline (Site σ)) (log : ρ)
    (health : Health) :
    (Consumer.enter (.new t log health)).Books consumer t health [] where
  follows := by
    intro earlier turn later h
    cases earlier <;> cases h
  now := rfl
  polls := rfl
  contacts := rfl
  handled := rfl
  messages := rfl
  handles := Engine.Handles.start.pass ⟨rfl, rfl, fun _ => rfl⟩
  batches := rfl
  events := rfl
  rejected := rfl
  commitFailures := rfl
  consumerErrors := rfl
  committed := rfl
  errors := (Nat.mod_eq_of_lt health.errors.toNat_lt).symm
  lastSuccess := rfl
  least := rfl
  bound := rfl

section

variable {run run' : Run σ ρ} {turns : List Turn} {turn : Turn}

/-- The contacts of a turn come behind those before. -/
theorem Run.Books.contacts_step (h : run.Books consumer t health turns)
    (hadds : run.Adds consumer turn run') : run'.contacts = contactsOf (turns ++ [turn]) := by
  rw [hadds.contacts, h.contacts, contactsOf_snoc]

/-- A turn goes on counting the failures in a row, in 32 bits. -/
theorem Run.Books.errors_step (h : run.Books consumer t health turns)
    (hadds : run.Adds consumer turn run') :
    run'.health.errors.toNat = failuresInARow health.errors.toNat run'.contacts % 2 ^ 32 := by
  rw [hadds.errors, h.errors, failuresInARow_mod, hadds.contacts]
  unfold failuresInARow
  rw [List.foldl_append]

/-- A turn that is taken with the signal down follows on those before it. -/
theorem Run.Books.follows_step (h : run.Books consumer t health turns)
    (hlimits : health.minBackoff.nanos ≤ health.maxBackoff.nanos)
    (hdown : consumer.isStopped run = false) (hadds : run.Adds consumer turn run') :
    turn.Follows consumer t health turns := by
  constructor
  case began => rw [hadds.began, h.now]
  case down =>
    rw [hadds.began, ← h.polls]
    exact hdown
  case asked =>
    rw [hadds.began]
    exact ⟨run.log, hadds.asked⟩
  case shape => exact hadds.shape
  case inTime =>
    intro contact hmem hcommit
    -- Before the turn all that was delivered had been handled, and so it had been counted.
    have hmessages := congrArg List.length h.messages
    rw [List.length_map, h.contacts] at hmessages
    rw [hadds.inTime contact hmem hcommit, h.handles.processed, hmessages, contactsOf_snoc]
    unfold delivered
    rw [List.flatMap_append, List.length_append, Nat.add_assoc]
  case waits =>
    -- The wait is worked out when the failure has been counted.
    have hbackoff : run'.health.backoff.nanos = health.dueNanos
        (failuresInARow health.errors.toNat (contactsOf (turns ++ [turn])) % 2 ^ 32) := by
      rw [Health.nanos_backoff_of_limits (hadds.least.trans h.least) (hadds.bound.trans h.bound)
        hlimits, h.errors_step hadds, h.contacts_step hadds]
    rw [← hbackoff, ← h.polls, ← hadds.polls]
    exact hadds.waits

/-- A turn that is taken with the signal down keeps the books. -/
theorem Run.Books.step (h : run.Books consumer t health turns)
    (hlimits : health.minBackoff.nanos ≤ health.maxBackoff.nanos)
    (hdown : consumer.isStopped run = false) (hstep : consumer.step run = some run') :
    ∃ turn, run'.Books consumer t health (turns ++ [turn]) := by
  obtain ⟨turn, hadds⟩ := Consumer.adds_of_step hstep
  refine ⟨turn, ?_⟩
  -- Each entry is the one before the turn with what the turn adds.
  constructor
  case follows => exact split_snoc h.follows (h.follows_step hlimits hdown hadds)
  case now =>
    unfold goesOnAt
    rw [List.getLast?_concat]
    exact hadds.ended.symm
  case polls => rw [hadds.polls, h.polls, List.length_append, List.length_singleton]
  case contacts => exact h.contacts_step hadds
  case handled => rw [hadds.handled, h.handled, List.flatMap_append, List.flatMap_singleton]
  case messages =>
    rw [hadds.handled, List.map_append, h.messages, hadds.messages, hadds.contacts]
    exact List.flatMap_append.symm
  case handles => exact hadds.handles h.handles
  case batches => rw [hadds.batches, h.batches, reportsOf_snoc, List.length_append]
  case events =>
    rw [hadds.events, h.events, reportsOf_snoc]
    exact List.foldl_append.symm
  case rejected =>
    rw [hadds.rejected, h.rejected, reportsOf_snoc]
    exact List.foldl_append.symm
  case commitFailures =>
    rw [hadds.commitFailures, h.commitFailures, hadds.contacts]
    exact List.countP_append.symm
  case consumerErrors =>
    have hpolls : failures .poll run'.contacts =
        failures .poll run.contacts + failures .poll turn.contacts := by
      rw [hadds.contacts]
      exact List.countP_append
    rw [hadds.consumerErrors, h.consumerErrors, hadds.commitFailures, hpolls]
    omega
  case committed =>
    have hcommitted := h.committed
    have hadded := hadds.committed
    rw [hadds.commitFailures, hadds.batches]
    omega
  case errors => exact h.errors_step hadds
  case lastSuccess =>
    rw [hadds.lastSuccess, h.lastSuccess, hadds.contacts]
    exact List.foldl_append.symm
  case least => exact hadds.least.trans h.least
  case bound => exact hadds.bound.trans h.bound

/-- Whatever a run reaches keeps the books. -/
theorem Run.Books.proceeds (h : run.Books consumer t health turns)
    (hlimits : health.minBackoff.nanos ≤ health.maxBackoff.nanos)
    (hreached : consumer.Proceeds run run') : ∃ turns', run'.Books consumer t health turns' := by
  induction hreached with
  | refl => exact ⟨turns, h⟩
  | tail _ hnext ih =>
    obtain ⟨before, hbefore⟩ := ih
    obtain ⟨turn, hafter⟩ := hbefore.step hlimits hnext.1 hnext.2
    exact ⟨_, hafter⟩

/-- Closing a run keeps its books. -/
theorem Run.Books.leave (h : run.Books consumer t health turns) :
    (Consumer.leave run).Books consumer t health turns :=
  { h with handles := h.handles.pass ⟨rfl, rfl, fun _ => rfl⟩ }

/-- No turn changes the number of workers. -/
theorem Consumer.activeWorkers_of_proceeds (h : consumer.Proceeds run run') :
    run'.timeline.state.recorder.activeWorkers = run.timeline.state.recorder.activeWorkers := by
  induction h with
  | refl => rfl
  | tail _ hnext ih =>
    obtain ⟨turn, hadds⟩ := adds_of_step hnext.2
    exact hadds.workers.trans ih

end

/-- Whatever a log answers, whatever the limits of the waits and whenever the signal is raised, the
books of a run are kept all along. When it returns the signal is up, and there are as many workers
as before it. -/
theorem Consumer.books_of_run (consumer : Consumer σ ρ) (t : Timeline (Site σ)) (log : ρ)
    (worker prior : Nat) (least bound : Duration) (made : Int64) :
    let health := (Health.withBackoff worker least bound made).recordErrors prior
    let start := Run.new t log health
    (∀ run, consumer.Proceeds (enter start) run →
      ∃ turns, run.Books consumer t health turns) ∧
    ∀ limit run, consumer.run limit start = some run →
      ∃ turns, run.Books consumer t health turns ∧ consumer.isStopped run = true ∧
        run.timeline.state.recorder.activeWorkers = t.state.recorder.activeWorkers := by
  intro health start
  have hlimits := Health.minBackoff_le_maxBackoff worker prior least bound made
  have henter : (enter start).Books consumer t health [] := Run.books_enter consumer t log health
  refine ⟨fun run => henter.proceeds hlimits, fun limit run hrun => ?_⟩
  obtain ⟨last, hloop, rfl⟩ := Option.map_eq_some_iff.1 hrun
  obtain ⟨hreached, hup⟩ := proceeds_of_loop limit hloop
  obtain ⟨turns, hbooks⟩ := henter.proceeds hlimits hreached
  refine ⟨turns, hbooks.leave, hup, ?_⟩
  -- The worker that was counted when the run opened is taken off again.
  have hworkers := activeWorkers_of_proceeds hreached
  show last.timeline.state.recorder.activeWorkers - 1 = _
  rw [hworkers]
  show t.state.recorder.activeWorkers + 1 - 1 = _
  omega

/-- A run past a poll that fails, a commit that fails and an idle poll. -/
theorem Consumer.books_of_run_failing :
    let tombstone (offset : Int64) : Message := ⟨"shop.public.customers", 0, offset, none⟩
    let log : FaultyLog ScriptedLog :=
      ⟨.ofBatches [[tombstone 0], [], [tombstone 1]], 0, 0, [1], [1]⟩
    let t : Timeline (Site MemoryStore) := .start (.new .new)
    let consumer : Consumer MemoryStore (FaultyLog ScriptedLog) :=
      ⟨.inMemory .builtIn .default, FaultyLog.client ScriptedLog.client, ⟨none, some 4⟩,
        .running 0⟩
    let health := (Health.withBackoff 0 (.ofMillis 10) (.ofMillis 1000) 0).recordErrors 0
    ∃ run turns, consumer.run 5 (.new t log health) = some run ∧
      run.Books consumer t health turns ∧ consumer.isStopped run = true ∧
      run.timeline.state.recorder.activeWorkers = 0 := by
  intro tombstone log t consumer health
  obtain ⟨run, hrun⟩ : ∃ run, consumer.run 5 (.new t log health) = some run :=
    Option.isSome_iff_exists.1 (by decide)
  obtain ⟨turns, hbooks, hup, hworkers⟩ :=
    (books_of_run consumer t log 0 0 (.ofMillis 10) (.ofMillis 1000) 0).2 5 run hrun
  exact ⟨run, turns, hrun, hbooks, hup, hworkers⟩

/-- Where a wait of more than thirty years is due the loop goes on after thirty years, and after
2 ^ 32 failures in a row it waits as after the first one. Both runs poll in vain twice, with the
signal raised as the second poll starts, which takes one second. -/
theorem Consumer.wait_limits :
    let t : Timeline (Site MemoryStore) := .start (.new .new)
    let log := (ScriptedLog.ofBatches []).failNextPolls 1
    let consumer : Consumer MemoryStore ScriptedLog :=
      ⟨.inMemory .builtIn .default, ScriptedLog.client, ⟨none, some 2⟩, .running 0⟩
    let slow := Health.withBackoff 0 (.ofMillis (10 ^ 12)) (.ofMillis (10 ^ 12)) 0
    let failing := (Health.withBackoff 0 (.ofSeconds 1) (.ofSeconds 60) 0).recordErrors (2 ^ 32 - 1)
    let pollTimes (health : Health) : Option (List Nat) :=
      (consumer.run 2 (.new t log health)).map fun run => run.contacts.map (·.time)
    (slow.dueNanos 1 = 10 ^ 18 ∧ pollTimes slow = some [0, (30 * 365 * 86400 + 1) * 10 ^ 9]) ∧
    failing.dueNanos (2 ^ 32) = 60 * 10 ^ 9 ∧ pollTimes failing = some [0, 2 * 10 ^ 9] := by
  intro t log consumer slow failing pollTimes
  have hfailing : failing = { Health.withBackoff 0 (.ofSeconds 1) (.ofSeconds 60) 0 with
      errors := 4294967295 } := Health.recordErrors_eq _ _
  rw [hfailing]
  exact ⟨⟨by decide, by decide⟩, by decide, by decide⟩

end ChangeFeed
