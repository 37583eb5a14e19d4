import ChangeFeed.Proofs.Consumer.Backoff
import ChangeFeed.Proofs.Consumer.Turn

/-!
# What a turn adds

A log may answer a consumer in any way: polls fail, deliver batches or nothing, commits fail or not,
and every answer takes its time. A turn of the loop goes one of four ways, by these answers
(`Turn.Shape`), and each of them writes to other places: the contacts, the messages that were
handled, the summary, the metrics, the health and the clock. `Run.Adds` says what a turn adds to
each of them, and `Consumer.adds_of_step` that every turn does, whichever way it goes.
-/

namespace ChangeFeed

variable {σ ρ α : Type}

/-! ## What handling leaves alone -/

/-- The counts that the loop keeps, and not the engine. -/
def Recorder.loopCounts (r : Recorder) : Nat × Nat × Int :=
  (r.consumerErrors, r.batchesCommitted, r.activeWorkers)

/-- The counts of the loop are the same if each of the three is. -/
theorem Recorder.loopCounts_eq_iff {r r' : Recorder} :
    r'.loopCounts = r.loopCounts ↔ r'.consumerErrors = r.consumerErrors ∧
      r'.batchesCommitted = r.batchesCommitted ∧ r'.activeWorkers = r.activeWorkers := by
  unfold loopCounts
  rw [Prod.mk.injEq, Prod.mk.injEq]

/-- Counting events leaves the counts of the loop alone. -/
theorem Recorder.loopCounts_bumpAll (r : Recorder) (cells : List Cell) :
    (r.bumpAll cells).loopCounts = r.loopCounts := by
  unfold bumpAll
  induction cells generalizing r with
  | nil => rfl
  | cons cell rest ih =>
    rw [List.foldl_cons, ih]
    cases cell with
    | event count => cases count <;> rfl
    | rejection reason => cases reason <;> rfl

/-- Handling messages leaves the counts of the loop alone. -/
theorem Engine.loopCounts_handleAll (engine : Engine σ) (messages : List Message)
    (t : Timeline (Site σ)) :
    (engine.handleAll messages t).2.state.recorder.loopCounts = t.state.recorder.loopCounts := by
  induction messages generalizing t with
  | nil => rfl
  | cons message rest ih =>
    have hone : (engine.handle message t).2.state.recorder.loopCounts =
        t.state.recorder.loopCounts := by
      obtain ⟨action, result, origin, t', hworks, -, h⟩ :=
        engine.serve_eq_finish (.message message) t
      obtain ⟨durations, hrecorder⟩ := Works.recorder hworks
      change engine.handle message t = _ at h
      rw [h]
      show (t'.state.recorder.bumpAll _).loopCounts = _
      rw [Recorder.loopCounts_bumpAll, hrecorder]
      rfl
    exact (ih _).trans hone

/-! ## Contacts and turns -/

/-- Whether a contact with the log failed. -/
def Contact.isFailed (contact : Contact) : Bool :=
  match contact.result with
  | .failed _ => true
  | _ => false

/-- The number of contacts of a sort that failed. -/
def failures (stage : Stage) (contacts : List Contact) : Nat :=
  contacts.countP fun contact => contact.stage = stage && contact.isFailed

/-- The number of failures since the last success, when there were so many before. -/
def failuresInARow (before : Nat) (contacts : List Contact) : Nat :=
  contacts.foldl (fun n contact => if contact.isFailed then n + 1 else 0) before

/-- What a wall clock showed at the last success, when that was a reading before. -/
def lastSuccessOf (clock : WallClock) (before : Int64) (contacts : List Contact) : Int64 :=
  contacts.foldl (fun last contact =>
    if contact.isFailed then last else clock.reading contact.time) before

/-- What a log answers to a poll, as a result of the contact. -/
def ContactResult.ofPoll : Except ServiceError (List Message) → ContactResult
  | .ok messages => .batch messages
  | .error e => .failed e

/-- What a turn of the loop leaves behind. -/
structure Turn where
  /-- When its poll started. -/
  began : Nat
  contacts : List Contact
  /-- What came of the batch that was handled, if there was one. -/
  report : Option BatchReport
  /-- When the loop went on. -/
  ended : Nat

namespace Turn

/-- The messages that were handled in a turn, with their outcomes. -/
def handled (turn : Turn) : List (Message × Outcome) :=
  match turn.report with
  | some report => report.messages.zip report.outcomes
  | none => []

/-- The ways a turn can go, by its contacts with the log and the batch that was handled between
them. A batch that is not empty is handled, every message of it, and followed by one commit. A poll
that fails or delivers nothing is followed by none. -/
inductive Shape : List (Stage × ContactResult) → Option BatchReport → Prop
  | failedPoll (cause : ServiceError) : Shape [(.poll, .failed cause)] none
  | idle : Shape [(.poll, .batch [])] none
  | committed (report : BatchReport) (filled : report.messages ≠ [])
      (whole : report.outcomes.length = report.messages.length) :
      Shape [(.poll, .batch report.messages), (.commit, .committed)] (some report)
  | failedCommit (report : BatchReport) (filled : report.messages ≠ [])
      (whole : report.outcomes.length = report.messages.length) (cause : ServiceError) :
      Shape [(.poll, .batch report.messages), (.commit, .failed cause)] (some report)

end Turn

/-! ## What a turn adds -/

/-- What a run is after a turn, by what it was before. -/
structure Run.Adds (consumer : Consumer σ ρ) (turn : Turn) (run run' : Run σ ρ) : Prop where
  began : turn.began = run.timeline.now
  ended : turn.ended = run'.timeline.now
  polls : run'.polls = run.polls + 1
  contacts : run'.contacts = run.contacts ++ turn.contacts
  asked : ∃ contact, turn.contacts.head? = some contact ∧ contact.result = .ofPoll
    (consumer.log.poll consumer.engine.tuning.pollTimeout run.timeline.now run.log).answer
  shape : Turn.Shape (turn.contacts.map fun contact => (contact.stage, contact.result)) turn.report
  handled : run'.handled = run.handled ++ turn.handled
  messages : turn.handled.map (·.1) = delivered turn.contacts
  handles : ∀ {start}, consumer.engine.Handles run.handled start run.timeline →
    consumer.engine.Handles run'.handled start run'.timeline
  batches : run'.summary.batches = run.summary.batches + turn.report.toList.length
  events : run'.summary.events =
    turn.report.toList.foldl (fun sum report => sum + report.events) run.summary.events
  rejected : run'.summary.rejected =
    turn.report.toList.foldl (fun sum report => sum + report.rejected) run.summary.rejected
  commitFailures : run'.summary.commitFailures =
    run.summary.commitFailures + failures .commit turn.contacts
  consumerErrors : run'.timeline.state.recorder.consumerErrors =
    run.timeline.state.recorder.consumerErrors + failures .poll turn.contacts +
      failures .commit turn.contacts
  committed : run'.timeline.state.recorder.batchesCommitted + failures .commit turn.contacts =
    run.timeline.state.recorder.batchesCommitted + turn.report.toList.length
  workers : run'.timeline.state.recorder.activeWorkers =
    run.timeline.state.recorder.activeWorkers
  errors : run'.health.errors.toNat =
    failuresInARow run.health.errors.toNat turn.contacts % 2 ^ 32
  lastSuccess : run'.health.lastSuccess =
    lastSuccessOf consumer.clock run.health.lastSuccess turn.contacts
  least : run'.health.minBackoff = run.health.minBackoff
  bound : run'.health.maxBackoff = run.health.maxBackoff
  inTime : ∀ contact ∈ turn.contacts, contact.stage = .commit → contact.recorder.processed =
    run.timeline.state.recorder.processed + (delivered turn.contacts).length
  waits : ∃ contact, turn.contacts.getLast? = some contact ∧
    if contact.isFailed then
      consumer.stop.Waits run'.polls contact.time
        (min run'.health.backoff.nanos Duration.longestTimer.nanos) turn.ended
    else turn.ended = contact.time

/-- A run waits for the log, and nothing else happens to it. -/
def Run.Hears (run run' : Run σ ρ) : Prop :=
  ∃ t log, t.state = run.timeline.state ∧ run' = { run with timeline := t, log := log }

/-- What is taken from a reply is its answer, and the run has only waited for it. -/
theorem Run.hears_of_take? {run run' : Run σ ρ} {reply : Reply ρ α} {answer : α}
    (h : run.take? reply = some (answer, run')) : answer = reply.answer ∧ run.Hears run' := by
  unfold take? at h
  cases hdelay : reply.delay with
  | none =>
    -- A reply that never comes leaves nothing to be taken.
    rw [hdelay] at h
    cases h
  | some delay =>
    rw [hdelay] at h
    cases h
    let t := run.timeline.sleep delay
    exact ⟨rfl, { t with journal := t.journal ++ reply.lines }, reply.after, rfl, rfl⟩

namespace Consumer

/-- A turn polls the log. If the poll fails the loop backs off, and if it delivers nothing the turn
is over; else the batch is handled and committed. -/
theorem step_ends {consumer : Consumer σ ρ} {run run' : Run σ ρ}
    (hstep : consumer.step run = some run') :
    let answer :=
      (consumer.log.poll consumer.engine.tuning.pollTimeout run.timeline.now run.log).answer
    ∃ polled, Run.Hears { run with polls := run.polls + 1 } polled ∧
      ((∃ cause, answer = .error cause ∧
        run' = consumer.backOff
          (consumer.noteFailure .poll cause (polled.note .poll (.failed cause)))) ∨
      (answer = .ok [] ∧ run' = consumer.succeed (polled.note .poll (.batch []))) ∨
      ∃ batch, answer = .ok batch ∧ batch ≠ [] ∧ consumer.commit
        (consumer.process batch (consumer.succeed (polled.note .poll (.batch batch)))) =
          some run') := by
  obtain ⟨⟨answer, polled⟩, hpoll, hrest⟩ := Option.bind_eq_some_iff.1 hstep
  obtain ⟨hanswer, hears⟩ := Run.hears_of_take? hpoll
  refine ⟨polled, hears, ?_⟩
  rw [← hanswer]
  cases answer with
  | error cause => exact .inl ⟨cause, rfl, (Option.some.inj hrest).symm⟩
  | ok batch =>
    dsimp only at hrest
    cases batch with
    | nil => exact .inr (.inl ⟨rfl, (Option.some.inj hrest).symm⟩)
    | cons message rest => exact .inr (.inr ⟨_, rfl, List.cons_ne_nil _ _, hrest⟩)

/-- A commit succeeds, or the loop backs off. -/
theorem commit_ends {consumer : Consumer σ ρ} {run run' : Run σ ρ}
    (hcommit : consumer.commit run = some run') :
    ∃ answered, run.Hears answered ∧
      (run' = (consumer.succeed (answered.note .commit .committed)).record (·.countCommit) ∨
      ∃ cause, run' = consumer.backOff (consumer.noteFailure .commit cause
        (answered.note .commit (.failed cause)).countCommitFailure)) := by
  obtain ⟨⟨answer, answered⟩, htake, hrest⟩ := Option.map_eq_some_iff.1 hcommit
  refine ⟨answered, (Run.hears_of_take? htake).2, ?_⟩
  cases answer with
  | error cause => exact .inr ⟨cause, hrest.symm⟩
  | ok _ => exact .inl hrest.symm

/-- Backing off after a failure waits as the health says, unless the signal ends the wait. -/
theorem waits_backOff (consumer : Consumer σ ρ) (run : Run σ ρ) :
    consumer.stop.Waits (consumer.backOff run).polls run.timeline.now
      (min (consumer.backOff run).health.backoff.nanos Duration.longestTimer.nanos)
      (consumer.backOff run).timeline.now :=
  consumer.stop.waits_wait _ _ _

variable {consumer : Consumer σ ρ} {run run' polled : Run σ ρ} {batch : List Message}

/-- What a turn adds that handles no batch, since its poll fails or delivers nothing. -/
theorem adds_of_poll {answer : Except ServiceError (List Message)}
    (hanswer : (consumer.log.poll consumer.engine.tuning.pollTimeout run.timeline.now
      run.log).answer = answer)
    (hears : Run.Hears { run with polls := run.polls + 1 } polled)
    (hends : (∃ cause, answer = .error cause ∧
        run' = consumer.backOff
          (consumer.noteFailure .poll cause (polled.note .poll (.failed cause)))) ∨
      (answer = .ok [] ∧ run' = consumer.succeed (polled.note .poll (.batch [])))) :
    ∃ turn, run.Adds consumer turn run' := by
  obtain ⟨t, log, ht, rfl⟩ := hears
  obtain ⟨herrors, hcommits, hworkers⟩ := Recorder.loopCounts_eq_iff.1
    (congrArg (fun site : Site σ => site.recorder.loopCounts) ht)
  have hhandles : ∀ {start}, consumer.engine.Handles run.handled start run.timeline →
      consumer.engine.Handles run.handled start t :=
    fun h => h.pass (Timeline.passes_of_state_eq ht)
  -- There is no commit among the contacts that would have to be in time.
  have hinTime : ∀ result, ∀ contact ∈ [(⟨.poll, t.now, result, t.state.recorder⟩ : Contact)],
      contact.stage = .commit → contact.recorder.processed =
        run.timeline.state.recorder.processed +
          (delivered [(⟨.poll, t.now, result, t.state.recorder⟩ : Contact)]).length := by
    intro result contact hmem hcommit
    rw [List.mem_singleton.1 hmem] at hcommit
    cases hcommit
  rcases hends with ⟨cause, rfl, rfl⟩ | ⟨rfl, rfl⟩
  · refine ⟨⟨run.timeline.now, [⟨.poll, t.now, .failed cause, t.state.recorder⟩], none, _⟩,
      { began := rfl, ended := rfl, polls := rfl, contacts := rfl, shape := .failedPoll cause,
        handled := (List.append_nil _).symm, messages := rfl, batches := rfl, events := rfl,
        rejected := rfl, commitFailures := rfl, least := rfl, bound := rfl, workers := hworkers,
        committed := hcommits, inTime := hinTime _
        asked := ⟨_, rfl, by rw [hanswer]; rfl⟩
        handles := fun h => (hhandles h).pass ⟨rfl, rfl, fun cell => rfl⟩
        consumerErrors := congrArg (· + 1) herrors
        errors := UInt32.toNat_add ..
        lastSuccess := rfl
        waits := ⟨_, rfl, (if_pos rfl).mpr (waits_backOff consumer _)⟩ }⟩
  · exact ⟨⟨run.timeline.now, [⟨.poll, t.now, .batch [], t.state.recorder⟩], none, t.now⟩,
      { began := rfl, ended := rfl, polls := rfl, contacts := rfl, shape := .idle,
        handled := (List.append_nil _).symm, messages := rfl, batches := rfl, events := rfl,
        rejected := rfl, commitFailures := rfl, least := rfl, bound := rfl, workers := hworkers,
        committed := hcommits, inTime := hinTime _, handles := hhandles
        asked := ⟨_, rfl, by rw [hanswer]; rfl⟩
        consumerErrors := herrors
        errors := rfl
        lastSuccess := rfl
        waits := ⟨_, rfl, rfl⟩ }⟩

/-- What is so when a batch has been handled and its commit is answered. -/
theorem handled_of_answered {t t' : Timeline (Site σ)} (ht : t.state = run.timeline.state)
    (ht' : t'.state = (consumer.engine.handleAll batch t).2.state) :
    (∀ {start}, consumer.engine.Handles run.handled start run.timeline →
      consumer.engine.Handles (run.handled ++ batch.zip (consumer.engine.handleAll batch t).1)
        start t') ∧
    t'.state.recorder.loopCounts = run.timeline.state.recorder.loopCounts ∧
    t'.state.recorder.processed = run.timeline.state.recorder.processed + batch.length := by
  refine ⟨fun h => ?_, ?_, ?_⟩
  · have hpolled := h.pass (Timeline.passes_of_state_eq ht)
    exact (hpolled.handleAll batch).pass (Timeline.passes_of_state_eq ht')
  · rw [ht', consumer.engine.loopCounts_handleAll, ht]
  · rw [ht', (consumer.engine.counts_handleAll batch t).1, ht]

/-- What a turn adds that handles a batch, whether or not it can commit it. -/
theorem adds_of_commit (hanswer : (consumer.log.poll consumer.engine.tuning.pollTimeout
      run.timeline.now run.log).answer = .ok batch) (hfilled : batch ≠ [])
    (hears : Run.Hears { run with polls := run.polls + 1 } polled)
    (hcommit : consumer.commit
      (consumer.process batch (consumer.succeed (polled.note .poll (.batch batch)))) =
        some run') :
    ∃ turn, run.Adds consumer turn run' := by
  obtain ⟨t, log, ht, rfl⟩ := hears
  obtain ⟨answered, ⟨t', log', ht', rfl⟩, hends⟩ := commit_ends hcommit
  have hlength := consumer.engine.length_handleAll batch t
  have hmessages : (batch.zip (consumer.engine.handleAll batch t).1).map Prod.fst = batch :=
    List.map_fst_zip (Nat.le_of_eq hlength.symm)
  obtain ⟨hhandles, hloop, hprocessed⟩ := handled_of_answered ht ht'
  obtain ⟨herrors, hcommits, hworkers⟩ := Recorder.loopCounts_eq_iff.1 hloop
  let poll : Contact := ⟨.poll, t.now, .batch batch, t.state.recorder⟩
  let commit (result : ContactResult) : Contact := ⟨.commit, t'.now, result, t'.state.recorder⟩
  -- The commit, however it ends, finds the whole batch processed.
  have hinTime : ∀ result, (commit result).messages = [] → ∀ contact ∈ [poll, commit result],
      contact.stage = .commit → contact.recorder.processed =
        run.timeline.state.recorder.processed + (delivered [poll, commit result]).length := by
    intro result hnone contact hmem hstage
    have hdelivered : delivered [poll, commit result] = batch := by
      show batch ++ ((commit result).messages ++ []) = batch
      rw [hnone, List.append_nil, List.append_nil]
    rcases List.mem_pair.1 hmem with rfl | rfl
    · cases hstage
    · rw [hdelivered]
      exact hprocessed
  rcases hends with rfl | ⟨cause, rfl⟩
  · exact ⟨⟨run.timeline.now, [poll, commit .committed],
        some (consumer.engine.handleBatch batch t).1, t'.now⟩,
      { began := rfl, ended := rfl, polls := rfl, contacts := List.append_assoc .., handled := rfl,
        shape := .committed (consumer.engine.handleBatch batch t).1 hfilled hlength,
        batches := rfl, events := rfl, rejected := rfl, commitFailures := rfl, least := rfl,
        bound := rfl, workers := hworkers, inTime := hinTime _ rfl
        asked := ⟨_, rfl, by rw [hanswer]; rfl⟩
        messages := hmessages.trans (List.append_nil _).symm
        handles := fun h => (hhandles h).pass ⟨rfl, rfl, fun cell => rfl⟩
        consumerErrors := herrors
        committed := congrArg (· + 1) hcommits
        errors := rfl
        lastSuccess := rfl
        waits := ⟨_, rfl, rfl⟩ }⟩
  · exact ⟨⟨run.timeline.now, [poll, commit (.failed cause)],
        some (consumer.engine.handleBatch batch t).1, _⟩,
      { began := rfl, ended := rfl, polls := rfl, contacts := List.append_assoc .., handled := rfl,
        shape := .failedCommit (consumer.engine.handleBatch batch t).1 hfilled hlength cause,
        batches := rfl, events := rfl, rejected := rfl, commitFailures := rfl, least := rfl,
        bound := rfl, workers := hworkers, inTime := hinTime _ rfl
        asked := ⟨_, rfl, by rw [hanswer]; rfl⟩
        messages := hmessages.trans (List.append_nil _).symm
        handles := fun h => (hhandles h).pass ⟨rfl, rfl, fun cell => rfl⟩
        consumerErrors := congrArg (· + 1) herrors
        committed := congrArg (· + 1) hcommits
        errors := rfl
        lastSuccess := rfl
        waits := ⟨_, rfl, (if_pos rfl).mpr (waits_backOff consumer _)⟩ }⟩

/-- What a turn adds to a run, whichever way it goes. -/
theorem adds_of_step (hstep : consumer.step run = some run') :
    ∃ turn, run.Adds consumer turn run' := by
  obtain ⟨polled, hears, hends⟩ := step_ends hstep
  rcases hends with hfailed | hidle | ⟨batch, hanswer, hfilled, hcommit⟩
  · exact adds_of_poll rfl hears (.inl hfailed)
  · exact adds_of_poll rfl hears (.inr hidle)
  · exact adds_of_commit hanswer hfilled hears hcommit

end Consumer

end ChangeFeed
