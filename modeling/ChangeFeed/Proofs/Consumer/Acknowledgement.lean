import ChangeFeed.Log.Scripted
import ChangeFeed.Proofs.Consumer.Turn
import ChangeFeed.Proofs.Engine.InMemory

/-!
# What a run takes and acknowledges

A consumer works through the script of a scripted log, past polls that fail and topics that are
idle, until it is told to stop. `Run.Stands` says where a run is by three numbers: of the batches
that were delivered, of those that were handled, and of those that were acknowledged. A poll raises
the first, handling a batch the second, a commit the third (`Run.Stands.poll`,
`Run.Stands.process`, `Run.Stands.commit`), and all three agree again when a turn is over
(`Run.Stands.step`). So no batch is acknowledged before it is handled, and wherever the stop signal
ends the run, it leaves no batch half done. How many batches that makes the number of polls tells
(`Run.Asked`). `Consumer.acknowledged_of_run` puts both together.
-/

namespace ChangeFeed

variable {σ : Type}

/-! ## Where a run stands -/

/-- A poll of a scripted log delivers nothing and leaves the script as it is, or it delivers the
next batch. -/
theorem ScriptedLog.poll_cases (log : ScriptedLog) (wait : Duration) :
    (messagesOf (log.poll wait).answer = [] ∧
      (log.poll wait).after.batches = log.batches ∧
      (log.poll wait).after.lastOffset = log.lastOffset ∧
      (log.poll wait).after.commits = log.commits) ∨
    ∃ batch rest, log.batches = batch :: rest ∧
      log.poll wait = .now (.ok batch) (log.deliver batch rest) := by
  unfold poll
  split
  · exact .inl ⟨rfl, rfl, rfl, rfl⟩
  · split
    · next batch rest hbatches => exact .inr ⟨batch, rest, hbatches, rfl⟩
    · exact .inl ⟨rfl, rfl, rfl, rfl⟩

/-- The offset of the last message of each batch that has one. -/
def lastOffsets (batches : List (List Message)) : List Int64 :=
  batches.filterMap fun batch => batch.getLast?.map Message.offset

/-- A run that began at `t` has had the first `taken` batches of the script delivered, has handled
the first `worked` of them and acknowledged the first `acked`. -/
structure Run.Stands (engine : Engine σ) (script : List (List Message)) (t : Timeline (Site σ))
    (taken worked acked : Nat) (run : Run σ ScriptedLog) : Prop where
  taken_le : taken ≤ script.length
  left : run.log.batches = script.drop taken
  lastOffset : run.log.lastOffset = (script.take taken).flatten.getLast?.map Message.offset
  delivered : delivered run.contacts = (script.take taken).flatten
  messages : run.handled.map (·.1) = (script.take worked).flatten
  handles : engine.Handles run.handled t run.timeline
  batches : run.summary.batches = (script.take worked).countP (!·.isEmpty)
  rejected : run.summary.rejected = run.handled.countP (!·.2.isApplied)
  events : run.summary.events = (script.take worked).flatten.length
  commits : run.log.commits = lastOffsets (script.take acked)
  noted : run.log.commits.length = run.contacts.countP (·.stage = .commit)
  /-- Every commit found all that was delivered before it processed. -/
  inTime : ∀ earlier contact later, run.contacts = earlier ++ contact :: later →
    contact.stage = .commit →
    contact.recorder.processed =
      t.state.recorder.processed + (ChangeFeed.delivered earlier).length

/-- The messages of one batch more stand behind those of the batches before. -/
theorem flatten_take_succ {script : List (List Message)} {taken : Nat} {batch : List Message}
    (h : script[taken]? = some batch) :
    (script.take (taken + 1)).flatten = (script.take taken).flatten ++ batch := by
  rw [List.take_add_one, h, List.flatten_append]
  exact congrArg _ (List.append_nil batch)

/-- One batch more is counted, unless it is empty. -/
theorem countP_take_succ {script : List (List Message)} {taken : Nat} {batch : List Message}
    (h : script[taken]? = some batch) :
    (script.take (taken + 1)).countP (!·.isEmpty) =
      (script.take taken).countP (!·.isEmpty) + if batch = [] then 0 else 1 := by
  rw [List.take_add_one, h, List.countP_append]
  cases batch <;> rfl

/-- One batch more has the offset of its last message noted, if it has one. -/
theorem lastOffsets_take_succ {script : List (List Message)} {taken : Nat}
    {batch : List Message} (h : script[taken]? = some batch) :
    lastOffsets (script.take (taken + 1)) =
      lastOffsets (script.take taken) ++ (batch.getLast?.map Message.offset).toList := by
  unfold lastOffsets
  rw [List.take_add_one, h, List.filterMap_append]
  cases hlast : batch.getLast? <;> simp [hlast]

namespace Run.Stands

variable {engine : Engine σ} {script : List (List Message)} {t : Timeline (Site σ)}
  {run run' : Run σ ScriptedLog}

/-- A poll delivers a batch or nothing; what was handled and what was acknowledged stay. -/
theorem poll {taken acked taken' : Nat} {contact : Contact}
    (h : run.Stands engine script t taken taken acked) (hpolls : run.Polls contact run')
    (hcommits : run'.log.commits = run.log.commits) (hle : taken' ≤ script.length)
    (hleft : run'.log.batches = script.drop taken')
    (hlast : run'.log.lastOffset = (script.take taken').flatten.getLast?.map Message.offset)
    (hdelivered : (script.take taken).flatten ++ contact.messages =
      (script.take taken').flatten) :
    run'.Stands engine script t taken' taken acked where
  taken_le := hle
  left := hleft
  lastOffset := hlast
  delivered := by rw [hpolls.contacts, delivered_snoc, h.delivered, hdelivered]
  messages := by rw [hpolls.handled, h.messages]
  handles := by
    rw [hpolls.handled]
    exact h.handles.pass hpolls.passes
  batches := by rw [hpolls.summary, h.batches]
  rejected := by rw [hpolls.summary, hpolls.handled, h.rejected]
  events := by rw [hpolls.summary, h.events]
  commits := by rw [hcommits, h.commits]
  noted := by
    rw [hcommits, h.noted, hpolls.contacts, List.countP_append, List.countP_singleton,
      hpolls.stage]
    rfl
  inTime := by
    rw [hpolls.contacts]
    refine split_snoc h.inTime fun hcommit => ?_
    rw [hpolls.stage] at hcommit
    cases hcommit

/-- Handling the batch that was delivered last. -/
theorem process (consumer : Consumer σ ScriptedLog) {worked acked : Nat} {batch : List Message}
    (h : run.Stands consumer.engine script t (worked + 1) worked acked)
    (hbatch : script[worked]? = some batch) (hsome : batch ≠ []) :
    (consumer.process batch run).Stands consumer.engine script t (worked + 1) (worked + 1)
      acked := by
  have hlength := consumer.engine.length_handleAll batch run.timeline
  -- The messages with their outcomes are the batch on one side and the report on the other.
  have hfirst : (batch.zip (consumer.engine.handleAll batch run.timeline).1).map (·.1) = batch :=
    List.map_fst_zip (Nat.le_of_eq hlength.symm)
  have hsecond : (batch.zip (consumer.engine.handleAll batch run.timeline).1).map (·.2) =
      (consumer.engine.handleAll batch run.timeline).1 :=
    List.map_snd_zip (Nat.le_of_eq hlength)
  constructor
  case taken_le => exact h.taken_le
  case left => exact h.left
  case lastOffset => exact h.lastOffset
  case delivered => exact h.delivered
  case messages =>
    show List.map (·.1) (run.handled ++ batch.zip _) = _
    rw [List.map_append, hfirst, h.messages, flatten_take_succ hbatch]
  case handles => exact (h.handles.handleAll batch).pass ⟨rfl, rfl, fun _ => rfl⟩
  case batches =>
    show run.summary.batches + 1 = _
    rw [h.batches, countP_take_succ hbatch, if_neg hsome]
  case rejected =>
    show run.summary.rejected + (consumer.engine.handleAll batch run.timeline).1.countP _ =
      (run.handled ++ batch.zip _).countP _
    rw [h.rejected, List.countP_append, ← hsecond, List.countP_map, hsecond]
    rfl
  case events =>
    show run.summary.events + batch.length = _
    rw [h.events, flatten_take_succ hbatch, List.length_append]
  case commits => exact h.commits
  case noted => exact h.noted
  case inTime => exact h.inTime

/-- Acknowledging the batch that was handled last. -/
theorem commit {stop : StopSignal} {clock : WallClock} {acked : Nat} {batch : List Message}
    (h : run.Stands engine script t (acked + 1) (acked + 1) acked)
    (hbatch : script[acked]? = some batch) (hsome : batch ≠ [])
    (hcommit : Consumer.commit ⟨engine, ScriptedLog.client, stop, clock⟩ run = some run') :
    run'.Stands engine script t (acked + 1) (acked + 1) (acked + 1) := by
  -- The last message that was delivered is the last one of the batch.
  have hoffset := List.getLast?_eq_some_getLast hsome
  have hlast : run.log.lastOffset = some (batch.getLast hsome).offset := by
    rw [h.lastOffset, flatten_take_succ hbatch, List.getLast?_append, hoffset]
    rfl
  cases hcommit
  constructor
  case taken_le => exact h.taken_le
  case left => exact h.left
  case lastOffset => exact h.lastOffset
  case delivered =>
    show ChangeFeed.delivered (run.contacts ++ [_]) = _
    rw [delivered_snoc, h.delivered]
    exact List.append_nil _
  case messages => exact h.messages
  case handles => exact h.handles.pass ⟨rfl, rfl, fun cell => rfl⟩
  case batches => exact h.batches
  case rejected => exact h.rejected
  case events => exact h.events
  case commits =>
    show run.log.commits ++ run.log.lastOffset.toList = _
    rw [hlast, h.commits, lastOffsets_take_succ hbatch, hoffset]
    rfl
  case noted =>
    show (run.log.commits ++ run.log.lastOffset.toList).length =
      List.countP (fun contact : Contact => contact.stage = .commit) (run.contacts ++ [_])
    rw [hlast, List.length_append, h.noted, List.countP_append]
    rfl
  case inTime =>
    refine split_snoc h.inTime fun _ => ?_
    -- The commit finds handled what was delivered, and what is handled is processed.
    show run.timeline.state.recorder.processed = _
    rw [h.handles.processed, h.delivered, ← h.messages, List.length_map]

/-- Handling and acknowledging a batch without messages would change nothing. -/
theorem skip {taken : Nat} (h : run.Stands engine script t (taken + 1) taken taken)
    (hempty : script[taken]? = some []) :
    run.Stands engine script t (taken + 1) (taken + 1) (taken + 1) := by
  have hflatten : (script.take (taken + 1)).flatten = (script.take taken).flatten := by
    rw [flatten_take_succ hempty, List.append_nil]
  refine { h with messages := ?_, batches := ?_, events := ?_, commits := ?_ }
  · rw [h.messages, hflatten]
  · rw [h.batches, countP_take_succ hempty, if_pos rfl]
    rfl
  · rw [h.events, hflatten]
  · rw [h.commits, lastOffsets_take_succ hempty]
    exact (List.append_nil _).symm

/-- A turn that finds every batch that was delivered acknowledged leaves it so. -/
theorem step {stop : StopSignal} {clock : WallClock} {taken : Nat}
    (h : run.Stands engine script t taken taken taken)
    (hstep : Consumer.step ⟨engine, ScriptedLog.client, stop, clock⟩ run = some run') :
    ∃ taken', run'.Stands engine script t taken' taken' taken' := by
  obtain ⟨contact, polled, hpolls, hlog, hmessages, hrest⟩ := Consumer.step_cases rfl hstep
  -- What the client of a scripted log answers is what the log itself does.
  change polled.log = (run.log.poll engine.tuning.pollTimeout).after at hlog
  change contact.messages = messagesOf (run.log.poll engine.tuning.pollTimeout).answer at hmessages
  rcases run.log.poll_cases engine.tuning.pollTimeout with
    ⟨hnone, hbatches, hlast, hcommits⟩ | ⟨batch, rest, hbatches, hpoll⟩
  · -- The poll fails, or the topic is idle.
    rw [hnone] at hmessages
    rw [if_pos hmessages] at hrest
    subst hrest
    refine ⟨taken, h.poll hpolls (by rw [hlog, hcommits]) h.taken_le ?_ ?_ ?_⟩
    · rw [hlog, hbatches, h.left]
    · rw [hlog, hlast, h.lastOffset]
    · rw [hmessages, List.append_nil]
  · -- The next batch is delivered.
    rw [hpoll] at hlog hmessages
    have hleft := h.left
    rw [hbatches] at hleft
    have hbatch : script[taken]? = some batch := by
      rw [← List.head?_drop, ← hleft]
      rfl
    have hlt : taken < script.length := (List.getElem?_eq_some_iff.1 hbatch).1
    have hcontact : contact.messages = batch := hmessages
    have hpolled : polled.Stands engine script t (taken + 1) taken taken := by
      refine h.poll hpolls (by rw [hlog]; rfl) hlt ?_ ?_ ?_
      · rw [hlog, ← List.tail_drop, ← hleft]
        rfl
      · rw [hlog, flatten_take_succ hbatch, List.getLast?_append, Option.map_or, ← h.lastOffset]
        rfl
      · rw [hcontact, flatten_take_succ hbatch]
    rw [hcontact] at hrest
    by_cases hempty : batch = []
    · rw [if_pos hempty] at hrest
      subst hrest hempty
      exact ⟨taken + 1, hpolled.skip hbatch⟩
    · rw [if_neg hempty] at hrest
      have hprocessed := process ⟨engine, ScriptedLog.client, stop, clock⟩ hpolled hbatch hempty
      exact ⟨taken + 1, hprocessed.commit hbatch hempty hrest⟩

end Run.Stands

/-! ## How far a run is -/

/-- A poll of a scripted log uses up a failure, if any is left, and else a batch, if any is left. -/
theorem ScriptedLog.poll_uses (log : ScriptedLog) (wait : Duration) :
    (log.poll wait).after.failingPolls.toNat = log.failingPolls.toNat - 1 ∧
      (log.poll wait).after.batches.length =
        if log.failingPolls.toNat = 0 then log.batches.length - 1 else log.batches.length := by
  unfold poll
  by_cases hfail : log.failingPolls = 0
  · rw [if_neg (not_not_intro hfail)]
    have hzero : log.failingPolls.toNat = 0 := by rw [hfail]; rfl
    rw [if_pos hzero]
    cases hbatches : log.batches with
    | nil =>
      dsimp only
      rw [hbatches, hzero]
      exact ⟨rfl, rfl⟩
    | cons batch rest =>
      show log.failingPolls.toNat = _ ∧ _
      rw [hzero]
      exact ⟨rfl, rfl⟩
  · rw [if_pos hfail]
    have hpos : log.failingPolls.toNat ≠ 0 := fun h => hfail (UInt32.toNat_inj.1 h)
    rw [if_neg hpos]
    refine ⟨?_, rfl⟩
    show (log.failingPolls - 1).toNat = _
    rw [UInt32.toNat_sub_of_le]
    · rfl
    · rw [UInt32.le_iff_toNat_le]
      have hone : (1 : UInt32).toNat = 1 := rfl
      omega

/-- The first `failures` polls of a run fail, and each of those behind them asks for a batch. -/
structure Run.Asked (script : List (List Message)) (failures : UInt32)
    (run : Run σ ScriptedLog) : Prop where
  failing : run.log.failingPolls.toNat = failures.toNat - run.polls
  left : run.log.batches.length = script.length - (run.polls - failures.toNat)

/-- A turn asks for one batch more. -/
theorem Run.Asked.step {engine : Engine σ} {stop : StopSignal} {clock : WallClock}
    {script : List (List Message)} {failures : UInt32} {run run' : Run σ ScriptedLog} (h : run.Asked script failures)
    (hstep : Consumer.step ⟨engine, ScriptedLog.client, stop, clock⟩ run = some run') :
    run'.Asked script failures := by
  obtain ⟨contact, polled, hpolls, hlog, -, hrest⟩ := Consumer.step_cases rfl hstep
  change polled.log = (run.log.poll engine.tuning.pollTimeout).after at hlog
  obtain ⟨hfailing, hleft⟩ := run.log.poll_uses engine.tuning.pollTimeout
  have hpolled : polled.Asked script failures := by
    constructor
    · rw [hlog, hfailing, hpolls.polls, h.failing]
      omega
    · rw [hlog, hleft, hpolls.polls, h.left, h.failing]
      split <;> omega
  split at hrest
  · rw [hrest]
    exact hpolled
  · -- Neither handling the batch nor the commit asks for anything.
    cases hrest
    exact ⟨hpolled.failing, hpolled.left⟩

/-! ## A whole run -/

variable {engine : Engine σ} {stop : StopSignal} {clock : WallClock} {script : List (List Message)}

/-- After any chain of turns every batch that was delivered is acknowledged, if it was so before. -/
theorem Run.Stands.turns {t : Timeline (Site σ)} {taken : Nat} {run run' : Run σ ScriptedLog}
    (h : run.Stands engine script t taken taken taken)
    (turns : Consumer.Turns ⟨engine, ScriptedLog.client, stop, clock⟩ run run') :
    ∃ taken', run'.Stands engine script t taken' taken' taken' := by
  induction turns with
  | refl => exact ⟨taken, h⟩
  | tail _ hstep ih =>
    obtain ⟨before, hbefore⟩ := ih
    exact hbefore.step hstep

/-- After any chain of turns each poll that was not made to fail has asked for a batch. -/
theorem Run.Asked.turns {failures : UInt32} {run run' : Run σ ScriptedLog}
    (h : run.Asked script failures)
    (turns : Consumer.Turns ⟨engine, ScriptedLog.client, stop, clock⟩ run run') :
    run'.Asked script failures := by
  induction turns with
  | refl => exact h
  | tail _ hstep ih => exact ih.step hstep

/-- A run that opens has had nothing delivered. -/
theorem Run.stands_enter (engine : Engine σ) (script : List (List Message)) (failures : UInt32)
    (t : Timeline (Site σ)) (health : Health) :
    (Consumer.enter (.new t ((ScriptedLog.ofBatches script).failNextPolls failures) health)).Stands
      engine script t 0 0 0 where
  taken_le := Nat.zero_le _
  left := rfl
  lastOffset := rfl
  delivered := rfl
  messages := rfl
  handles := Engine.Handles.start.pass ⟨rfl, rfl, fun _ => rfl⟩
  batches := rfl
  rejected := rfl
  events := rfl
  commits := rfl
  noted := rfl
  inTime := by
    intro earlier contact later h
    cases earlier <;> cases h

/-- A run that opens has not asked for anything. -/
theorem Run.asked_enter (script : List (List Message)) (failures : UInt32)
    (t : Timeline (Site σ)) (health : Health) :
    (Consumer.enter (.new t ((ScriptedLog.ofBatches script).failNextPolls failures) health)).Asked
      script failures where
  failing := rfl
  left := by
    show script.length = script.length - (0 - failures.toNat)
    omega

/-- A run works through a part of the script from its beginning, a batch with each poll that is not
made to fail. Wherever the stop signal ends it, the messages of that part were handled, each once
and in order, its batches were acknowledged by the offsets of their last messages, the rest was not
asked for, and the summary counts that part. And at any time, whatever was delivered before a commit
was processed by then. -/
theorem Consumer.acknowledged_of_run (engine : Engine σ) (stop : StopSignal) (clock : WallClock)
    (script : List (List Message)) (failures : UInt32) (t : Timeline (Site σ))
    (health : Health) :
    let consumer : Consumer σ ScriptedLog := ⟨engine, ScriptedLog.client, stop, clock⟩
    let start := Run.new t ((ScriptedLog.ofBatches script).failNextPolls failures) health
    (∀ turns run, consumer.run turns start = some run →
      ∃ taken ≤ script.length, taken = min script.length (run.polls - failures.toNat) ∧
        run.handled.map (·.1) = (script.take taken).flatten ∧
        engine.Handles run.handled t run.timeline ∧
        run.log.commits = lastOffsets (script.take taken) ∧
        run.log.batches = script.drop taken ∧
        run.summary.batches = (script.take taken).countP (!·.isEmpty) ∧
        run.summary.events = (script.take taken).flatten.length ∧
        run.summary.rejected = run.handled.countP (!·.2.isApplied)) ∧
    ∀ run, consumer.Turns (Consumer.enter start) run →
      run.log.commits.length = run.contacts.countP (·.stage = .commit) ∧
      ∀ earlier contact later, run.contacts = earlier ++ contact :: later →
        contact.stage = .commit →
        contact.recorder.processed =
          t.state.recorder.processed + (delivered earlier).length := by
  have henter := Run.stands_enter engine script failures t health
  refine ⟨fun turns run hrun => ?_, fun run turns => ?_⟩
  · obtain ⟨last, hloop, hleave⟩ := Option.map_eq_some_iff.1 hrun
    obtain ⟨taken, h⟩ := henter.turns (Consumer.turns_of_loop turns hloop)
    have hasked := (Run.asked_enter script failures t health).turns
      (Consumer.turns_of_loop turns hloop)
    -- What is left of the script tells how much of it was taken.
    have htaken : taken = min script.length (last.polls - failures.toNat) := by
      have hleft := hasked.left
      have hle := h.taken_le
      rw [h.left, List.length_drop] at hleft
      omega
    subst hleave
    exact ⟨taken, h.taken_le, htaken, h.messages, h.handles.pass ⟨rfl, rfl, fun _ => rfl⟩,
      h.commits, h.left, h.batches, h.events, h.rejected⟩
  · obtain ⟨taken, h⟩ := henter.turns turns
    exact ⟨h.noted, h.inTime⟩

/-- A run past a failing poll and an empty batch, told to stop when a third batch is still left. -/
theorem Consumer.acknowledged_of_run_stopped :
    let tombstone (offset : Int64) : Message := ⟨"shop.public.customers", 0, offset, none⟩
    let script := [[tombstone 0, tombstone 1], [], [tombstone 2]]
    let log := (ScriptedLog.ofBatches script).failNextPolls 1
    let t : Timeline (Site MemoryStore) := .start (.new .new)
    let consumer : Consumer MemoryStore ScriptedLog :=
      ⟨.inMemory .builtIn .default, ScriptedLog.client, ⟨none, some 3⟩, .running 0⟩
    ∃ run, consumer.run 5 (.new t log (.new 0 0)) = some run ∧
      ∃ taken ≤ script.length, run.log.commits = lastOffsets (script.take taken) ∧
        run.log.batches = script.drop taken := by
  intro tombstone script log t consumer
  obtain ⟨run, hrun⟩ : ∃ run, consumer.run 5 (.new t log (.new 0 0)) = some run :=
    Option.isSome_iff_exists.1 (by decide)
  obtain ⟨taken, hle, -, -, -, hcommits, hleft, -⟩ :=
    (acknowledged_of_run consumer.engine consumer.stop consumer.clock script 1 t (.new 0 0)).1 5 run
      hrun
  exact ⟨run, hrun, taken, hle, hcommits, hleft⟩

end ChangeFeed
