import ChangeFeed.Proofs.Consumer.Bookkeeping

/-!
# Commits that fail

The failures that a consumer counts are those since its last success, and a poll that succeeds is
one. A commit comes right behind such a poll, so when it fails it is the only failure that is
counted. However many commits have failed in a row, the loop waits as after the first one, and there
are never enough failures for the worker to count as unhealthy. All that can make it unhealthy is
the wall clock, which may show that the poll is too long ago (`Consumer.wait_of_failedCommit`).
-/

namespace ChangeFeed

variable {σ ρ : Type}

/-- A consumer is healthy if it has too few errors to be unhealthy and, unless it has none, the wall
clock shows no more than five minutes since the last success. -/
theorem Health.isHealthy_eq_true_iff (health : Health) (reading : Int64) :
    health.isHealthy reading = true ↔ health.errors.toNat < unhealthyThreshold ∧
      (health.errors = 0 ∨ reading.toInt ≤ health.lastSuccess.toInt + 300000) := by
  have hlong : ¬longestFailing.nanos < (health.timeSinceSuccess reading).nanos ↔
      reading.toInt ≤ health.lastSuccess.toInt + 300000 := by
    have hlongest : longestFailing.nanos = 300000 * 10 ^ 6 := rfl
    have hlargest : Int64.maxValue.toInt = 2 ^ 63 - 1 := rfl
    unfold timeSinceSuccess Duration.ofMillis
    rw [Duration.nanos_ofNanos, Duration.maxNanos, hlongest, hlargest]
    omega
  have hnone : ¬0 < health.errors ↔ health.errors = 0 := by
    rw [UInt32.pos_iff_ne_zero, not_not]
  unfold isHealthy
  split
  · next hmany =>
    exact iff_of_false Bool.false_ne_true fun h => Nat.not_lt.2 hmany h.1
  · next hfew =>
    simp only [Bool.not_eq_true', Bool.and_eq_false_iff, decide_eq_false_iff_not, hlong, hnone]
    exact (and_iff_right (Nat.lt_of_not_le hfew)).symm

/-- A turn whose last contact is a commit has a poll before it that did not fail. -/
theorem Turn.Shape.poll_of_commit {contacts : List Contact} {report : Option BatchReport}
    {commit : Contact}
    (h : Turn.Shape (contacts.map fun contact => (contact.stage, contact.result)) report)
    (hlast : contacts.getLast? = some commit) (hstage : commit.stage = .commit) :
    ∃ poll, contacts = [poll, commit] ∧ poll.stage = .poll ∧ poll.isFailed = false := by
  have pair : ∀ {messages : List Message} {result : ContactResult},
      contacts.map (fun contact => (contact.stage, contact.result)) =
        [(.poll, .batch messages), (.commit, result)] →
      ∃ poll, contacts = [poll, commit] ∧ poll.stage = .poll ∧ poll.isFailed = false := by
    intro messages result hmap
    obtain ⟨poll, rest, rfl, hpoll, hrest⟩ := List.map_eq_cons_iff.1 hmap
    obtain ⟨last, rfl, -⟩ := List.map_eq_singleton_iff.1 hrest
    obtain ⟨hpollStage, hresult⟩ := Prod.mk.inj hpoll
    cases hlast
    refine ⟨poll, rfl, hpollStage, ?_⟩
    unfold Contact.isFailed
    rw [hresult]
  have single : ∀ {result : ContactResult},
      contacts.map (fun contact => (contact.stage, contact.result)) ≠ [(.poll, result)] := by
    intro result hmap
    obtain ⟨poll, rfl, hpoll⟩ := List.map_eq_singleton_iff.1 hmap
    cases hlast
    cases (Prod.mk.inj hpoll).1.symm.trans hstage
  -- A turn with a commit has two contacts; in a turn with one, that one is a poll.
  generalize hmap : contacts.map (fun contact => (contact.stage, contact.result)) = shape at h
  cases h with
  | failedPoll cause => exact absurd hmap single
  | idle => exact absurd hmap single
  | committed => exact pair hmap
  | failedCommit => exact pair hmap

/-- A turn that ends with a failed commit leaves one failure counted, behind the success of its
poll, and waits as after one. -/
theorem Run.Adds.of_failedCommit {consumer : Consumer σ ρ} {turn : Turn} {run run' : Run σ ρ}
    {commit : Contact} (h : run.Adds consumer turn run')
    (hlast : run'.contacts.getLast? = some commit) (hstage : commit.stage = .commit)
    (hfailed : commit.isFailed = true) :
    run'.health.errors = 1 ∧
      consumer.stop.Waits run'.polls commit.time
        (min run'.health.backoff.nanos Duration.longestTimer.nanos) run'.timeline.now ∧
      ∃ poll, run'.contacts = run.contacts ++ [poll, commit] ∧ poll.stage = .poll ∧
        poll.isFailed = false ∧ run'.health.lastSuccess = consumer.clock.reading poll.time := by
  obtain ⟨last, hturn, hwaits⟩ := h.waits
  rw [h.contacts, List.getLast?_append, hturn] at hlast
  cases hlast
  obtain ⟨poll, hcontacts, hpollStage, hpoll⟩ := h.shape.poll_of_commit hturn hstage
  -- The poll set the counter back, and the commit moves it to one.
  have herrors := h.errors
  rw [hcontacts] at herrors
  unfold failuresInARow at herrors
  simp only [List.foldl_cons, List.foldl_nil, hpoll, hfailed, if_true, Bool.false_eq_true,
    if_false] at herrors
  rw [if_pos hfailed, h.ended] at hwaits
  have hlastSuccess := h.lastSuccess
  rw [hcontacts] at hlastSuccess
  unfold lastSuccessOf at hlastSuccess
  simp only [List.foldl_cons, List.foldl_nil, hpoll, hfailed, if_true, Bool.false_eq_true,
    if_false] at hlastSuccess
  exact ⟨UInt32.toNat_inj.1 herrors, hwaits, poll, hcontacts ▸ h.contacts, hpollStage, hpoll,
    hlastSuccess⟩

/-- Whenever a commit fails, whatever the log answered before and however many commits have failed
in a row, exactly one failure is counted, and the loop waits as is due after one. That is too few
for the worker to count as unhealthy, so that it does only when the wall clock shows more than five
minutes since the poll that the commit is about. -/
theorem Consumer.wait_of_failedCommit (consumer : Consumer σ ρ) (t : Timeline (Site σ)) (log : ρ)
    (worker prior : Nat) (least bound : Duration) (made : Int64) :
    let health := (Health.withBackoff worker least bound made).recordErrors prior
    ∀ run commit, consumer.Proceeds (enter (.new t log health)) run →
      run.contacts.getLast? = some commit → commit.stage = .commit → commit.isFailed = true →
      run.health.errors = 1 ∧
        consumer.stop.Waits run.polls commit.time
          (min (health.dueNanos 1) Duration.longestTimer.nanos) run.timeline.now ∧
        ∃ earlier poll, run.contacts = earlier ++ [poll, commit] ∧ poll.stage = .poll ∧
          poll.isFailed = false ∧ ∀ reading, run.health.isHealthy reading = true ↔
            reading.toInt ≤ (consumer.clock.reading poll.time).toInt + 300000 := by
  intro health run commit hreached hlast hstage hfailed
  cases hreached with
  | refl => cases hlast
  | tail hbefore hnext =>
    -- The commit belongs to the last turn, whose poll has set the health back.
    obtain ⟨turn, hadds⟩ := adds_of_step hnext.2
    obtain ⟨herrors, hwaits, poll, hcontacts, hpollStage, hpoll, hlastSuccess⟩ :=
      hadds.of_failedCommit hlast hstage hfailed
    have hlimits := Health.minBackoff_le_maxBackoff worker prior least bound made
    obtain ⟨turns, hbooks⟩ :=
      (Run.books_enter consumer t log health).proceeds hlimits (hbefore.tail hnext)
    have hdue : run.health.backoff.nanos = health.dueNanos 1 := by
      rw [Health.nanos_backoff_of_limits hbooks.least hbooks.bound hlimits, herrors]
      rfl
    rw [hdue] at hwaits
    refine ⟨herrors, hwaits, _, poll, hcontacts, hpollStage, hpoll, fun reading => ?_⟩
    -- One failure is too few to be unhealthy by their number, and enough for the clock to matter.
    have hfew : (1 : UInt32).toNat < Health.unhealthyThreshold := by decide
    have hany : (1 : UInt32) ≠ 0 := by decide
    rw [Health.isHealthy_eq_true_iff, herrors, hlastSuccess]
    simp only [hfew, hany, true_and, false_or]

/-- A run whose only commit fails, at the date at which the wall clock starts. It is healthy for
five minutes and not for longer. -/
theorem Consumer.wait_of_failedCommit_once :
    let log : FaultyLog ScriptedLog :=
      ⟨.ofBatches [[⟨"shop.public.customers", 0, 0, none⟩]], 0, 0, [], [1]⟩
    let t : Timeline (Site MemoryStore) := .start (.new .new)
    let consumer : Consumer MemoryStore (FaultyLog ScriptedLog) :=
      ⟨.inMemory .builtIn .default, FaultyLog.client ScriptedLog.client, ⟨none, some 2⟩,
        .running 0⟩
    let health := (Health.withBackoff 0 (.ofMillis 10) (.ofMillis 1000) 0).recordErrors 0
    ∃ run commit, consumer.Proceeds (enter (.new t log health)) run ∧
      run.contacts.getLast? = some commit ∧ commit.stage = .commit ∧ commit.isFailed = true ∧
      run.health.errors = 1 ∧
      consumer.stop.Waits run.polls commit.time
        (min (health.dueNanos 1) Duration.longestTimer.nanos) run.timeline.now ∧
      run.health.isHealthy 300000 = true ∧ run.health.isHealthy 300001 = false := by
  intro log t consumer health
  obtain ⟨run, hstep⟩ : ∃ run, consumer.step (enter (.new t log health)) = some run :=
    Option.isSome_iff_exists.1 (by decide)
  have hends : (consumer.step (enter (.new t log health))).map (fun run =>
      (run.contacts.getLast?.map fun contact => (contact.stage, contact.isFailed),
        run.contacts.all (·.time = 0))) = some (some (.commit, true), true) := by
    decide
  rw [hstep] at hends
  obtain ⟨hcommit, htimes⟩ := Prod.mk.inj (Option.some.inj hends)
  obtain ⟨commit, hlast, hcommit⟩ := Option.map_eq_some_iff.1 hcommit
  obtain ⟨hstage, hfailed⟩ := Prod.mk.inj hcommit
  have hreached : consumer.Proceeds (enter (.new t log health)) run :=
    .single ⟨by decide, hstep⟩
  obtain ⟨herrors, hwaits, earlier, poll, hcontacts, -, -, hhealthy⟩ :=
    wait_of_failedCommit consumer t log 0 0 (.ofMillis 10) (.ofMillis 1000) 0 run commit hreached
      hlast hstage hfailed
  -- Both contacts are answered at the start, when the clock shows its date.
  have hpoll : poll.time = 0 := by
    have hmem : poll ∈ run.contacts := by simp [hcontacts]
    exact of_decide_eq_true (List.all_eq_true.1 htimes poll hmem)
  rw [hpoll] at hhealthy
  exact ⟨run, commit, hreached, hlast, hstage, hfailed, herrors, hwaits,
    (hhealthy 300000).2 (by decide), Bool.eq_false_iff.2 (mt (hhealthy 300001).1 (by decide))⟩

/-- Five commits in a row fail behind polls that deliver at once. The loop polls again every ten
milliseconds, where the waits that are due after so many failures grow from ten to eighty, and after
five failures in a row, which should be enough, the worker does not count as unhealthy. -/
theorem Consumer.failedCommits_in_a_row :
    let tombstone (offset : Int64) : Message := ⟨"shop.public.customers", 0, offset, none⟩
    let log : FaultyLog ScriptedLog :=
      ⟨.ofBatches [[tombstone 0], [tombstone 1], [tombstone 2], [tombstone 3], [tombstone 4]],
        0, 0, [], [1, 2, 3, 4, 5]⟩
    let t : Timeline (Site MemoryStore) := .start (.new .new)
    let consumer : Consumer MemoryStore (FaultyLog ScriptedLog) :=
      ⟨.inMemory .builtIn .default, FaultyLog.client ScriptedLog.client, ⟨none, some 5⟩,
        .running 0⟩
    let health := (Health.withBackoff 0 (.ofMillis 10) (.ofMillis 1000) 0).recordErrors 0
    let run := consumer.run 5 (.new t log health)
    let ofStage (stage : Stage) (run : Run MemoryStore (FaultyLog ScriptedLog)) : List Contact :=
      run.contacts.filter (·.stage = stage)
    run.map (fun run => (ofStage .poll run).map (·.isFailed)) =
        some [false, false, false, false, false] ∧
      run.map (fun run => (ofStage .commit run).map (·.isFailed)) =
        some [true, true, true, true, true] ∧
      run.map (fun run => (ofStage .poll run).map (·.time)) =
        some ([0, 10, 20, 30, 40].map (· * 10 ^ 6)) ∧
      [1, 2, 3, 4].map health.dueNanos = [10, 20, 40, 80].map (· * 10 ^ 6) ∧
      Health.unhealthyThreshold = 5 ∧
      run.map (fun run => run.health.isHealthy (consumer.reading run)) = some true := by
  intro tombstone log t consumer health run ofStage
  exact ⟨by decide, by decide, by decide, by decide, rfl, by decide⟩

end ChangeFeed
