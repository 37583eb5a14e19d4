import ChangeFeed.Proofs.Engine.Alike
import ChangeFeed.Proofs.Engine.Atomicity
import ChangeFeed.Proofs.Engine.Colocation
import ChangeFeed.Proofs.Engine.Comparison

/-!
# Comparing partitions is advice only

An engine that compares the partitions of a record and of its parent does to its store, and counts,
what one does that does not compare them, as long as the store's puts and removals depend neither on
the time nor on lookups. That is the first half of `Engine.advisory_serveAll`. The second half says
what the comparison adds to the journal: for each request the warnings that `Engine.dueWarnings`
computes from the replies of the store, and no others (`Engine.warns_serve`).
-/

namespace ChangeFeed

variable {σ α ε : Type}

namespace Engine

/-! ## Warnings that are due -/

/-- The partitions of a place and of its parent, if the store tells first the one and then the
other, and takes no longer for both together than a single call may. -/
def told? (engine : Engine σ) (place parent : Affinity) (t : Timeline (Site σ)) :
    Option (Nat × Nat) :=
  let limit := engine.tuning.storeTimeout.timer
  let first := engine.partitionOf place t
  match first.delay, first.answer with
  | some delay, .ok own =>
    let second := engine.partitionOf parent (t.answered delay first)
    match second.delay, second.answer with
    | some delay', .ok expected =>
      if delay.timer.nanos + delay'.timer.nanos ≤ limit.nanos then some (own, expected) else none
    | _, _ => none
  | _, _ => none

/-- The warnings that are due about a place and its parent: one, if both are told to be in different
partitions. -/
def placeWarnings (engine : Engine σ) (place parent : Affinity) (t : Timeline (Site σ)) :
    List Journal.Line :=
  match engine.told? place parent t with
  | some (own, expected) =>
    if own = expected then [] else [violation place parent own expected]
  | none => []

/-- The warnings that are due once a record is written, if it has a parent and partitions are
compared. -/
def recordWarnings (engine : Engine σ) (record : Record) (t : Timeline (Site σ)) :
    List Journal.Line :=
  match record.affinity with
  | some parent =>
    if engine.tuning.verifyAffinity then
      engine.placeWarnings ⟨record.kind, record.key⟩ parent t
    else []
  | none => []

/-- The warnings that are due for a request: those for the record that it writes, if it is
applied. -/
def dueWarnings (engine : Engine σ) (request : Request) (t : Timeline (Site σ)) :
    List Journal.Line :=
  match engine.action? request, (engine.serve request t).1.isApplied with
  | some (.upsert op record), true =>
    engine.recordWarnings record (engine.change (.upsert op record) t).2
  | _, _ => []

/-- What a comparison finds are the partitions that are told. -/
theorem told?_eq_lookUp (engine : Engine σ) (place parent : Affinity) (t : Timeline (Site σ)) :
    engine.told? place parent t =
      match (engine.lookUp place parent t).1 with
      | some (.ok own, .ok expected) => some (own, expected)
      | _ => none := by
  unfold told?
  dsimp only
  rcases engine.lookUp_cases place parent t with
    ⟨delay, hdelay, -, ⟨delay', hdelay', hsum, h⟩ | ⟨left, -, hlate, h⟩⟩ | ⟨hlate, h⟩
  · rw [h, hdelay]
    cases hown : (engine.partitionOf place t).answer with
    | error e => rfl
    | ok own =>
      dsimp only
      rw [hdelay']
      cases hexpected : (engine.partitionOf parent
          (t.answered delay (engine.partitionOf place t))).answer with
      | error e => rfl
      | ok expected => exact if_pos hsum
  · rw [h, hdelay]
    cases hown : (engine.partitionOf place t).answer with
    | error e => rfl
    | ok own =>
      dsimp only
      -- The second answer would come too late.
      cases hdelay' : (engine.partitionOf parent
          (t.answered delay (engine.partitionOf place t))).delay with
      | none => rfl
      | some delay' =>
        split
        · next hsecond _ =>
          cases hsecond
          exact if_neg (Nat.not_le_of_lt (hlate delay' hdelay'))
        · rfl
  · rw [h]
    -- The first answer would come too late on its own.
    cases hdelay : (engine.partitionOf place t).delay with
    | none => rfl
    | some delay =>
      cases hown : (engine.partitionOf place t).answer with
      | error e => rfl
      | ok own =>
        dsimp only
        split
        · exact if_neg fun hle => Nat.not_le_of_lt (hlate delay hdelay)
            (Nat.le_trans (Nat.le_add_right _ _) hle)
        · rfl

/-! ## What is written to the journal -/

/-- What is written from one timeline to another holds some warnings, one behind the other, and no
other line about a record that is not where it belongs, unless the store reports one. -/
def Warns (engine : Engine σ) (warnings : List Journal.Line) (t t' : Timeline (Site σ)) : Prop :=
  ∃ before behind, t'.journal = t.journal ++ before ++ warnings ++ behind ∧
    ∀ line ∈ before ++ behind, line.ReportsMisplacement → engine.store.Writes line

namespace Warns

variable {engine : Engine σ} {warnings : List Journal.Line} {t t' t'' : Timeline (Site σ)}

/-- Where nothing is written there is no warning. -/
theorem of_journal (h : t'.journal = t.journal) : engine.Warns [] t t' :=
  ⟨[], [], by rw [h, List.append_nil, List.append_nil, List.append_nil], List.forall_mem_nil _⟩

/-- One stretch of the journal behind another, where the first one holds no warning. -/
theorem of_nil (h : engine.Warns [] t t') (h' : engine.Warns warnings t' t'') :
    engine.Warns warnings t t'' := by
  obtain ⟨before, behind, hfirst, hown⟩ := h
  obtain ⟨before', behind', hsecond, hown'⟩ := h'
  refine ⟨before ++ behind ++ before', behind', ?_, fun line hl => ?_⟩
  · rw [hsecond, hfirst, List.append_nil]
    simp only [List.append_assoc]
  · rw [List.append_assoc _ before', List.mem_append] at hl
    rcases hl with hl | hl
    · exact hown line hl
    · exact hown' line hl

/-- One stretch of the journal behind another, where the second one holds no warning. -/
theorem nil (h : engine.Warns warnings t t') (h' : engine.Warns [] t' t'') :
    engine.Warns warnings t t'' := by
  obtain ⟨before, behind, hfirst, hown⟩ := h
  obtain ⟨before', behind', hsecond, hown'⟩ := h'
  refine ⟨before, behind ++ (before' ++ behind'), ?_, fun line hl => ?_⟩
  · rw [hsecond, hfirst, List.append_nil]
    simp only [List.append_assoc]
  · rw [← List.append_assoc, List.mem_append] at hl
    rcases hl with hl | hl
    · exact hown line hl
    · exact hown' line hl

/-- One more line that is no warning. -/
theorem log (h : engine.Warns warnings t t') {level : Journal.Level} {message : String}
    {fields : List (String × Journal.Value)}
    (hline : ¬ (⟨level, message, fields⟩ : Journal.Line).ReportsMisplacement) :
    engine.Warns warnings t (t'.log level message fields) := by
  refine h.nil ⟨[], [⟨level, message, fields⟩], ?_, fun line hl hreports => ?_⟩
  · rw [List.append_nil, List.append_nil]
    rfl
  · rw [List.mem_singleton.1 hl] at hreports
    exact absurd hreports hline

end Warns

/-! ## Nothing but the comparison warns -/

section

variable (engine : Engine σ)

/-- An answer writes what the store reports. -/
theorem warns_answered (t : Timeline (Site σ)) (delay : Duration) {reply : Reply (Site σ) α}
    (hlines : ∀ line ∈ reply.lines, engine.store.Writes line) :
    engine.Warns [] t (t.answered delay reply) := by
  refine ⟨reply.lines, [], ?_, fun line hl _ => hlines line ?_⟩
  · rw [List.append_nil, List.append_nil]
    rfl
  · rwa [List.append_nil] at hl

/-- A call that is given up writes nothing. -/
theorem warns_givenUp (t : Timeline (Site σ)) (limit : Duration) (reply : Reply (Site σ) α) :
    engine.Warns [] t (t.givenUp limit reply) :=
  .of_journal rfl

/-- A single call writes no warning. -/
theorem warns_callOnce {request : Timeline (Site σ) → Reply (Site σ) (Except StoreError α)}
    (hlines : ∀ t, ∀ line ∈ (request t).lines, engine.store.Writes line) (t : Timeline (Site σ)) :
    engine.Warns [] t (engine.callOnce request t).2 := by
  obtain ⟨result, hcount⟩ := engine.callOnce_snd request t
  rw [hcount]
  have hwait : engine.Warns [] t
      (t.await? engine.tuning.storeTimeout (request t)).2 := by
    rcases t.await?_cases engine.tuning.storeTimeout (request t) with ⟨delay, -, -, h⟩ | h
    · rw [h]
      exact engine.warns_answered t delay (hlines t)
    · rw [h]
      exact engine.warns_givenUp t _ _
  exact hwait.nil (.of_journal rfl)

/-- The pause between two attempts writes no warning. -/
theorem warns_pause (policy : Retry.Policy) (causeMessage : ε → String) (attempt : Nat) (e : ε)
    (t : Timeline (Site σ)) : engine.Warns [] t (Retry.pause policy causeMessage attempt e t) := by
  have hwait : (Retry.nextWait policy attempt t).2.journal = t.journal := by
    unfold Retry.nextWait
    dsimp only
    split
    · split <;> rfl
    · rfl
  unfold Retry.pause
  dsimp only
  refine ((Warns.of_journal hwait).log ?_).nil (.of_journal rfl)
  apply Journal.Line.not_reportsMisplacement
  simp [String.toList_append]

/-- The calls of an action write no warning. -/
theorem warns_call (action : Action)
    {request : Timeline (Site σ) → Reply (Site σ) (Except StoreError α)}
    (hlines : ∀ t, ∀ line ∈ (request t).lines, engine.store.Writes line) (t : Timeline (Site σ)) :
    engine.Warns [] t (engine.call action request t).2 := by
  have hrun : engine.Warns [] t (Retry.run engine.tuning.retry StoreError.isRetryable
      StoreError.message (engine.callOnce request) t).2 :=
    Retry.loop_induct (P := engine.Warns [] t)
      (fun u h => h.nil (engine.warns_callOnce hlines u))
      (fun u n e h => h.nil (engine.warns_pause _ _ n e u))
      (fun _ _ _ h => h.log (Journal.Line.not_reportsMisplacement (by decide)))
      (fun _ _ _ h => h.nil (.of_journal rfl)) _ _ (.of_journal rfl)
  obtain ⟨elapsed, hcall⟩ := engine.call_snd action request t
  rw [hcall]
  exact hrun.nil (.of_journal rfl)

/-- The calls that an action needs write no warning. -/
theorem warns_change (action : Action) (t : Timeline (Site σ)) :
    engine.Warns [] t (engine.change action t).2 := by
  cases action with
  | upsert op record => exact engine.warns_call _ (fun _ _ hl => .put hl) t
  | delete kind key => exact engine.warns_call _ (fun _ _ hl => .remove hl) t

/-- The lookups of a comparison write no warning. -/
theorem warns_lookUp (place parent : Affinity) (t : Timeline (Site σ)) :
    engine.Warns [] t (engine.lookUp place parent t).2 := by
  have answered : ∀ (place : Affinity) t delay,
      engine.Warns [] t (t.answered delay (engine.partitionOf place t)) :=
    fun place t delay => engine.warns_answered t delay fun _ hl => .partitionOf hl
  rcases engine.lookUp_cases place parent t with
    ⟨delay, -, -, ⟨delay', -, -, h⟩ | ⟨left, -, -, h⟩⟩ | ⟨-, h⟩
  · rw [h]
    exact (answered place t delay).nil (answered parent _ delay')
  · rw [h]
    exact (answered place t delay).nil (engine.warns_givenUp _ _ _)
  · rw [h]
    exact engine.warns_givenUp _ _ _

/-! ## The comparison warns where a warning is due -/

/-- Of what a comparison found only two partitions that differ are a reason to warn. -/
theorem warns_findings (place parent : Affinity)
    (found : Option (Except StoreError Nat × Except StoreError Nat)) (t : Timeline (Site σ)) :
    engine.Warns
      (match found with
        | some (.ok own, .ok expected) =>
          if own = expected then [] else [violation place parent own expected]
        | _ => [])
      t { t with journal := t.journal ++ engine.findings place parent found } := by
  have other : ∀ line : Journal.Line, ¬ line.ReportsMisplacement →
      engine.Warns [] t { t with journal := t.journal ++ [line] } :=
    fun _ hline => Warns.log (.of_journal rfl) hline
  rcases found with _ | ⟨e | own, e' | expected⟩
  · -- This line begins as one about a chain does, but goes on otherwise.
    refine other _ ?_
    show ¬ ("Affinity chain too deep".toList <+: "Affinity verification timed out".toList ∨
      "Colocation violated".toList <+: "Affinity verification timed out".toList)
    decide
  · exact other _ (Journal.Line.not_reportsMisplacement (by decide))
  · exact other _ (Journal.Line.not_reportsMisplacement (by decide))
  · exact other _ (Journal.Line.not_reportsMisplacement (by decide))
  · unfold findings
    dsimp only
    split
    · exact .of_journal (List.append_nil _)
    · refine ⟨[], [], ?_, List.forall_mem_nil _⟩
      rw [List.append_nil, List.append_nil]

/-- A comparison writes the warnings that are due about its place. -/
theorem warns_verify (place parent : Affinity) (t : Timeline (Site σ)) :
    engine.Warns (engine.placeWarnings place parent t) t (engine.verify place parent t) := by
  have hlook := engine.warns_lookUp place parent t
  rw [verify_eq_findings, placeWarnings, told?_eq_lookUp]
  generalize engine.lookUp place parent t = looked at hlook ⊢
  obtain ⟨found, t'⟩ := looked
  have hfindings := engine.warns_findings place parent found t'
  refine hlook.of_nil ?_
  rcases found with _ | ⟨e | own, e' | expected⟩ <;> exact hfindings

/-- Behind a record that is written come the warnings that are due for it. -/
theorem warns_verifyRecord (record : Record) (t : Timeline (Site σ)) :
    engine.Warns (engine.recordWarnings record t) t (engine.verifyRecord record t) := by
  unfold verifyRecord recordWarnings
  cases record.affinity with
  | none => exact .of_journal rfl
  | some parent =>
    dsimp only
    split
    · exact engine.warns_verify _ parent t
    · exact .of_journal rfl

/-- The warnings that are due for an action: those for the record that it has written. -/
def actionWarnings (action : Action) (t : Timeline (Site σ)) : List Journal.Line :=
  match action, (engine.change action t).1 with
  | .upsert _ record, .ok _ => engine.recordWarnings record (engine.change action t).2
  | _, _ => []

/-- An action that is performed writes the warnings that are due for it. -/
theorem warns_perform (action : Action) (t : Timeline (Site σ)) :
    engine.Warns (engine.actionWarnings action t) t (engine.perform action t).2 := by
  have hchange := engine.warns_change action t
  unfold actionWarnings perform
  unfold change at hchange ⊢
  cases action with
  | upsert op record =>
    dsimp only at hchange ⊢
    generalize engine.call (.upsert op record) (engine.put record) t = called at hchange ⊢
    obtain ⟨_ | _, t'⟩ := called
    · exact hchange
    · exact hchange.of_nil (engine.warns_verifyRecord record t')
  | delete kind key =>
    dsimp only at hchange ⊢
    generalize engine.call (.delete kind key) (engine.remove kind key) t = called at hchange ⊢
    obtain ⟨_ | _ | _, t'⟩ := called
    · exact hchange
    · exact hchange.log (Journal.Line.not_reportsMisplacement (by decide))
    · exact hchange

/-- For an event with an action the warnings are due that are due for the action. -/
theorem dueWarnings_eq {request : Request} {action : Action}
    (haction : engine.action? request = some action) (t : Timeline (Site σ))
    (houtcome : (engine.serve request t).1 =
      .ofResult ((engine.change action t).1.map fun _ => action)) :
    engine.dueWarnings request t = engine.actionWarnings action t := by
  unfold dueWarnings actionWarnings
  rw [haction, houtcome]
  cases action with
  | delete kind key => rfl
  | upsert op record => cases (engine.change (.upsert op record) t).1 <;> rfl

/-- A request writes the warnings that are due for it. -/
theorem warns_serve (request : Request) (t : Timeline (Site σ)) :
    engine.Warns (engine.dueWarnings request t) t (engine.serve request t).2 := by
  -- The line about the end of an event is no warning.
  have concluded : ∀ {warnings t'} origin result, engine.Warns warnings t t' →
      engine.Warns warnings t (finish origin result t').2 :=
    fun origin result h => (h.nil (.of_journal rfl)).log
      (Outcome.not_reportsMisplacement_line (.ofResult result) origin)
  have rejected : ∀ {e}, (engine.serve request t).1 = .rejected e →
      engine.dueWarnings request t = [] := by
    intro e hout
    unfold dueWarnings
    rw [hout]
    rcases engine.action? request with _ | (_ | _) <;> rfl
  rcases engine.serve_eq_carryOut request t with
    ⟨message, e, -, -, h⟩ | ⟨event, origin, hevent, h⟩
  · rw [rejected (congrArg Prod.fst h), h]
    exact concluded _ _ (.of_journal rfl)
  · rcases engine.carryOut_cases event t with ⟨e, hplan, hresult, -⟩ | ⟨action, hplan, hresult, -⟩
    · have hout : (engine.serve request t).1 = .rejected e := by
        rw [h, hresult]
        rfl
      rw [rejected hout, h, carryOut_of_error hplan]
      refine concluded _ _ ?_
      -- Only a table that is not routed is reported.
      cases e with
      | routing table =>
        exact Warns.log (.of_journal rfl) (Journal.Line.not_reportsMisplacement (by decide))
      | _ => exact .of_journal rfl
    · have haction : engine.action? request = some action := by
        rw [action?, hevent, Option.bind_some, hplan]
        rfl
      have hout : (engine.serve request t).1 =
          .ofResult ((engine.change action t).1.map fun _ => action) := by
        rw [h, hresult]
        rfl
      rw [engine.dueWarnings_eq haction t hout, h, carryOut_of_ok hplan]
      exact concluded _ _ (engine.warns_perform action t)

end

/-- To compare partitions is advice only. Over a store whose puts and removals depend on a view of
it and not on the time, and whose lookups of partitions may do anything that leaves the view alone,
an engine that compares partitions brings any requests to the same outcomes as one that does not: by
the same calls to change the store, with the same ends, the same view of the store behind them, and
the same counts. All that a request adds to the journal about the place of its record, but for what
the store itself reports, is the warning that is due for it: one, if it is applied and has written a
record with a parent, partitions are compared, and both lookups, within one limit together, have
told different partitions. -/
theorem advisory_serveAll {engine : Engine σ} {β : Type} {view : σ → β}
    (steady : engine.store.Steady view) (requests : List Request) (t : Timeline (Site σ)) :
    (let (outcomes, compared) := (engine.verifying true).serveAll requests t
      let (outcomes', plain) := (engine.verifying false).serveAll requests t
      outcomes = outcomes' ∧ compared.changes = plain.changes ∧
        view compared.state.store = view plain.state.store ∧
        compared.state.recorder = plain.state.recorder ∧ compared.tally = plain.tally) ∧
    ∀ (on : Bool) (request : Request) (t : Timeline (Site σ)),
      let engine := engine.verifying on
      ∃ before behind,
        (engine.serve request t).2.journal =
          t.journal ++ before ++ engine.dueWarnings request t ++ behind ∧
        ∀ line ∈ before ++ behind, line.ReportsMisplacement → engine.store.Writes line := by
  obtain ⟨houtcomes, halike⟩ := agrees_serveAll steady true false requests (Alike.refl view t)
  exact ⟨⟨houtcomes, halike.changes, halike.store, halike.recorder, halike.tally⟩,
    fun on request t => (engine.verifying on).warns_serve request t⟩

end Engine

namespace FaultyStore

/-- The rows of a store that fails by a script, with the faults of the puts and removals to come. -/
def changing (s : FaultyStore) : MemoryStore × List Fault × List Fault :=
  (s.store, s.putFaults, s.removeFaults)

/-- Replies that are subject to the same fault match if the states behind them do. -/
theorem matches_subject (fault : Fault) (kind : Kind) {rest rest' : FaultyStore}
    (h : rest.changing = rest'.changing) (reply : Reply MemoryStore (Except StoreError α)) :
    (subject fault kind rest reply).Matches changing (subject fault kind rest' reply) := by
  unfold subject
  split
  · exact ⟨rfl, rfl, h, h⟩
  · exact ⟨rfl, rfl, congrArg (Prod.mk reply.after) (congrArg Prod.snd h), h⟩

/-- A store that fails by a script is steady: its lookups use up no faults but their own. -/
theorem steady_adapter : adapter.Steady changing := by
  constructor
  · rintro ⟨store, puts, removals, lookUps⟩ ⟨_, _, _, lookUps'⟩ h kind key affinity record now now'
    cases h
    have hrest : changing ⟨store, puts.tail, removals, lookUps⟩ =
        changing ⟨store, puts.tail, removals, lookUps'⟩ := rfl
    exact matches_subject (next puts) kind hrest _
  · rintro ⟨store, puts, removals, lookUps⟩ ⟨_, _, _, lookUps'⟩ h kind key now now'
    cases h
    have hrest : changing ⟨store, puts, removals.tail, lookUps⟩ =
        changing ⟨store, puts, removals.tail, lookUps'⟩ := rfl
    exact matches_subject (next removals) kind hrest _
  · intro kind key now s
    obtain ⟨hafter, habandoned⟩ := wraps_adapter.partitionOf kind key now s
    -- The faults of puts and removals are left to come.
    have hfaults : ∀ fault (reply : Reply MemoryStore (Except StoreError Nat)),
        let asked := subject fault kind { s with lookupFaults := s.lookupFaults.tail } reply
        (changing asked.after).2 = (changing s).2 ∧
          (changing asked.abandoned).2 = (changing s).2 := by
      intro fault reply
      unfold subject
      split <;> exact ⟨rfl, rfl⟩
    exact ⟨Prod.ext hafter (hfaults ..).1, Prod.ext habandoned (hfaults ..).2⟩

end FaultyStore

namespace Engine

/-- An order is written and written again, each time in spite of a store that is busy at first. The
first time both lookups together take all the time that they have, and tell different partitions;
the second time the first of them hangs. -/
theorem advisory_serveAll_orders :
    let busy : Fault := ⟨some .zero, .failed (.unavailable "busy")⟩
    let lookUps : List Fault :=
      [⟨some (.ofMillis 900), .placed 3⟩, ⟨some (.ofMillis 1100), .placed 5⟩, ⟨none, .through⟩]
    let engine : Engine FaultyStore := ⟨.builtIn, FaultyStore.adapter, .default⟩
    let t := Timeline.start (Site.new ⟨.new, [busy, .none, busy], [], lookUps⟩)
    let row : Json := .object [("id", .ofInt64 2), ("customer_id", .ofInt64 1)]
    let first := Request.event ⟨.insert, none, some row, "orders", none⟩
    let second := Request.event ⟨.update, none, some row, "orders", none⟩
    let (outcomes, compared) := (engine.verifying true).serveAll [first, second] t
    let (outcomes', plain) := (engine.verifying false).serveAll [first, second] t
    engine.store.Steady FaultyStore.changing ∧
      outcomes = [.applied .inserted .order 2, .applied .updated .order 2] ∧
      outcomes' = outcomes ∧ compared.changes.length = 4 ∧ compared.changes = plain.changes ∧
      plain.now + 4 * 10 ^ 9 = compared.now ∧
      violation ⟨.order, 2⟩ ⟨.customer, 1⟩ 3 5 ∈
        ((engine.verifying true).serve first t).2.journal := by
  intro busy lookUps engine t row first second
  have houtcomes : ((engine.verifying true).serveAll [first, second] t).1 =
      [.applied .inserted .order 2, .applied .updated .order 2] := by
    decide +kernel +zetaReduce
  have hlength : ((engine.verifying true).serveAll [first, second] t).2.changes.length = 4 := by
    decide +kernel +zetaReduce
  have hnow : ((engine.verifying false).serveAll [first, second] t).2.now + 4 * 10 ^ 9 =
      ((engine.verifying true).serveAll [first, second] t).2.now := by
    decide +kernel +zetaReduce
  have hdue : (engine.verifying true).dueWarnings first t =
      [violation ⟨.order, 2⟩ ⟨.customer, 1⟩ 3 5] := by
    decide +kernel +zetaReduce
  have hsteady : engine.store.Steady FaultyStore.changing := FaultyStore.steady_adapter
  -- From here on only these facts matter: nothing is run a second time.
  clear_value engine t first second
  obtain ⟨hsame, hwarns⟩ := advisory_serveAll hsteady [first, second] t
  obtain ⟨before, behind, hjournal, -⟩ := hwarns true first t
  rw [hdue] at hjournal
  dsimp only at hsame ⊢
  refine ⟨hsteady, houtcomes, hsame.1.symm, hlength, hsame.2.1, hnow, ?_⟩
  rw [hjournal]
  exact List.mem_append_left _ (List.mem_append_right _ (List.mem_singleton_self _))

end Engine

end ChangeFeed
