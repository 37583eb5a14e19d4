import ChangeFeed.Metrics.Snapshot
import ChangeFeed.Proofs.Engine.Plan
import ChangeFeed.Proofs.Engine.Work
import Mathlib.Data.List.Forall2

/-!
# The account of an engine

An engine is asked to handle messages and events, in any order. Whatever its store answers and
however long that takes, a request ends in one way (`serve_eq_finish`): after some work the engine
concludes it, once, and where it is applied, it is by the action planned for its event. From there
the counts can be read off the requests and their outcomes: `Snapshot.Accounts` says what they are,
one request keeps it (`Engine.accounts_serve`), and so does every list of them.
`accounts_serveAll` states it from a fresh recorder on, together with what the report and the
journal of a batch say.
-/

namespace ChangeFeed

variable {σ : Type}

/-- What an engine is asked to handle. -/
inductive Request where
  | message (message : Message)
  | event (event : ChangeEvent)

namespace Request

/-- The event that a request is about, if it can be read. -/
def event? : Request → Option ChangeEvent
  | .message m => (ChangeEvent.ofMessage m).toOption
  | .event e => some e

/-- The operation that a request is about. -/
def operation? (request : Request) : Option Operation :=
  request.event?.map (·.operation)

end Request

/-- The reason that an outcome is counted under, if it is a rejection. -/
def Outcome.reason? : Outcome → Option Reason
  | .applied .. => none
  | .rejected e => some e.reason

/-- The effect that an outcome is counted under, if it is not a rejection. -/
def Outcome.effect? : Outcome → Option Effect
  | .applied effect _ _ => some effect
  | .rejected _ => none

namespace Engine

/-- Handles a request. -/
def serve (engine : Engine σ) : Request → Timeline (Site σ) → Outcome × Timeline (Site σ)
  | .message m, t => engine.handle m t
  | .event e, t => engine.apply e t

/-- Handles requests in order and gives their outcomes. -/
def serveAll (engine : Engine σ) :
    List Request → Timeline (Site σ) → List Outcome × Timeline (Site σ)
  | [], t => ([], t)
  | request :: rest, t =>
    let (outcome, t) := engine.serve request t
    let (outcomes, t) := engine.serveAll rest t
    (outcome :: outcomes, t)

/-- Handling messages is serving them. -/
theorem serveAll_message (engine : Engine σ) (messages : List Message) (t : Timeline (Site σ)) :
    engine.serveAll (messages.map .message) t = engine.handleAll messages t := by
  induction messages generalizing t with
  | nil => rfl
  | cons message rest ih => simp only [List.map_cons, serveAll, handleAll, serve, ih]

/-- What stands behind a result: an action is the one planned for the event of the request. -/
def Backs (engine : Engine σ) (request : Request) (result : Except Rejection Action) : Prop :=
  ∀ action, result = .ok action →
    ∃ event, request.event? = some event ∧ engine.router.plan event = .ok action

/-- Carrying out an event gives the action that is planned for it, or a rejection. -/
theorem plan_of_carryOut {engine : Engine σ} {event : ChangeEvent} {t : Timeline (Site σ)}
    {action : Action} (h : (engine.carryOut event t).1 = .ok action) :
    engine.router.plan event = .ok action := by
  -- An action that is planned is given back as it is, if it can be performed.
  cases hplan : engine.router.plan event with
  | error e =>
    rw [carryOut_of_error hplan] at h
    cases h
  | ok planned =>
    rw [carryOut_of_ok hplan] at h
    obtain ⟨-, -, rfl⟩ := map_eq_ok_iff.1 h
    rfl

/-- A request is concluded with what came of carrying its event out, or at once if no event can be
read. -/
theorem serve_eq_carryOut (engine : Engine σ) (request : Request) (t : Timeline (Site σ)) :
    (∃ message e, request = .message message ∧ ChangeEvent.ofMessage message = .error e ∧
      engine.serve request t = finish ⟨some message, none⟩ (.error e) t) ∨
    ∃ event origin, request.event? = some event ∧
      engine.serve request t =
        finish origin (engine.carryOut event t).1 (engine.carryOut event t).2 := by
  cases request with
  | event e => exact .inr ⟨e, _, rfl, rfl⟩
  | message m =>
    cases hm : ChangeEvent.ofMessage m with
    | error e => exact .inl ⟨m, e, rfl, hm, handle_of_error hm t⟩
    | ok event =>
      have hevent : (Request.message m).event? = some event := by
        show (ChangeEvent.ofMessage m).toOption = some event
        rw [hm]
        rfl
      exact .inr ⟨event, _, hevent, handle_of_ok hm t⟩

/-- A request is worked on and then concluded, with a result that its event stands behind. -/
theorem serve_eq_finish (engine : Engine σ) (request : Request) (t : Timeline (Site σ)) :
    ∃ action result origin t', engine.Works action t t' ∧ engine.Backs request result ∧
      engine.serve request t = finish origin result t' := by
  rcases engine.serve_eq_carryOut request t with
    ⟨message, e, -, -, hserve⟩ | ⟨event, origin, hevent, hserve⟩
  · -- Without an event there is nothing to work on.
    refine ⟨none, .error e, _, _, .refl, ?_, hserve⟩
    intro action h
    cases h
  · refine ⟨_, _, _, _, engine.works_carryOut event t, ?_, hserve⟩
    intro action hok
    exact ⟨event, hevent, plan_of_carryOut hok⟩

end Engine

/-! ## The counts -/

/-- Counting some cells adds to each as often as it stands among them. -/
theorem Recorder.read_bumpAll (r : Recorder) (cells : List Cell) (cell : Cell) :
    (r.bumpAll cells).read cell = r.read cell + cells.count cell := by
  unfold bumpAll
  induction cells generalizing r with
  | nil => rfl
  | cons c rest ih =>
    rw [List.foldl_cons, ih, read_bump, List.count_cons]
    by_cases h : c = cell
    · simp only [h, if_true, beq_self_eq_true]
      omega
    · simp only [h, if_false, beq_eq_false_iff_ne.2 h, Bool.false_eq_true]
      omega

/-- Every outcome is counted once as processed. -/
theorem Outcome.count_processed (outcome : Outcome) :
    outcome.cells.count (.event .processed) = 1 := by
  cases outcome with
  | applied effect kind key => cases effect <;> rfl
  | rejected e => rfl

/-- An outcome is counted under its effect and under no other. -/
theorem Outcome.count_effect (outcome : Outcome) (effect : Effect) :
    outcome.cells.count (.event effect.count) =
      if outcome.effect? = some effect then 1 else 0 := by
  cases outcome with
  | applied own kind key => cases own <;> cases effect <;> rfl
  | rejected e => cases effect <;> rfl

/-- An outcome is counted under an effect exactly when it is applied. -/
theorem Outcome.count_applied (outcome : Outcome) :
    outcome.cells.count (.event .inserted) + outcome.cells.count (.event .updated) +
      outcome.cells.count (.event .deleted) = if outcome.isApplied then 1 else 0 := by
  cases outcome with
  | applied effect kind key => cases effect <;> rfl
  | rejected e => rfl

/-- A rejection is counted as an error, and nothing else is. -/
theorem Outcome.count_errored (outcome : Outcome) :
    outcome.cells.count (.event .errored) = if outcome.isApplied then 0 else 1 := by
  cases outcome with
  | applied effect kind key => cases effect <;> rfl
  | rejected e => rfl

/-- A rejection is counted under its reason and under no other. -/
theorem Outcome.count_reason (outcome : Outcome) (reason : Reason) :
    outcome.cells.count (.rejection reason) =
      if outcome.reason? = some reason then 1 else 0 := by
  cases outcome with
  | applied effect kind key => cases effect <;> rfl
  | rejected e => cases e <;> cases reason <;> rfl

/-- Every outcome is counted under one effect or as an error. -/
theorem Outcome.count_total (outcome : Outcome) :
    outcome.cells.count (.event .processed) =
      outcome.cells.count (.event .inserted) + outcome.cells.count (.event .updated) +
        outcome.cells.count (.event .deleted) + outcome.cells.count (.event .errored) := by
  cases outcome with
  | applied effect kind key => cases effect <;> rfl
  | rejected e => rfl

/-- Every error is counted under one reason. -/
theorem Outcome.count_reasons (outcome : Outcome) :
    outcome.cells.count (.event .errored) =
      outcome.cells.count (.rejection .routing) + outcome.cells.count (.rejection .decode) +
        outcome.cells.count (.rejection .malformed) + outcome.cells.count (.rejection .apply) := by
  cases outcome with
  | applied effect kind key => cases effect <;> rfl
  | rejected e => cases e <;> rfl

/-- The number of requests that were applied for one of some operations. -/
def appliedFor (operations : List Operation) (served : List (Request × Outcome)) : Nat :=
  served.countP fun (request, outcome) =>
    outcome.isApplied && request.operation?.any (· ∈ operations)

/-- A snapshot that accounts for some requests with their outcomes. -/
structure Snapshot.Accounts (s : Snapshot) (served : List (Request × Outcome)) : Prop where
  /-- Every request is processed. -/
  processed : s.processed = served.length
  /-- A snapshot read counts as an insert. -/
  inserted : s.inserted = appliedFor [.insert, .snapshotRead] served
  updated : s.updated = appliedFor [.update] served
  /-- Deletes of absent keys are counted like others. -/
  deleted : s.deleted = appliedFor [.delete] served
  byReason : ∀ reason, s.byReason reason = served.countP (·.2.reason? = some reason)
  /-- Every request is counted under one kind of outcome. -/
  total : s.processed = s.inserted + s.updated + s.deleted + s.errored
  /-- Every rejection is counted under one reason. -/
  reasons : s.errored =
    s.byReason .routing + s.byReason .decode + s.byReason .malformed + s.byReason .apply

namespace Engine

/-- A request changes the counts by the cells of its outcome. -/
theorem read_serve (engine : Engine σ) (request : Request) (t : Timeline (Site σ)) (cell : Cell) :
    (engine.serve request t).2.state.recorder.read cell =
      t.state.recorder.read cell + (engine.serve request t).1.cells.count cell := by
  obtain ⟨action, result, origin, t', hworks, -, h⟩ := engine.serve_eq_finish request t
  rw [h]
  show ((t'.state.recorder.bumpAll _).read cell) = _
  rw [Recorder.read_bumpAll, Works.read hworks]
  rfl

/-- A request that is applied is applied with the effect of its operation. -/
theorem effect_of_serve {engine : Engine σ} {request : Request} {t : Timeline (Site σ)}
    {effect : Effect} {kind : Kind} {key : Int64}
    (h : (engine.serve request t).1 = .applied effect kind key) :
    ∃ op, request.operation? = some op ∧ effect = op.effect := by
  obtain ⟨action, result, origin, t', -, hbacks, hs⟩ := engine.serve_eq_finish request t
  rw [hs] at h
  cases result with
  | error e => cases h
  | ok planned =>
    obtain ⟨event, hevent, hplan⟩ := hbacks planned rfl
    refine ⟨event.operation, by rw [Request.operation?, hevent]; rfl, ?_⟩
    cases h
    exact Router.effect_of_plan hplan

end Engine

/-- A request that is applied for one of some operations is applied with their effect. -/
theorem isApplied_and_any_iff {request : Request} {outcome : Outcome} {effect : Effect}
    {operations : List Operation} (hall : ∀ op, op ∈ operations ↔ op.effect = effect)
    (heffect : ∀ e, outcome.effect? = some e → ∃ op, request.operation? = some op ∧ e = op.effect) :
    (outcome.isApplied && request.operation?.any (· ∈ operations)) = true ↔
      outcome.effect? = some effect := by
  cases outcome with
  | rejected e => simp [Outcome.isApplied, Outcome.effect?]
  | applied own kind key =>
    obtain ⟨op, hop, rfl⟩ := heffect own rfl
    simp [Outcome.isApplied, Outcome.effect?, hop, hall]

/-- A request adds to those applied for the operations with an effect if its outcome has it. -/
theorem appliedFor_add {request : Request} {outcome : Outcome} {effect : Effect}
    {operations : List Operation} (hall : ∀ op, op ∈ operations ↔ op.effect = effect)
    (heffect : ∀ e, outcome.effect? = some e → ∃ op, request.operation? = some op ∧ e = op.effect)
    (served : List (Request × Outcome)) :
    appliedFor operations (served ++ [(request, outcome)]) =
      appliedFor operations served + outcome.cells.count (.event effect.count) := by
  unfold appliedFor
  rw [List.countP_append, List.countP_singleton, outcome.count_effect]
  simp only [isApplied_and_any_iff hall heffect]

/-- An account is kept when a request is added to what it accounts for and the cells of its outcome
to the counts. -/
theorem Snapshot.Accounts.add {r r' : Recorder} {served : List (Request × Outcome)}
    {request : Request} {outcome : Outcome} (h : r.snapshot.Accounts served)
    (hread : ∀ cell, r'.read cell = r.read cell + outcome.cells.count cell)
    (heffect : ∀ e, outcome.effect? = some e →
      ∃ op, request.operation? = some op ∧ e = op.effect) :
    r'.snapshot.Accounts (served ++ [(request, outcome)]) := by
  -- A snapshot is a copy of the cells, so that everything is about what they hold.
  have copy : ∀ r : Recorder, r.snapshot = .ofReads r.read := fun _ => rfl
  obtain ⟨hp, hi, hu, hd, hr, htotal, hreasons⟩ := h
  simp only [copy, Snapshot.ofReads] at hp hi hu hd hr htotal hreasons
  -- The operations that each of the three counts is about.
  have inserts : ∀ op, op ∈ [Operation.insert, .snapshotRead] ↔ op.effect = .inserted := by
    intro op
    cases op <;> decide
  have updates : ∀ op, op ∈ [Operation.update] ↔ op.effect = .updated := by
    intro op
    cases op <;> decide
  have deletes : ∀ op, op ∈ [Operation.delete] ↔ op.effect = .deleted := by
    intro op
    cases op <;> decide
  constructor <;> simp only [copy, Snapshot.ofReads]
  case processed =>
    rw [hread, hp, outcome.count_processed, List.length_append, List.length_singleton]
  case inserted => rw [hread, hi, appliedFor_add inserts heffect]; rfl
  case updated => rw [hread, hu, appliedFor_add updates heffect]; rfl
  case deleted => rw [hread, hd, appliedFor_add deletes heffect]; rfl
  case byReason =>
    intro reason
    rw [hread, hr, outcome.count_reason, List.countP_append, List.countP_singleton]
    simp only [decide_eq_true_eq]
  case total =>
    have := outcome.count_total
    rw [hread, hread, hread, hread, hread]
    omega
  case reasons =>
    have := outcome.count_reasons
    rw [hread, hread, hread, hread, hread]
    omega

/-- A recorder that has seen nothing accounts for no request. -/
theorem Recorder.accounts_empty : Recorder.empty.snapshot.Accounts [] := by
  constructor
  case byReason =>
    intro reason
    cases reason <;> rfl
  all_goals rfl

namespace Engine

/-- Serving a request keeps the account. -/
theorem accounts_serve (engine : Engine σ) {t : Timeline (Site σ)}
    {served : List (Request × Outcome)} (h : t.state.recorder.snapshot.Accounts served)
    (request : Request) :
    (engine.serve request t).2.state.recorder.snapshot.Accounts
      (served ++ [(request, (engine.serve request t).1)]) := by
  refine h.add (engine.read_serve request t) fun effect he => ?_
  cases ho : (engine.serve request t).1 with
  | rejected e =>
    rw [ho] at he
    cases he
  | applied own kind key =>
    rw [ho] at he
    cases he
    exact effect_of_serve ho

/-- Serving requests keeps the account. -/
theorem accounts_of_accounts (engine : Engine σ) (requests : List Request) :
    ∀ {t : Timeline (Site σ)} {served : List (Request × Outcome)},
      t.state.recorder.snapshot.Accounts served →
      (engine.serveAll requests t).2.state.recorder.snapshot.Accounts
        (served ++ requests.zip (engine.serveAll requests t).1) := by
  induction requests with
  | nil =>
    intro t served h
    rwa [List.zip_nil_left, List.append_nil]
  | cons request rest ih =>
    intro t served h
    have hrest := ih (accounts_serve engine h request)
    rwa [List.append_assoc] at hrest

/-- Serving requests makes no count smaller. -/
theorem read_le_serveAll (engine : Engine σ) (requests : List Request) (t : Timeline (Site σ))
    (cell : Cell) :
    t.state.recorder.read cell ≤ (engine.serveAll requests t).2.state.recorder.read cell := by
  induction requests generalizing t with
  | nil => exact Nat.le_refl _
  | cons request rest ih =>
    refine Nat.le_trans ?_ (ih (engine.serve request t).2)
    rw [read_serve]
    exact Nat.le_add_right _ _

/-- Every request has its outcome. -/
theorem length_serveAll (engine : Engine σ) (requests : List Request) (t : Timeline (Site σ)) :
    (engine.serveAll requests t).1.length = requests.length := by
  induction requests generalizing t with
  | nil => rfl
  | cons request rest ih => simp only [serveAll, List.length_cons, ih]

/-- Handling messages counts each of them as processed, those that are applied under an effect,
and the others as errors. -/
theorem counts_handleAll (engine : Engine σ) (messages : List Message) (t : Timeline (Site σ)) :
    let (outcomes, t') := engine.handleAll messages t
    t'.state.recorder.processed = t.state.recorder.processed + messages.length ∧
    t'.state.recorder.inserted + t'.state.recorder.updated + t'.state.recorder.deleted =
      t.state.recorder.inserted + t.state.recorder.updated + t.state.recorder.deleted +
        outcomes.countP (·.isApplied) ∧
    t'.state.recorder.errored = t.state.recorder.errored + outcomes.countP (!·.isApplied) := by
  induction messages generalizing t with
  | nil => exact ⟨rfl, rfl, rfl⟩
  | cons message rest ih =>
    obtain ⟨hp, ha, he⟩ := ih (engine.handle message t).2
    have hread := engine.read_serve (.message message) t
    simp only [serve] at hread
    have h1 := hread (.event .processed)
    have h2 := hread (.event .inserted)
    have h3 := hread (.event .updated)
    have h4 := hread (.event .deleted)
    have h5 := hread (.event .errored)
    -- What the first message adds to each of the counts.
    have happlied := (engine.handle message t).1.count_applied
    rw [Outcome.count_processed] at h1
    rw [Outcome.count_errored] at h5
    simp only [Recorder.read] at h1 h2 h3 h4 h5
    simp only [handleAll, List.length_cons, List.countP_cons]
    cases hout : (engine.handle message t).1.isApplied <;> rw [hout] at happlied h5 <;>
      simp only [Bool.not_true, Bool.not_false, Bool.false_eq_true, if_true, if_false]
        at happlied h5 ⊢
    · exact ⟨by omega, by omega, by omega⟩
    · exact ⟨by omega, by omega, by omega⟩

end Engine

/-! ## The journal -/

/-- How serious the line is that tells how an event ended. -/
def Outcome.seriousness (outcome : Outcome) : Journal.Level :=
  if outcome.isApplied then .debug
  else if outcome.reason? = some .apply then .error
  else .warn

/-- A stretch of the journal that an event with an outcome leaves: its last line tells how the event
ended, and no other line does, unless the store reports one. -/
def StoreAdapter.Concludes (store : StoreAdapter σ) (outcome : Outcome)
    (stretch : List Journal.Line) : Prop :=
  ∃ work line, stretch = work ++ [line] ∧ line.IsTerminal ∧ line.level = outcome.seriousness ∧
    ∀ other ∈ work, other.IsTerminal → store.Writes other

/-- The line about an event tells how it ended. -/
theorem Outcome.isTerminal_line (outcome : Outcome) (origin : Origin) :
    (outcome.line origin).IsTerminal := by
  cases outcome with
  | applied effect kind key => exact .inl rfl
  | rejected e => exact .inr ⟨e.message, rfl⟩

/-- The line about an event is as serious as its outcome. -/
theorem Outcome.level_line (outcome : Outcome) (origin : Origin) :
    (outcome.line origin).level = outcome.seriousness := by
  cases outcome with
  | applied effect kind key => rfl
  | rejected e => cases e <;> rfl

namespace Engine

/-- A request leaves a stretch of the journal that concludes it. -/
theorem journal_serve (engine : Engine σ) (request : Request) (t : Timeline (Site σ)) :
    ∃ stretch, (engine.serve request t).2.journal = t.journal ++ stretch ∧
      engine.store.Concludes (engine.serve request t).1 stretch := by
  obtain ⟨action, result, origin, t', hworks, -, h⟩ := engine.serve_eq_finish request t
  obtain ⟨work, hwork, hown⟩ := Works.journal hworks
  -- Behind the work comes the line about the end of the event, and nothing else.
  let line := (Outcome.ofResult result).line origin
  have hjournal : (engine.serve request t).2.journal = t'.journal ++ [line] := by
    rw [h]
    rfl
  refine ⟨work ++ [line], by rw [hjournal, hwork, List.append_assoc], work, line, rfl, ?_, ?_,
    hown⟩
  · exact Outcome.isTerminal_line _ _
  · rw [h]
    exact Outcome.level_line _ _

/-- Handling messages leaves one stretch of the journal after the other, each of which concludes a
message. -/
theorem journal_handleAll (engine : Engine σ) (messages : List Message) (t : Timeline (Site σ)) :
    ∃ stretches : List (List Journal.Line),
      (engine.handleAll messages t).2.journal = t.journal ++ stretches.flatten ∧
      List.Forall₂ engine.store.Concludes (engine.handleAll messages t).1 stretches := by
  induction messages generalizing t with
  | nil => exact ⟨[], (List.append_nil _).symm, .nil⟩
  | cons message rest ih =>
    obtain ⟨stretch, hfirst, hconcludes⟩ := engine.journal_serve (.message message) t
    obtain ⟨stretches, hrest, hall⟩ := ih (engine.handle message t).2
    refine ⟨stretch :: stretches, ?_, .cons hconcludes hall⟩
    rw [List.flatten_cons, ← List.append_assoc, ← hfirst]
    exact hrest

/-- A timeline with a recorder that has seen nothing in place of its own. -/
def withFreshRecorder (t : Timeline (Site σ)) : Timeline (Site σ) :=
  t.update (·.record fun _ => .empty)

/-- Every event is accounted for once. After any requests from a fresh recorder on, the counts
account for these requests with their outcomes, and no request after them makes a count smaller. The
report of a batch gives what the batch adds to the counts, and the journal has a stretch for each of
its messages that concludes it. -/
theorem accounts_serveAll (engine : Engine σ) (t : Timeline (Site σ)) (requests : List Request)
    (batch : List Message) :
    let (outcomes, served) := engine.serveAll requests (withFreshRecorder t)
    let (report, handled) := engine.handleBatch batch t
    let before := t.state.recorder
    let after := handled.state.recorder
    outcomes.length = requests.length ∧
    served.state.recorder.snapshot.Accounts (requests.zip outcomes) ∧
    (∀ more cell, served.state.recorder.read cell ≤
      (engine.serveAll more served).2.state.recorder.read cell) ∧
    report.events = batch.length ∧
    report.outcomes = (engine.serveAll (batch.map .message) t).1 ∧
    after.processed = before.processed + report.events ∧
    after.inserted + after.updated + after.deleted =
      before.inserted + before.updated + before.deleted + report.applied ∧
    after.errored = before.errored + report.rejected ∧
    ∃ stretches : List (List Journal.Line),
      handled.journal =
        t.journal ++ stretches.flatten ++ [⟨.debug, "Processed batch", report.fields⟩] ∧
      List.Forall₂ engine.store.Concludes report.outcomes stretches := by
  have haccount := engine.accounts_of_accounts requests (t := withFreshRecorder t)
    Recorder.accounts_empty
  obtain ⟨hprocessed, happlied, herrored⟩ := engine.counts_handleAll batch t
  obtain ⟨stretches, hjournal, hall⟩ := engine.journal_handleAll batch t
  refine ⟨engine.length_serveAll requests _, haccount,
    fun more cell => engine.read_le_serveAll more _ cell, rfl,
    (congrArg Prod.fst (engine.serveAll_message batch t)).symm, hprocessed, happlied, herrored,
    stretches, ?_, hall⟩
  rw [← hjournal]
  rfl

end Engine

end ChangeFeed
