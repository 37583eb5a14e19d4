import ChangeFeed.Proofs.Consumer.Turn
import ChangeFeed.Proofs.Engine.InMemory

/-!
# Workers that share an engine

Several workers hand their messages to one engine, each its own in order and batch by batch, and
take turns in any way (`Team.Step`). Over a store in memory a message comes to the outcome that its
router decides, whoever handled what before; so the outcomes and the counts do not depend on the
order. What is left in the store is decided key by key, by the last message that is applied to each
(`Router.lastContent?_actions`), so only the order within each key matters
(`Team.agree_of_order_within_keys`). Where no two workers have messages on one key, that order is
each worker's own, and how they take turns does not matter either.
-/

namespace ChangeFeed

variable {σ : Type}

/-- Over a store in memory each message that is handled comes to the outcome that its router
decides, and the actions are carried out in the order of the messages. -/
theorem Engine.Handles.inMemory {router : Router} {tuning : Tuning}
    {handled : List (Message × Outcome)} {t t' : Timeline (Site MemoryStore)}
    (h : (Engine.inMemory router tuning).Handles handled t t') :
    handled = (handled.map Prod.fst).map (fun m => (m, router.outcome m)) ∧
      t'.state.store = t.state.store.carryAll (router.actions (handled.map Prod.fst)) := by
  induction h with
  | start => exact ⟨rfl, rfl⟩
  | pass _ passes ih => exact ⟨ih.1, passes.store.trans ih.2⟩
  | @handle handled t t' _ message ih =>
    obtain ⟨houtcome, hstore⟩ := handle_inMemory router tuning message t'
    constructor
    · rw [List.map_append, List.map_append, ← ih.1, houtcome]
      rfl
    · rw [hstore, ih.2, List.map_append, Router.actions_append, MemoryStore.carryAll_append]
      rfl

/-- Messages leave the same store if those that are applied to a key are the same and come in the
same order, for each key. -/
theorem MemoryStore.carryAll_actions_congr {router : Router} {messages messages' : List Message}
    (h : ∀ kind key,
      messages.filter (fun m => (router.outcome m).isAppliedTo kind key) =
        messages'.filter fun m => (router.outcome m).isAppliedTo kind key)
    (store : MemoryStore) :
    store.carryAll (router.actions messages) = store.carryAll (router.actions messages') := by
  apply ext_lookup?
  · rw [partitions_carryAll, partitions_carryAll]
  · intro kind key
    -- What is under a key, the last of these messages decides.
    rw [lookup?_carryAll, lookup?_carryAll, Router.lastContent?_actions,
      Router.lastContent?_actions, h kind key]

/-! ## Taking turns -/

/-- Workers that share an engine. -/
structure Team (σ : Type) where
  /-- The batches that each worker has still to handle; the first is the one it is at. -/
  pending : List (List (List Message))
  /-- What the workers handled, in the order they did. -/
  handled : List (Message × Outcome)
  timeline : Timeline (Site σ)

namespace Team

/-- What can happen to a team. Every message is handled in one step, by any worker. -/
inductive Step (engine : Engine σ) : Team σ → Team σ → Prop
  /-- A worker handles the next message of its batch. -/
  | handle (before) {after batches message rest handled t} :
      Step engine ⟨before ++ ((message :: rest) :: batches) :: after, handled, t⟩
        ⟨before ++ (rest :: batches) :: after,
          handled ++ [(message, (engine.handle message t).1)], (engine.handle message t).2⟩
  /-- A worker goes on from a batch that is done to the next. -/
  | proceed (before) {after batches handled t} :
      Step engine ⟨before ++ ([] :: batches) :: after, handled, t⟩
        ⟨before ++ batches :: after, handled, t⟩
  /-- Something happens that does not concern messages: a line is written, a worker polls or
  commits, or time passes. -/
  | pass {pending handled t t'} (passes : t.Passes t') :
      Step engine ⟨pending, handled, t⟩ ⟨pending, handled, t'⟩

/-- The messages that some workers have still to handle, one worker after the other. -/
def messages (pending : List (List (List Message))) : List Message :=
  pending.flatten.flatten

/-- From one timeline on, workers come to have handled everything. -/
structure Completes (engine : Engine σ) (pending : List (List (List Message)))
    (t : Timeline (Site σ)) (team : Team σ) : Prop where
  steps : Relation.ReflTransGen (Step engine) ⟨pending, [], t⟩ team
  done : messages team.pending = []

/-- The messages that were applied to a key, in the order they were handled. -/
def appliedTo (team : Team σ) (kind : Kind) (key : Int64) : List Message :=
  (team.handled.filter (·.2.isAppliedTo kind key)).map Prod.fst

/-- No two workers have messages on one key. -/
def Apart (router : Router) (pending : List (List (List Message))) : Prop :=
  (pending.map List.flatten).Pairwise fun stream other =>
    ∀ kind key, ∀ message ∈ stream, router.TellsOf kind key message →
      ∀ message' ∈ other, ¬ router.TellsOf kind key message'

/-- The messages of one worker stand between those of the others. -/
theorem messages_split (before : List (List (List Message))) (worker : List (List Message))
    (after : List (List (List Message))) :
    messages (before ++ worker :: after) =
      messages before ++ (worker.flatten ++ messages after) := by
  unfold messages
  rw [List.flatten_append, List.flatten_cons, List.flatten_append, List.flatten_append]

/-- The messages that were handled and, worker by worker, those that are not yet. -/
def queue (team : Team σ) : List Message :=
  team.handled.map Prod.fst ++ messages team.pending

/-! ## What every step keeps -/

/-- Whatever a team does goes through its engine. -/
theorem Step.handles {engine : Engine σ} {team next : Team σ} (step : Step engine team next)
    {t : Timeline (Site σ)} (h : engine.Handles team.handled t team.timeline) :
    engine.Handles next.handled t next.timeline := by
  cases step with
  | handle => exact h.handle _
  | proceed => exact h
  | pass passes => exact h.pass passes

/-- At most one message moves in the queue: it overtakes those of the workers before its own. -/
theorem Step.queue_cases {engine : Engine σ} {team next : Team σ} (step : Step engine team next) :
    next.queue = team.queue ∨
      ∃ before message rest batches after,
        team.pending = before ++ ((message :: rest) :: batches) :: after ∧
        next.pending = before ++ (rest :: batches) :: after ∧
        ∃ done behind, team.queue = done ++ (messages before ++ message :: behind) ∧
          next.queue = done ++ (message :: (messages before ++ behind)) := by
  unfold queue
  cases step with
  | @handle before after batches message rest handled t =>
    refine .inr ⟨before, message, rest, batches, after, rfl, rfl, handled.map Prod.fst,
      rest ++ (batches.flatten ++ messages after), ?_, ?_⟩
    · rw [messages_split, List.flatten_cons, List.append_assoc]
      rfl
    · rw [messages_split, List.flatten_cons, List.map_append, List.append_assoc, List.append_assoc]
      rfl
  | proceed before =>
    rw [messages_split, messages_split]
    exact .inl rfl
  | pass => exact .inl rfl

/-- No message is lost, and none is handled twice. -/
theorem Step.perm {engine : Engine σ} {team next : Team σ} (step : Step engine team next) :
    next.queue.Perm team.queue := by
  rcases step.queue_cases with
    h | ⟨before, message, rest, batches, after, -, -, done, behind, h, h'⟩
  · rw [h]
  · rw [h, h']
    exact List.perm_middle.symm.append_left done

/-- Workers stay apart when one of them has fewer messages. -/
theorem Apart.shrink {router : Router} {before after : List (List (List Message))}
    {worker fewer : List (List Message)} (h : Apart router (before ++ worker :: after))
    (hsub : ∀ message ∈ fewer.flatten, message ∈ worker.flatten) :
    Apart router (before ++ fewer :: after) := by
  unfold Apart at h ⊢
  rw [List.map_append, List.map_cons, List.pairwise_append, List.pairwise_cons] at h ⊢
  obtain ⟨hbefore, ⟨hworker, hafter⟩, hcross⟩ := h
  refine ⟨hbefore, ⟨fun other hother kind key message hm => ?_, hafter⟩, ?_⟩
  · exact hworker other hother kind key message (hsub message hm)
  · intro stream hstream other hother kind key message hm htells message' hm'
    rcases List.mem_cons.1 hother with rfl | hother
    · exact hcross stream hstream _ List.mem_cons_self kind key message hm htells message'
        (hsub message' hm')
    · exact hcross stream hstream other (List.mem_cons_of_mem _ hother) kind key message hm htells
        message' hm'

/-- If a worker has a message on a key, those who come before it have none. -/
theorem Apart.filter_messages {router : Router} {before after : List (List (List Message))}
    {worker : List (List Message)} {kind : Kind} {key : Int64} {message : Message}
    (h : Apart router (before ++ worker :: after)) (hm : message ∈ worker.flatten)
    (happlied : (router.outcome message).isAppliedTo kind key = true) :
    (messages before).filter (fun m => (router.outcome m).isAppliedTo kind key) = [] := by
  unfold Apart at h
  rw [List.map_append, List.map_cons, List.pairwise_append] at h
  rw [List.filter_eq_nil_iff]
  intro earlier hearlier htells
  unfold messages at hearlier
  obtain ⟨batch, hbatch, hin⟩ := List.mem_flatten.1 hearlier
  obtain ⟨stream, hstream, hbatch⟩ := List.mem_flatten.1 hbatch
  exact h.2.2 stream.flatten (List.mem_map_of_mem hstream) _ List.mem_cons_self kind key earlier
    (List.mem_flatten.2 ⟨batch, hbatch, hin⟩) (Router.isAppliedTo_iff.1 htells) message hm
    (Router.isAppliedTo_iff.1 happlied)

/-- Workers that are apart stay apart. -/
theorem Step.apart {engine : Engine σ} {router : Router} {team next : Team σ}
    (step : Step engine team next) (apart : Apart router team.pending) :
    Apart router next.pending := by
  cases step with
  | handle => exact apart.shrink fun m hm => List.mem_cons_of_mem _ hm
  | proceed => exact apart.shrink fun m hm => hm
  | pass => exact apart

/-- Where workers are apart, the messages on a key keep their order in the queue. -/
theorem Step.filter_queue {engine : Engine σ} {router : Router} {team next : Team σ}
    (step : Step engine team next) (apart : Apart router team.pending) (kind : Kind) (key : Int64) :
    next.queue.filter (fun m => (router.outcome m).isAppliedTo kind key) =
      team.queue.filter fun m => (router.outcome m).isAppliedTo kind key := by
  rcases step.queue_cases with
    h | ⟨before, message, rest, batches, after, hpending, -, done, behind, h, h'⟩
  · rw [h]
  · rw [hpending] at apart
    rw [h, h']
    simp only [List.filter_append, List.filter_cons]
    by_cases happlied : (router.outcome message).isAppliedTo kind key = true
    · -- None of the messages that it overtakes is on its key.
      rw [apart.filter_messages List.mem_cons_self happlied]
      rfl
    · rw [if_neg happlied, if_neg happlied]

/-! ## What a team comes to -/

namespace Completes

variable {router : Router} {tuning : Tuning} {pending : List (List (List Message))}

/-- What a team did went through its engine. -/
theorem handles {engine : Engine σ} {t : Timeline (Site σ)} {team : Team σ}
    (h : Completes engine pending t team) : engine.Handles team.handled t team.timeline := by
  have hsteps := h.steps
  clear h
  induction hsteps with
  | refl => exact .start
  | tail _ step ih => exact step.handles ih

/-- At the end nothing but the messages that were handled is left of the queue. -/
theorem queue_eq {engine : Engine σ} {t : Timeline (Site σ)} {team : Team σ}
    (h : Completes engine pending t team) : team.queue = team.handled.map Prod.fst := by
  unfold queue
  rw [h.done, List.append_nil]

/-- A team handles each of its messages once. -/
theorem perm {engine : Engine σ} {t : Timeline (Site σ)} {team : Team σ}
    (h : Completes engine pending t team) :
    (team.handled.map Prod.fst).Perm (messages pending) := by
  rw [← h.queue_eq]
  have hsteps := h.steps
  clear h
  induction hsteps with
  | refl => exact .refl _
  | tail _ step ih => exact step.perm.trans ih

variable {t : Timeline (Site MemoryStore)} {team : Team MemoryStore}

/-- The messages that were applied to a key are those that the router applies to it. -/
theorem appliedTo_eq (h : Completes (Engine.inMemory router tuning) pending t team) (kind : Kind)
    (key : Int64) :
    team.appliedTo kind key =
      (team.handled.map Prod.fst).filter fun m => (router.outcome m).isAppliedTo kind key := by
  unfold appliedTo
  rw [h.handles.inMemory.1]
  simp only [List.map_map, List.filter_map]
  rfl

/-- Where workers are apart, the messages that were applied to a key come in the order in which the
workers have them, however they take turns. -/
theorem appliedTo_of_apart (h : Completes (Engine.inMemory router tuning) pending t team)
    (apart : Apart router pending) (kind : Kind) (key : Int64) :
    team.appliedTo kind key =
      (messages pending).filter fun m => (router.outcome m).isAppliedTo kind key := by
  rw [h.appliedTo_eq, ← h.queue_eq]
  have hsteps := h.steps
  clear h
  have hboth : Apart router team.pending ∧
      team.queue.filter (fun m => (router.outcome m).isAppliedTo kind key) =
        (messages pending).filter fun m => (router.outcome m).isAppliedTo kind key := by
    induction hsteps with
    | refl => exact ⟨apart, rfl⟩
    | tail _ step ih => exact ⟨step.apart ih.1, (step.filter_queue ih.1 kind key).trans ih.2⟩
  exact hboth.2

end Completes

/-- Handling a stretch of messages in one go is a way for a worker to handle them. -/
theorem steps_handleAll (engine : Engine σ) (before after : List (List (List Message)))
    (batches : List (List Message)) (stretch : List Message) (handled : List (Message × Outcome))
    (t : Timeline (Site σ)) :
    Relation.ReflTransGen (Step engine) ⟨before ++ (stretch :: batches) :: after, handled, t⟩
      ⟨before ++ ([] :: batches) :: after, handled ++ stretch.zip (engine.handleAll stretch t).1,
        (engine.handleAll stretch t).2⟩ := by
  induction stretch generalizing handled t with
  | nil =>
    rw [List.zip_nil_left, List.append_nil]
    exact .refl
  | cons message rest ih =>
    have hrest := ih (handled ++ [(message, (engine.handle message t).1)])
      (engine.handle message t).2
    rw [List.append_assoc] at hrest
    exact .head (.handle before) hrest

/-- Handling a batch is a way for a worker to handle its messages. -/
theorem steps_handleBatch (engine : Engine σ) (before after : List (List (List Message)))
    (batches : List (List Message)) (batch : List Message) (handled : List (Message × Outcome))
    (t : Timeline (Site σ)) :
    Relation.ReflTransGen (Step engine) ⟨before ++ (batch :: batches) :: after, handled, t⟩
      ⟨before ++ batches :: after,
        handled ++ batch.zip (engine.handleBatch batch t).1.outcomes,
        (engine.handleBatch batch t).2⟩ := by
  -- The line about the batch does not concern messages.
  have hline : (engine.handleAll batch t).2.Passes (engine.handleBatch batch t).2 :=
    Timeline.passes_of_state_eq rfl
  have hbatch := steps_handleAll engine before after batches batch handled t
  exact (hbatch.tail (.proceed before)).tail (.pass hline)

/-- Only the order within each key matters. Two teams start over the same store in memory with the
same messages, dealt out to any workers and cut into batches in any way, and each of their workers
takes its messages in order. Then each message has the same outcome in both, and the counts are the
same. If in both the messages that are applied to a key come in the same order, for each key, then
the store is the same too, and with it every size, list and partition. That is so, however the
workers take turns, if no two workers of a team have messages on one key and the workers of both
have the same messages one after the other. -/
theorem agree_of_order_within_keys {router : Router} {tuning₁ tuning₂ : Tuning}
    {pending₁ pending₂ : List (List (List Message))} {t : Timeline (Site MemoryStore)}
    {team₁ team₂ : Team MemoryStore}
    (first : Completes (Engine.inMemory router tuning₁) pending₁ t team₁)
    (second : Completes (Engine.inMemory router tuning₂) pending₂ t team₂)
    (same : (messages pending₁).Perm (messages pending₂)) :
    let store₁ := team₁.timeline.state.store
    let store₂ := team₂.timeline.state.store
    (team₁.handled.map Prod.fst).Perm (messages pending₁) ∧
    team₁.handled.Perm team₂.handled ∧
    (∀ message outcome outcome', (message, outcome) ∈ team₁.handled →
      (message, outcome') ∈ team₂.handled → outcome = outcome') ∧
    team₁.timeline.state.recorder.snapshot = team₂.timeline.state.recorder.snapshot ∧
    ((∀ kind key, team₁.appliedTo kind key = team₂.appliedTo kind key) →
      store₁ = store₂ ∧
      (∀ kind, store₁.size kind = store₂.size kind) ∧
      (∀ kind limit, store₁.list kind limit = store₂.list kind limit) ∧
      ∀ kind key, store₁.partitionOf kind key = store₂.partitionOf kind key) ∧
    (Apart router pending₁ → Apart router pending₂ → messages pending₁ = messages pending₂ →
      ∀ kind key, team₁.appliedTo kind key = team₂.appliedTo kind key) := by
  intro store₁ store₂
  obtain ⟨houtcomes₁, hstore₁⟩ := first.handles.inMemory
  obtain ⟨houtcomes₂, hstore₂⟩ := second.handles.inMemory
  have hperm : (team₁.handled.map Prod.fst).Perm (team₂.handled.map Prod.fst) :=
    first.perm.trans (same.trans second.perm.symm)
  have hhandled : team₁.handled.Perm team₂.handled := by
    rw [houtcomes₁, houtcomes₂]
    exact hperm.map _
  refine ⟨first.perm, hhandled, ?_, ?_, fun horder => ?_, fun apart₁ apart₂ heq kind key => ?_⟩
  · -- Both are the outcome that the router decides.
    intro message outcome outcome' h₁ h₂
    rw [houtcomes₁] at h₁
    rw [houtcomes₂] at h₂
    obtain ⟨m, -, h₁⟩ := List.mem_map.1 h₁
    obtain ⟨m', -, h₂⟩ := List.mem_map.1 h₂
    cases h₁
    cases h₂
    rfl
  · have hread : team₁.timeline.state.recorder.read = team₂.timeline.state.recorder.read := by
      funext cell
      rw [first.handles.read, second.handles.read, (hhandled.flatMap_right _).count_eq]
    show Snapshot.ofReads _ = Snapshot.ofReads _
    rw [hread]
  · have hkeys : ∀ kind key,
        (team₁.handled.map Prod.fst).filter (fun m => (router.outcome m).isAppliedTo kind key) =
          (team₂.handled.map Prod.fst).filter fun m => (router.outcome m).isAppliedTo kind key := by
      intro kind key
      rw [← first.appliedTo_eq, ← second.appliedTo_eq, horder]
    have hstores : store₁ = store₂ := by
      calc store₁ = t.state.store.carryAll (router.actions (team₁.handled.map Prod.fst)) := hstore₁
        _ = t.state.store.carryAll (router.actions (team₂.handled.map Prod.fst)) :=
            MemoryStore.carryAll_actions_congr hkeys _
        _ = store₂ := hstore₂.symm
    exact ⟨hstores, fun kind => by rw [hstores], fun kind limit => by rw [hstores],
      fun kind key => by rw [hstores]⟩
  · rw [first.appliedTo_of_apart apart₁, second.appliedTo_of_apart apart₂, heq]

/-- A worker with two changes to a customer and one with a product take turns, or the first worker
goes first. -/
theorem agree_of_order_within_keys_turns :
    let change (topic : String) (offset : Int64) (text : String) : Message :=
      ⟨topic, 0, offset, some text.toUTF8.toList⟩
    let added := change "shop.public.customers" 0
      "\x7b\"op\":\"c\",\"after\":\x7b\"id\":1,\"name\":\"Jo\"\x7d\x7d"
    let renamed := change "shop.public.customers" 1
      "\x7b\"op\":\"u\",\"after\":\x7b\"id\":1,\"name\":\"Joe\"\x7d\x7d"
    let product := change "shop.public.products" 0
      "\x7b\"op\":\"c\",\"after\":\x7b\"id\":2,\"name\":\"Cup\"\x7d\x7d"
    let engine := Engine.inMemory .builtIn .default
    let t := Timeline.start (Site.new MemoryStore.new)
    let turns := (engine.handle renamed (engine.handle product (engine.handle added t).2).2).2
    let batches := (engine.handleBatch [product] (engine.handleBatch [added, renamed] t).2).2
    turns.state.store = batches.state.store ∧
      turns.state.recorder.snapshot = batches.state.recorder.snapshot := by
  intro change added renamed product engine t turns batches
  have hadded : Router.builtIn.outcome added = .applied .inserted .customer 1 := by
    decide +kernel +zetaReduce
  have hrenamed : Router.builtIn.outcome renamed = .applied .updated .customer 1 := by
    decide +kernel +zetaReduce
  have hproduct : Router.builtIn.outcome product = .applied .inserted .product 2 := by
    decide +kernel +zetaReduce
  -- From here on only these facts matter: nothing is run.
  clear_value added renamed product t
  let pending : List (List (List Message)) := [[[added, renamed]], [[product]]]
  have apart : Apart .builtIn pending := by
    refine List.pairwise_pair.2 fun kind key message hm htells message' hm' htells' => ?_
    rw [← Router.isAppliedTo_iff] at htells htells'
    rw [List.mem_singleton.1 hm', hproduct] at htells'
    obtain ⟨rfl, -⟩ := decide_eq_true_iff.1 htells'
    rcases List.mem_pair.1 hm with rfl | rfl
    · rw [hadded] at htells
      simp [Outcome.isAppliedTo] at htells
    · rw [hrenamed] at htells
      simp [Outcome.isAppliedTo] at htells
  have first : Completes engine pending t ⟨[[[]], [[]]], _, turns⟩ :=
    ⟨.head (.handle []) (.head (.handle [[[renamed]]]) (.single (.handle []))), rfl⟩
  have second : Completes engine pending t ⟨[[], []], _, batches⟩ :=
    ⟨(steps_handleBatch engine [] _ [] _ _ _).trans (steps_handleBatch engine [[]] [] [] _ _ _),
      rfl⟩
  obtain ⟨-, -, -, hsnapshot, hstore, horder⟩ := agree_of_order_within_keys first second (.refl _)
  exact ⟨(hstore (horder apart apart rfl)).1, hsnapshot⟩

end Team

end ChangeFeed
