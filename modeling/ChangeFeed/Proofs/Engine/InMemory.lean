import ChangeFeed.Proofs.Engine.Attempts
import ChangeFeed.Proofs.Store.Replay

/-!
# An engine over a store in memory

The store in memory answers at once and never fails. An engine over it applies every message that
its router plans an action for, by carrying that action out on the store, and leaves the store alone
otherwise (`handle_inMemory`, `handleAll_inMemory`); looking up partitions changes nothing.

`lookup?_handleBatch` states what follows for a batch: the last message that is applied to a key
decides what is under it afterwards.
-/

namespace ChangeFeed

variable {σ α ε : Type}

/-- An operation that succeeds at once is not retried. -/
theorem Retry.loop_of_ok {policy : Retry.Policy} {isRetryable : ε → Bool}
    {causeMessage : ε → String} {operation : Timeline σ → Except ε α × Timeline σ} {a : α}
    {t t' : Timeline σ} (h : operation t = (.ok a, t')) (room attempt : Nat) :
    Retry.loop policy isRetryable causeMessage operation room attempt t =
      (.ok a, t'.countAttempts .success attempt) := by
  unfold Retry.loop
  rw [h]

namespace Engine

/-- A call that is answered at once, and well, succeeds with its first attempt and in no time. -/
theorem call_eq_of_immediate (engine : Engine σ) (action : Action)
    {request : Timeline (Site σ) → Reply (Site σ) (Except StoreError α)} {a : α}
    {t : Timeline (Site σ)} (hdelay : (request t).delay = some .zero)
    (hanswer : (request t).answer = .ok a) :
    engine.call action request t =
      (.ok a, (((t.answered .zero (request t)).countCall .completed).countAttempts .success
        1).update (·.record (·.observe action.kind.collection .zero))) := by
  have honce : engine.callOnce request t =
      (.ok a, (t.answered .zero (request t)).countCall .completed) := by
    unfold callOnce Timeline.withLimitResult
    rw [Timeline.await?_of_immediate _ _ _ hdelay, hanswer]
  have hrun : Retry.run engine.tuning.retry StoreError.isRetryable StoreError.message
      (engine.callOnce request) t =
        (.ok a, ((t.answered .zero (request t)).countCall .completed).countAttempts .success 1) :=
    Retry.loop_of_ok honce _ _
  have hnow : (t.answered .zero (request t)).now - t.now = 0 := by
    show t.now + Duration.zero.timer.nanos - t.now = 0
    rw [Timeline.nanos_timer_zero, Nat.add_zero, Nat.sub_self]
  have helapsed : Duration.ofNanos ((((t.answered .zero (request t)).countCall
      .completed).countAttempts .success 1).now - t.now) = .zero :=
    congrArg Duration.ofNanos hnow
  unfold call
  rw [hrun]
  dsimp only
  rw [helapsed]

/-- A call that is answered at once, and well, succeeds and leaves the answer's state. -/
theorem call_of_immediate (engine : Engine σ) (action : Action)
    {request : Timeline (Site σ) → Reply (Site σ) (Except StoreError α)} {a : α}
    {t : Timeline (Site σ)} (hdelay : (request t).delay = some .zero)
    (hanswer : (request t).answer = .ok a) :
    (engine.call action request t).1 = .ok a ∧
      (engine.call action request t).2.state.store = (request t).after.store := by
  rw [engine.call_eq_of_immediate action hdelay hanswer]
  exact ⟨rfl, rfl⟩

/-- The engine over a store in memory. -/
def inMemory (router : Router) (tuning : Tuning) : Engine MemoryStore :=
  ⟨router, MemoryStore.adapter, tuning⟩

variable (router : Router) (tuning : Tuning)

/-- Looking up partitions does not change a store in memory. -/
theorem looksOnly_inMemory : (inMemory router tuning).LooksOnly id :=
  fun _ _ => ⟨rfl, rfl⟩

/-- Over a store in memory the calls of an action succeed and carry it out on the store. -/
theorem change_inMemory (action : Action) (t : Timeline (Site MemoryStore)) :
    (∃ ending, ((inMemory router tuning).change action t).1 = .ok ending) ∧
      ((inMemory router tuning).change action t).2.state.store = t.state.store.carry action := by
  cases action with
  | upsert op record =>
    have hdelay : ((inMemory router tuning).put record t).delay = some .zero := rfl
    obtain ⟨hok, hstore⟩ :=
      call_of_immediate (inMemory router tuning) (.upsert op record) hdelay rfl
    exact ⟨⟨.stored, congrArg (Except.map fun _ => CallEnd.stored) hok⟩, hstore⟩
  | delete kind key =>
    have hdelay : ((inMemory router tuning).remove kind key t).delay = some .zero := rfl
    obtain ⟨hok, hstore⟩ :=
      call_of_immediate (inMemory router tuning) (.delete kind key) hdelay rfl
    exact ⟨⟨_, congrArg (Except.map CallEnd.removed) hok⟩, hstore⟩

/-- Over a store in memory every action succeeds and is carried out on the store. -/
theorem perform_inMemory (action : Action) (t : Timeline (Site MemoryStore)) :
    ((inMemory router tuning).perform action t).1 = .ok () ∧
      ((inMemory router tuning).perform action t).2.state.store = t.state.store.carry action := by
  obtain ⟨⟨ending, hok⟩, hstore⟩ := change_inMemory router tuning action t
  obtain ⟨hresult, hafter⟩ := (inMemory router tuning).perform_eq_change action t
  refine ⟨by rw [hresult, hok]; rfl, ?_⟩
  -- What comes after the calls of the action only looks.
  exact (hafter.keeps (looksOnly_inMemory router tuning)).trans hstore

/-- Over a store in memory an event comes to what is planned for it, and that is carried out. -/
theorem carryOut_inMemory (event : ChangeEvent) (t : Timeline (Site MemoryStore)) :
    ((inMemory router tuning).carryOut event t).1 = router.plan event ∧
      ((inMemory router tuning).carryOut event t).2.state.store =
        t.state.store.carryAll (router.plan event).toOption.toList := by
  have hplanned : (inMemory router tuning).router.plan event = router.plan event := rfl
  rw [← hplanned]
  cases hplan : (inMemory router tuning).router.plan event with
  | error e =>
    rw [carryOut_of_error hplan]
    cases e <;> exact ⟨rfl, rfl⟩
  | ok action =>
    obtain ⟨hok, hstore⟩ := perform_inMemory router tuning action t
    rw [carryOut_of_ok hplan, hok]
    exact ⟨rfl, hstore⟩

end Engine

namespace Router

/-- The outcome that a message comes to, as far as its router decides. -/
def outcome (router : Router) (message : Message) : Outcome :=
  .ofResult (router.planMessage message)

/-- The actions of those messages that have one. -/
def actions (router : Router) (messages : List Message) : List Action :=
  messages.filterMap fun message => (router.planMessage message).toOption

/-- The actions of messages behind others stand behind the actions of those. -/
theorem actions_append (router : Router) (earlier later : List Message) :
    router.actions (earlier ++ later) = router.actions earlier ++ router.actions later :=
  List.filterMap_append

end Router

namespace Engine

variable (router : Router) (tuning : Tuning)

/-- Over a store in memory a message comes to the outcome that its router decides, and its action is
carried out. -/
theorem handle_inMemory (message : Message) (t : Timeline (Site MemoryStore)) :
    ((inMemory router tuning).handle message t).1 = router.outcome message ∧
      ((inMemory router tuning).handle message t).2.state.store =
        t.state.store.carryAll (router.actions [message]) := by
  have hactions : router.actions [message] = (router.planMessage message).toOption.toList := by
    unfold Router.actions
    rw [List.filterMap_cons]
    cases router.planMessage message <;> rfl
  rw [hactions]
  unfold Router.outcome Router.planMessage
  cases hm : ChangeEvent.ofMessage message with
  | error e =>
    rw [handle_of_error hm]
    exact ⟨rfl, rfl⟩
  | ok event =>
    obtain ⟨hresult, hstore⟩ := carryOut_inMemory router tuning event t
    rw [handle_of_ok hm]
    exact ⟨congrArg Outcome.ofResult hresult, hstore⟩

/-- Over a store in memory messages come to the outcomes that their router decides, one by one, and
their actions are carried out in order. -/
theorem handleAll_inMemory (messages : List Message) (t : Timeline (Site MemoryStore)) :
    ((inMemory router tuning).handleAll messages t).1 = messages.map router.outcome ∧
      ((inMemory router tuning).handleAll messages t).2.state.store =
        t.state.store.carryAll (router.actions messages) := by
  induction messages generalizing t with
  | nil => exact ⟨rfl, rfl⟩
  | cons message rest ih =>
    obtain ⟨hout, hstore⟩ := handle_inMemory router tuning message t
    obtain ⟨houts, hrest⟩ := ih ((inMemory router tuning).handle message t).2
    have hsplit : message :: rest = [message] ++ rest := rfl
    refine ⟨?_, ?_⟩
    · exact congrArg₂ List.cons hout houts
    · rw [hsplit, Router.actions_append, MemoryStore.carryAll_append, ← hstore]
      exact hrest

/-- Over a store in memory a batch comes to what its messages come to. -/
theorem handleBatch_inMemory (batch : List Message) (t : Timeline (Site MemoryStore)) :
    ((inMemory router tuning).handleBatch batch t).1.outcomes = batch.map router.outcome ∧
      ((inMemory router tuning).handleBatch batch t).2.state.store =
        t.state.store.carryAll (router.actions batch) :=
  handleAll_inMemory router tuning batch t

end Engine

/-! ## The last message on a key -/

/-- Whether an event was applied to a key of a kind. -/
def Outcome.isAppliedTo (kind : Kind) (key : Int64) : Outcome → Bool
  | .applied _ kind' key' => kind' = kind ∧ key' = key
  | .rejected _ => false

namespace Router

/-- A message tells of a change to a key of a kind: it holds an event on a table of that kind, with
an image before a delete that has the key, or an image after any other change that is a record with
the key. -/
def TellsOf (router : Router) (kind : Kind) (key : Int64) (message : Message) : Prop :=
  ∃ event, ChangeEvent.ofMessage message = .ok event ∧ router.route? event.table = some kind ∧
    if event.operation = .delete then
      ∃ image, event.before = some image ∧ kind.decodeKey image = .ok key
    else
      ∃ image record, event.after = some image ∧ kind.decode image = .ok record ∧ record.key = key

/-- A message that is applied has an action, on the key it is applied to. -/
theorem exists_action_of_isAppliedTo {router : Router} {message : Message} {kind : Kind}
    {key : Int64} (h : (router.outcome message).isAppliedTo kind key = true) :
    ∃ action, router.planMessage message = .ok action ∧ action.kind = kind ∧ action.key = key := by
  unfold outcome at h
  cases hplan : router.planMessage message with
  | error e =>
    rw [hplan] at h
    cases h
  | ok action =>
    rw [hplan] at h
    exact ⟨action, rfl, decide_eq_true_iff.1 h⟩

/-- The actions on a key are those of the messages that are applied to it. -/
theorem filter_actions (router : Router) (messages : List Message) (kind : Kind) (key : Int64) :
    (router.actions messages).filter (Action.concerns kind key) =
      router.actions (messages.filter fun m => (router.outcome m).isAppliedTo kind key) := by
  unfold actions
  rw [List.filter_filterMap, List.filterMap_filter]
  congr 1
  funext message
  unfold outcome
  cases router.planMessage message with
  | error e => rfl
  | ok action =>
    show Option.filter _ (some action) = _
    rw [Option.filter_some]
    rfl

/-- What some messages leave under a key is what the action of the last of them leaves that is
applied to the key. -/
theorem lastContent?_actions (router : Router) (messages : List Message) (kind : Kind)
    (key : Int64) :
    Action.lastContent? (router.actions messages) kind key =
      (messages.filter fun m => (router.outcome m).isAppliedTo kind key).getLast?.bind
        fun m => (router.planMessage m).toOption.map Action.content := by
  unfold Action.lastContent?
  rw [filter_actions]
  rcases List.eq_nil_or_concat
    (messages.filter fun m => (router.outcome m).isAppliedTo kind key) with hnil | ⟨init, m, hlast⟩
  · rw [hnil]
    rfl
  · rw [List.concat_eq_append] at hlast
    -- The last of these messages is applied, so its action is the last of their actions.
    have hm : (router.outcome m).isAppliedTo kind key = true := by
      have : m ∈ messages.filter fun m => (router.outcome m).isAppliedTo kind key := by
        rw [hlast]
        exact List.mem_append_right _ (List.mem_singleton.2 rfl)
      exact (List.mem_filter.1 this).2
    obtain ⟨action, hplan, -, -⟩ := exists_action_of_isAppliedTo hm
    have hone : router.actions [m] = [action] := by
      unfold actions
      rw [List.filterMap_cons, hplan]
      rfl
    rw [hlast, actions_append, hone, List.getLast?_concat, List.getLast?_concat]
    simp only [Option.bind_some, hplan]
    rfl

/-- What the action of a message leaves under its key is the record of the image after the change,
with the record's own parent, or nothing if the message tells of a delete. -/
theorem content_of_planMessage {router : Router} {message : Message} {action : Action}
    (h : router.planMessage message = .ok action) :
    ∃ event, ChangeEvent.ofMessage message = .ok event ∧
      router.route? event.table = some action.kind ∧
      if event.operation = .delete then
        (∃ image, event.before = some image ∧ action.kind.decodeKey image = .ok action.key) ∧
          action.content = none
      else
        ∃ image record, event.after = some image ∧ action.kind.decode image = .ok record ∧
          record.key = action.key ∧ action.content = some ⟨record, record.affinity⟩ := by
  obtain ⟨event, hevent, hplan⟩ := planMessage_eq_ok_iff.1 h
  obtain ⟨kind, image, hroute, himage, hact⟩ := plan_eq_ok_iff.1 hplan
  unfold ChangeEvent.image? at himage
  rcases Kind.action_eq_ok_iff.1 hact with ⟨hop, record, hdecode, rfl⟩ | ⟨hop, key, hdecode, rfl⟩
  · have hne : event.operation ≠ .delete := fun hdelete => by
      rw [hdelete] at hop
      cases hop
    -- The action is on the record's kind, which is the kind that the table is routed to.
    have hkind : record.kind = kind := Kind.kind_of_decode hdecode
    subst hkind
    rw [hop] at himage
    refine ⟨event, hevent, hroute, ?_⟩
    rw [if_neg hne]
    exact ⟨image, record, himage, hdecode, rfl, rfl⟩
  · rw [hop] at himage
    refine ⟨event, hevent, hroute, ?_⟩
    rw [if_pos hop]
    exact ⟨⟨image, himage, hdecode⟩, rfl⟩

/-- The messages that are applied to a key are those that tell of a change to it. -/
theorem isAppliedTo_iff {router : Router} {message : Message} {kind : Kind} {key : Int64} :
    (router.outcome message).isAppliedTo kind key = true ↔ router.TellsOf kind key message := by
  constructor
  · intro h
    obtain ⟨action, hplan, rfl, rfl⟩ := exists_action_of_isAppliedTo h
    obtain ⟨event, hevent, hroute, hcontent⟩ := content_of_planMessage hplan
    refine ⟨event, hevent, hroute, ?_⟩
    split at hcontent
    · next hop =>
      rw [if_pos hop]
      exact hcontent.1
    · next hop =>
      obtain ⟨image, record, himage, hdecode, hkey, -⟩ := hcontent
      rw [if_neg hop]
      exact ⟨image, record, himage, hdecode, hkey⟩
  · rintro ⟨event, hevent, hroute, himages⟩
    -- The image that the operation uses gives the action, and the action the outcome.
    have planned : ∀ image action, event.image? = some image →
        kind.action event image = .ok action →
        router.outcome message = .applied action.effect action.kind action.key := by
      intro image action himage haction
      have hplan : router.planMessage message = .ok action :=
        planMessage_eq_ok_iff.2 ⟨event, hevent,
          plan_eq_ok_iff.2 ⟨kind, image, hroute, himage, haction⟩⟩
      unfold outcome
      rw [hplan]
      rfl
    split at himages
    · next hop =>
      obtain ⟨image, himage, hdecode⟩ := himages
      rw [planned image (.delete kind key) (by rw [ChangeEvent.image?, hop]; exact himage)
        (Kind.action_eq_ok_iff.2 (.inr ⟨hop, key, hdecode, rfl⟩))]
      exact decide_eq_true ⟨rfl, rfl⟩
    · next hop =>
      obtain ⟨image, record, himage, hdecode, hkey⟩ := himages
      have hupsert : event.operation.isUpsert = true := by
        rw [← Bool.not_eq_false]
        exact fun hfalse => hop (Operation.isUpsert_eq_false_iff.1 hfalse)
      rw [planned image (.upsert event.operation record)
        (by rw [ChangeEvent.image?, hupsert]; exact himage)
        (Kind.action_eq_ok_iff.2 (.inl ⟨hupsert, record, hdecode, rfl⟩))]
      exact decide_eq_true ⟨Kind.kind_of_decode hdecode, hkey⟩

/-- Messages that are rejected have no action. -/
theorem actions_filter_isApplied (router : Router) (messages : List Message) :
    router.actions (messages.filter fun m => (router.outcome m).isApplied) =
      router.actions messages := by
  unfold actions
  rw [List.filterMap_filter]
  congr 1
  funext message
  unfold outcome
  cases router.planMessage message <;> rfl

end Router

namespace Engine

/-- The last message that is applied to a key decides what a batch leaves under it: the record that
its image after the change holds, with the record's own parent, or nothing after a delete. A key
that no message is applied to keeps its entry. Which messages are applied, and to which key, the
router decides from each message alone: those that tell of a change to the key. Messages that are
rejected might as well be left out. -/
theorem lookup?_handleBatch (router : Router) (tuning : Tuning) (batch : List Message)
    (t : Timeline (Site MemoryStore)) :
    let (report, handled) := (inMemory router tuning).handleBatch batch t
    report.outcomes = batch.map router.outcome ∧
    (∀ message kind key,
      (router.outcome message).isAppliedTo kind key = true ↔ router.TellsOf kind key message) ∧
    (∀ kind key,
      match (batch.filter fun m => (router.outcome m).isAppliedTo kind key).getLast? with
      | none => handled.state.store.lookup? kind key = t.state.store.lookup? kind key
      | some message =>
        ∃ event, ChangeEvent.ofMessage message = .ok event ∧
          router.route? event.table = some kind ∧
          if event.operation = .delete then
            (∃ image, event.before = some image ∧ kind.decodeKey image = .ok key) ∧
              handled.state.store.lookup? kind key = none
          else
            ∃ image record, event.after = some image ∧ kind.decode image = .ok record ∧
              record.key = key ∧
              handled.state.store.lookup? kind key = some ⟨record, record.affinity⟩) ∧
    handled.state.store = ((inMemory router tuning).handleBatch
      (batch.filter fun m => (router.outcome m).isApplied) t).2.state.store := by
  obtain ⟨houtcomes, hstore⟩ := handleBatch_inMemory router tuning batch t
  refine ⟨houtcomes, fun message kind key => Router.isAppliedTo_iff, fun kind key => ?_, ?_⟩
  · have hlookup := t.state.store.lookup?_carryAll (router.actions batch) kind key
    rw [Router.lastContent?_actions, ← hstore] at hlookup
    cases hlast : (batch.filter fun m => (router.outcome m).isAppliedTo kind key).getLast? with
    | none =>
      rw [hlast] at hlookup
      exact hlookup
    | some message =>
      have hm : (router.outcome message).isAppliedTo kind key = true :=
        (List.mem_filter.1 (List.mem_of_getLast? hlast)).2
      obtain ⟨action, hplan, rfl, rfl⟩ := Router.exists_action_of_isAppliedTo hm
      rw [hlast, Option.bind_some, hplan] at hlookup
      have hentry : ((inMemory router tuning).handleBatch batch t).2.state.store.lookup?
          action.kind action.key = action.content := hlookup
      obtain ⟨event, hevent, hroute, hcontent⟩ := Router.content_of_planMessage hplan
      rw [← hentry] at hcontent
      exact ⟨event, hevent, hroute, hcontent⟩
  · rw [(handleBatch_inMemory router tuning _ t).2, Router.actions_filter_isApplied]
    exact hstore

end Engine

end ChangeFeed
