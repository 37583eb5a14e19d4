import ChangeFeed.Proofs.Engine.InMemory
import ChangeFeed.Proofs.Event.Payload

/-!
# What does not matter to the data

Of the envelope in a message, an engine uses the operation, the name of the source and the image
that the operation uses. It notes the rest of what it is told, but the plan does not depend on it
(`Router.plan_of_agree`), except for which image a malformed event is said to lack. Over a store in
memory the plan decides everything, so messages that tell the same change leave the same store and
the same metrics, however they differ otherwise: in their timestamps, their places in the log, the
rest of what they say about their source, members that no envelope has, and the other image
(`Engine.indifferent_handleBatch`).
-/

namespace ChangeFeed

variable {σ : Type}

/-- Two payloads agree on their operation, on the image that it uses, and on the name of their
source: the qualified table, or else the topic they came in over. -/
structure Payload.Agrees (topic topic' : String) (payload payload' : Payload) : Prop where
  operation : payload.operation = payload'.operation
  source : (payload.source.bind Source.qualifiedTable?).getD topic =
    (payload'.source.bind Source.qualifiedTable?).getD topic'
  image : if payload.operation = .delete then payload.before = payload'.before
    else payload.after = payload'.after

/-- Two messages tell the same change: there is an envelope in both, and the payloads agree. -/
def Message.TellsSame (message message' : Message) : Prop :=
  ∃ bytes bytes' envelope envelope', message.payload = some bytes ∧ message'.payload = some bytes' ∧
    Envelope.parse bytes = .ok envelope ∧ Envelope.parse bytes' = .ok envelope' ∧
    envelope.payload.Agrees message.topic message'.topic envelope'.payload

/-- Two outcomes are the same, but for what is said to be missing from a malformed event. -/
def Outcome.SameButForText (outcome outcome' : Outcome) : Prop :=
  outcome = outcome' ∨ ∃ table cause cause',
    outcome = .rejected (.malformed table cause) ∧ outcome' = .rejected (.malformed table cause')

/-- A message with an envelope in it holds an event. -/
theorem ChangeEvent.ofMessage_of_parse {message : Message} {bytes : List UInt8}
    {envelope : Envelope} (hbytes : message.payload = some bytes)
    (hparse : Envelope.parse bytes = .ok envelope) :
    ofMessage message = .ok (ofPayload message.topic envelope.payload) := by
  unfold ofMessage
  rw [hbytes]
  exact ofBytes_of_parse hparse message.topic

/-- The image that an event of a payload uses. -/
theorem ChangeEvent.image?_ofPayload (topic : String) (payload : Payload) :
    (ofPayload topic payload).image? =
      if payload.operation = .delete then payload.before else payload.after := by
  unfold image? ofPayload
  cases payload.operation <;> rfl

namespace Router

variable {router : Router} {event event' : ChangeEvent} {kind : Kind}

/-- The plan for an event whose image is there is the action of its kind on the image. -/
theorem plan_of_image? {image : Json} (hroute : router.route? event.table = some kind)
    (himage : event.image? = some image) : router.plan event = kind.action event image := by
  have hread : event.image = .ok image := by
    unfold ChangeEvent.image
    rw [himage]
  unfold plan
  rw [hroute]
  dsimp only
  rw [ChangeEvent.validate_of_image? himage, hread]
  rfl

/-- An event without the image that it uses is malformed, whether or not the other image is
there. -/
theorem plan_of_image?_none (hroute : router.route? event.table = some kind)
    (himage : event.image? = none) :
    ∃ cause, router.plan event = .error (.malformed event.table cause) := by
  have hread : event.image = .error (.malformed event.table (.missingImage event.operation)) := by
    unfold ChangeEvent.image
    rw [himage]
  unfold plan ChangeEvent.validate
  rw [hroute]
  dsimp only
  split
  · exact ⟨_, rfl⟩
  · rw [hread]
    exact ⟨_, rfl⟩

/-- Events that agree on their operation, their table and the image that they use have the same
plan, or are both malformed. -/
theorem plan_of_agree (router : Router) (hoperation : event.operation = event'.operation)
    (htable : event.table = event'.table) (himage : event.image? = event'.image?) :
    router.plan event = router.plan event' ∨ ∃ table cause cause',
      router.plan event = .error (.malformed table cause) ∧
        router.plan event' = .error (.malformed table cause') := by
  cases hroute : router.route? event.table with
  | none =>
    have hroute' : router.route? event'.table = none := htable ▸ hroute
    left
    unfold plan
    rw [hroute, hroute', htable]
  | some kind =>
    have hroute' : router.route? event'.table = some kind := htable ▸ hroute
    cases hi : event.image? with
    | none =>
      obtain ⟨cause, hplan⟩ := plan_of_image?_none hroute hi
      obtain ⟨cause', hplan'⟩ := plan_of_image?_none hroute' (himage ▸ hi)
      exact .inr ⟨event.table, cause, cause', hplan, htable ▸ hplan'⟩
    | some image =>
      -- Of the event itself the action uses the operation and the table only.
      have haction : kind.action event image = kind.action event' image := by
        unfold Kind.action
        rw [hoperation, htable]
      left
      rw [plan_of_image? hroute hi, plan_of_image? hroute' (himage ▸ hi), haction]

/-- Messages that tell the same change have the same plan, or both hold a malformed event. -/
theorem planMessage_of_tellsSame (router : Router) {message message' : Message}
    (same : message.TellsSame message') :
    router.planMessage message = router.planMessage message' ∨ ∃ table cause cause',
      router.planMessage message = .error (.malformed table cause) ∧
        router.planMessage message' = .error (.malformed table cause') := by
  obtain ⟨bytes, bytes', envelope, envelope', hbytes, hbytes', hparse, hparse', agrees⟩ := same
  unfold planMessage
  rw [ChangeEvent.ofMessage_of_parse hbytes hparse, ChangeEvent.ofMessage_of_parse hbytes' hparse']
  refine router.plan_of_agree agrees.operation agrees.source ?_
  rw [ChangeEvent.image?_ofPayload, ChangeEvent.image?_ofPayload, ← agrees.operation]
  have himage := agrees.image
  split
  · next hdelete => rwa [if_pos hdelete] at himage
  · next hdelete => rwa [if_neg hdelete] at himage

end Router

/-! ## What a message leaves behind -/

/-- A recorder that observes an action, if there is one, that takes no time. -/
def Recorder.observing (recorder : Recorder) : Option Action → Recorder
  | some action => recorder.observe action.kind.collection .zero
  | none => recorder

namespace Engine

variable (router : Router) (tuning : Tuning)

/-- Over a store in memory an action is observed once, and takes no time. -/
theorem recorder_perform_inMemory (action : Action) (t : Timeline (Site MemoryStore)) :
    ((inMemory router tuning).perform action t).2.state.recorder =
      t.state.recorder.observe action.kind.collection .zero := by
  cases action with
  | upsert op record =>
    have hdelay : ((inMemory router tuning).put record t).delay = some .zero := rfl
    have hcall := (inMemory router tuning).call_eq_of_immediate (.upsert op record) hdelay rfl
    unfold perform
    dsimp only
    rw [hcall]
    exact Looks.recorder ((inMemory router tuning).looks_verifyRecord record _)
  | delete kind key =>
    have hdelay : ((inMemory router tuning).remove kind key t).delay = some .zero := rfl
    have hcall := (inMemory router tuning).call_eq_of_immediate (.delete kind key) hdelay rfl
    have hrecorder : ((inMemory router tuning).call (.delete kind key)
        ((inMemory router tuning).remove kind key) t).2.state.recorder =
          t.state.recorder.observe kind.collection .zero := by
      rw [hcall]
      rfl
    unfold perform
    dsimp only
    split <;> next h =>
      rw [h] at hrecorder
      exact hrecorder

/-- Over a store in memory an event is observed if it has a plan that is an action. -/
theorem recorder_carryOut_inMemory (event : ChangeEvent) (t : Timeline (Site MemoryStore)) :
    ((inMemory router tuning).carryOut event t).2.state.recorder =
      t.state.recorder.observing (router.plan event).toOption := by
  have hplanned : (inMemory router tuning).router.plan event = router.plan event := rfl
  rw [← hplanned]
  cases hplan : (inMemory router tuning).router.plan event with
  | error e =>
    rw [carryOut_of_error hplan]
    cases e <;> rfl
  | ok action =>
    rw [carryOut_of_ok hplan]
    exact recorder_perform_inMemory router tuning action t

/-- Over a store in memory a message is observed if its plan is an action, and then counted under
the outcome that its router decides. -/
theorem recorder_handle_inMemory (message : Message) (t : Timeline (Site MemoryStore)) :
    ((inMemory router tuning).handle message t).2.state.recorder =
      (t.state.recorder.observing (router.planMessage message).toOption).bumpAll
        (router.outcome message).cells := by
  unfold Router.outcome Router.planMessage
  cases hm : ChangeEvent.ofMessage message with
  | error e =>
    rw [handle_of_error hm]
    rfl
  | ok event =>
    have hresult := (carryOut_inMemory router tuning event t).1
    have hrecorder := recorder_carryOut_inMemory router tuning event t
    rw [handle_of_ok hm]
    show Recorder.bumpAll _ (Outcome.ofResult _).cells = _
    rw [hresult, hrecorder]
    rfl

/-- Messages that tell the same change come to the same outcome but for its text, and do the same to
a store in memory and to the recorder. -/
theorem indifferent_handle {message message' : Message} (same : message.TellsSame message')
    {t t' : Timeline (Site MemoryStore)} (hstore : t.state.store = t'.state.store)
    (hrecorder : t.state.recorder = t'.state.recorder) :
    let (outcome, done) := (inMemory router tuning).handle message t
    let (outcome', done') := (inMemory router tuning).handle message' t'
    outcome.SameButForText outcome' ∧ done.state.store = done'.state.store ∧
      done.state.recorder = done'.state.recorder := by
  obtain ⟨houtcome, hcarry⟩ := handle_inMemory router tuning message t
  obtain ⟨houtcome', hcarry'⟩ := handle_inMemory router tuning message' t'
  have hcount := recorder_handle_inMemory router tuning message t
  have hcount' := recorder_handle_inMemory router tuning message' t'
  dsimp only
  rw [houtcome, houtcome', hcarry, hcarry', hcount, hcount', hstore, hrecorder]
  unfold Router.actions Router.outcome
  rw [List.filterMap_cons, List.filterMap_cons]
  rcases router.planMessage_of_tellsSame same with
    hplan | ⟨table, cause, cause', hplan, hplan'⟩
  · rw [hplan]
    exact ⟨.inl rfl, rfl, rfl⟩
  · -- Neither has an action, and all malformed events are counted alike.
    rw [hplan, hplan']
    exact ⟨.inr ⟨table, cause, cause', rfl, rfl⟩, rfl, rfl⟩

/-- Messages that tell the same changes one by one come to the same outcomes but for their text, and
do the same to a store in memory and to the recorder. -/
theorem indifferent_handleAll {messages messages' : List Message}
    (same : List.Forall₂ Message.TellsSame messages messages') :
    ∀ {t t' : Timeline (Site MemoryStore)}, t.state.store = t'.state.store →
      t.state.recorder = t'.state.recorder →
      let (outcomes, done) := (inMemory router tuning).handleAll messages t
      let (outcomes', done') := (inMemory router tuning).handleAll messages' t'
      List.Forall₂ Outcome.SameButForText outcomes outcomes' ∧
        done.state.store = done'.state.store ∧ done.state.recorder = done'.state.recorder := by
  induction same with
  | nil =>
    intro t t' hstore hrecorder
    exact ⟨.nil, hstore, hrecorder⟩
  | cons first _ ih =>
    intro t t' hstore hrecorder
    -- The rest starts from where the first messages lead, which is the same store and recorder.
    obtain ⟨houtcome, hstore, hrecorder⟩ :=
      indifferent_handle router tuning first hstore hrecorder
    obtain ⟨houtcomes, hrest⟩ := ih hstore hrecorder
    exact ⟨.cons houtcome houtcomes, hrest⟩

/-- Only the operation, the name of the source and the image that the operation uses reach the data.
Two batches whose messages agree on these one by one, and may differ in anything else that they
hold, leave the same store and the same metrics, and their messages come to the same outcomes, but
for what is said to be missing from a malformed event. So timestamps never decide between two
versions of a row. -/
theorem indifferent_handleBatch {batch batch' : List Message}
    (same : List.Forall₂ Message.TellsSame batch batch') (t : Timeline (Site MemoryStore)) :
    let (report, done) := (inMemory router tuning).handleBatch batch t
    let (report', done') := (inMemory router tuning).handleBatch batch' t
    done.state.store = done'.state.store ∧
      done.state.recorder = done'.state.recorder ∧
      List.Forall₂ Outcome.SameButForText report.outcomes report'.outcomes := by
  obtain ⟨houtcomes, hstore, hrecorder⟩ :=
    indifferent_handleAll router tuning same (t := t) rfl rfl
  exact ⟨hstore, hrecorder, houtcomes⟩

/-- A customer is added, as told from two places in the log, and a delete without the image that it
uses is told at two times, once with the other image. -/
theorem indifferent_handleBatch_malformed :
    let added := "\x7b\"op\":\"c\",\"after\":\x7b\"id\":1\x7d\x7d".toUTF8.toList
    let early := "\x7b\"op\":\"d\",\"ts_ms\":5\x7d".toUTF8.toList
    let late := "\x7b\"op\":\"d\",\"after\":\x7b\"id\":1\x7d,\"ts_ms\":9\x7d".toUTF8.toList
    let batch : List Message := [⟨"customers", 0, 0, some added⟩, ⟨"customers", 0, 1, some early⟩]
    let batch' : List Message := [⟨"customers", 3, 7, some added⟩, ⟨"customers", 3, 8, some late⟩]
    let engine := inMemory .builtIn .default
    let t := Timeline.start (Site.new MemoryStore.new)
    let handled := (engine.handleBatch batch t).2
    let handled' := (engine.handleBatch batch' t).2
    handled.state.store = handled'.state.store ∧
      handled.state.recorder = handled'.state.recorder := by
  intro added early late
  have hadded : (Envelope.parse added).map (fun _ => ()) = .ok () := by
    decide +kernel +zetaReduce
  -- What the two deletes have to agree on: neither has an image before or names its table.
  let gist (envelope : Envelope) : Operation × Option Unit × Option String :=
    (envelope.payload.operation, envelope.payload.before.map fun _ => (),
      envelope.payload.source.bind Source.qualifiedTable?)
  have hearly : (Envelope.parse early).map gist = .ok (.delete, none, none) := by
    decide +kernel +zetaReduce
  have hlate : (Envelope.parse late).map gist = .ok (.delete, none, none) := by
    decide +kernel +zetaReduce
  -- From here on only these facts matter: nothing is read or run again.
  clear_value added early late
  have first : Message.TellsSame ⟨"customers", 0, 0, some added⟩
      ⟨"customers", 3, 7, some added⟩ := by
    obtain ⟨envelope, hparse, -⟩ := map_eq_ok_iff.1 hadded
    exact ⟨added, added, envelope, envelope, rfl, rfl, hparse, hparse,
      ⟨rfl, rfl, by split <;> rfl⟩⟩
  have second : Message.TellsSame ⟨"customers", 0, 1, some early⟩
      ⟨"customers", 3, 8, some late⟩ := by
    obtain ⟨envelope, hparse, hgist⟩ := map_eq_ok_iff.1 hearly
    obtain ⟨envelope', hparse', hgist'⟩ := map_eq_ok_iff.1 hlate
    simp only [gist, Prod.mk.injEq, Option.map_eq_none_iff] at hgist hgist'
    obtain ⟨hdelete, himage, htable⟩ := hgist
    obtain ⟨hdelete', himage', htable'⟩ := hgist'
    refine ⟨early, late, envelope, envelope', rfl, rfl, hparse, hparse', ⟨?_, ?_, ?_⟩⟩
    · rw [hdelete, hdelete']
    · rw [htable, htable']
    · rw [if_pos hdelete, himage, himage']
  have h := indifferent_handleBatch .builtIn .default (.cons first (.cons second .nil))
    (Timeline.start (Site.new MemoryStore.new))
  dsimp only at h ⊢
  exact ⟨h.1, h.2.1⟩

end Engine

end ChangeFeed
