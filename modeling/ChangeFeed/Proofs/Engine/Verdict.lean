import ChangeFeed.Proofs.Engine.Attempts
import ChangeFeed.Proofs.Event.Payload

/-!
# The verdict on a message

A message can be wrong in several ways at once. `Flaw` lists them in the order in which they count,
and `Flaw.isIn` says of each by itself whether a message has it, without regard to the others. The
verdict on a message is the ground of the first flaw that it has: up to the plan of an action this
is a matter of the message and the router alone (`Flaw.find?_of_plan_error`), and behind it only the
store is left to refuse (`Engine.tries_change`). `Engine.verdict_handle` puts both together, with
the calls that are made: none for a message without an action, and the one call of the action for
any other.
-/

namespace ChangeFeed

variable {σ α : Type}

/-! ## What can be wrong -/

/-- What can be wrong with a message. -/
inductive Flaw where
  /-- The message has no bytes. -/
  | noPayload
  /-- The bytes are no envelope. -/
  | noEnvelope
  /-- No kind is routed for the table. -/
  | unrouted
  /-- The image that the operation uses is absent or null. -/
  | noImage
  /-- The routed kind cannot read that image. -/
  | unreadable
  /-- The store was called, and failed for good. -/
  | refused
deriving DecidableEq

/-- The ground that an outcome names for a rejection: the reason, with the operation as far as it is
told. -/
def Outcome.ground? : Outcome → Option (Reason × Option Operation)
  | .applied .. => none
  | .rejected e => some (e.reason, e.operation)

/-- The event of a message, if it can be read. -/
def Message.event? (message : Message) : Option ChangeEvent :=
  (ChangeEvent.ofMessage message).toOption

/-- Whether a value is null. -/
def Json.isNull : Json → Bool
  | .null => true
  | _ => false

/-- Whether an image holds what an operation needs of it: a record of the kind, or for a delete the
key of one. -/
def Kind.reads (kind : Kind) (op : Operation) (image : Json) : Bool :=
  if op.isUpsert then (kind.decode image).isOk else (kind.decodeKey image).isOk

/-- Whether the attempts made for an event ended for good without success: the last one was not
carried out, and it failed in a way that does not pass, or no more attempts are allowed. -/
def Engine.gaveUp (engine : Engine σ) (attempts : List CallNote) : Bool :=
  attempts.getLast?.any fun last => !last.ending.isDone &&
    (!last.ending.mayPass || attempts.length = engine.tuning.retry.maxAttempts)

namespace Flaw

/-- The flaws in the order in which they count. -/
def order : List Flaw :=
  [.noPayload, .noEnvelope, .unrouted, .noImage, .unreadable, .refused]

/-- The ground on which a message with a flaw is rejected, given its operation. -/
def ground (op : Option Operation) : Flaw → Reason × Option Operation
  | .noPayload => (.malformed, none)
  | .noEnvelope => (.decode, none)
  | .unrouted => (.routing, none)
  | .noImage => (.malformed, none)
  | .unreadable => (.decode, op)
  | .refused => (.apply, op)

/-- Whether a message has a flaw, given the attempts that were made for it. -/
def isIn (engine : Engine σ) (message : Message) (attempts : List CallNote) : Flaw → Bool
  | .noPayload => (message.payload.getD []).isEmpty
  | .noEnvelope => !(Envelope.parse (message.payload.getD [])).isOk
  | .unrouted => message.event?.any fun event => (engine.router.route? event.table).isNone
  | .noImage => message.event?.any fun event => event.image?.all (·.isNull)
  | .unreadable => message.event?.any fun event =>
    (engine.router.route? event.table).any fun kind =>
      event.image?.any fun image => !kind.reads event.operation image
  | .refused => engine.gaveUp attempts

end Flaw

/-! ## Images are never null -/

/-- The image that a field tells is not null. -/
theorem Json.Tells.isNull {vs : List Json} {image? : Option Json}
    (h : Tells (fun v image => v.canonical = image) vs image?) :
    ∀ image, image? = some image → image.isNull = false := by
  intro image himage
  cases h with
  | absent => cases himage
  | null => cases himage
  | @value v _ hv hcanonical =>
    cases himage
    subst hcanonical
    cases v with
    | null => exact absurd rfl hv
    | _ => rfl

/-- The payload of an envelope is read from a value. -/
theorem Envelope.exists_of_parse {bytes : List UInt8} {envelope : Envelope}
    (h : parse bytes = .ok envelope) : ∃ v, Payload.Means v envelope.payload := by
  unfold parse at h
  split at h
  · cases h
  · split at h
    · cases h
    · next own hown =>
      split at h <;> cases h
      -- The value stands in a wrapper, or alone.
      unfold ofJson? at hown
      split at hown
      · next payload hwrapped =>
        cases hown
        unfold wrapped? at hwrapped
        split at hwrapped
        · split at hwrapped
          · exact ⟨_, (Payload.ofJson?_eq_some_iff ..).1 hwrapped⟩
          · cases hwrapped
        · cases hwrapped
      · obtain ⟨payload, hpayload, rfl⟩ := Option.map_eq_some_iff.1 hown
        exact ⟨_, (Payload.ofJson?_eq_some_iff ..).1 hpayload⟩

/-- A message with an event has bytes, and they are an envelope; the event is that of its
payload. -/
theorem ChangeEvent.exists_of_ofMessage {message : Message} {event : ChangeEvent}
    (h : ofMessage message = .ok event) :
    ∃ bytes envelope, message.payload = some bytes ∧ bytes ≠ [] ∧
      Envelope.parse bytes = .ok envelope ∧
      event = ofPayload message.topic envelope.payload := by
  unfold ofMessage ofBytes at h
  split at h
  · cases h
  · cases h
  · next bytes hne hpayload =>
    split at h
    · cases h
    · next envelope hparse =>
      cases h
      exact ⟨bytes, envelope, hpayload, hne, hparse, rfl⟩

/-- The image that an operation uses is not null in the event of a message. -/
theorem ChangeEvent.isNull_of_image? {message : Message} {event : ChangeEvent} {image : Json}
    (h : ofMessage message = .ok event) (himage : event.image? = some image) :
    image.isNull = false := by
  obtain ⟨bytes, envelope, -, -, hparse, rfl⟩ := ChangeEvent.exists_of_ofMessage h
  obtain ⟨v, hmeans⟩ := Envelope.exists_of_parse hparse
  unfold image? at himage
  cases hmeans with
  | object told | array _ told =>
    split at himage
    · exact told.after.isNull image himage
    · exact told.before.isNull image himage

/-! ## The first flaw of a message -/

/-- A kind has an action on an image exactly when it can read the image. -/
theorem Kind.isOk_action (kind : Kind) (event : ChangeEvent) (image : Json) :
    (kind.action event image).isOk = kind.reads event.operation image := by
  unfold Kind.action Kind.reads
  dsimp only
  split
  · cases kind.decode image <;> rfl
  · cases kind.decodeKey image <;> rfl

namespace Router

variable {router : Router} {event : ChangeEvent}

/-- An event on a table that is not routed is refused for that. -/
theorem plan_of_unrouted (h : router.route? event.table = none) :
    router.plan event = .error (.routing event.table) := by
  unfold plan
  rw [h]

/-- An event without the image that its operation uses is refused as malformed. -/
theorem plan_of_no_image {kind : Kind} (h : router.route? event.table = some kind)
    (himage : event.image? = none) :
    ∃ cause, router.plan event = .error (.malformed event.table cause) := by
  unfold plan ChangeEvent.image
  rw [h, himage]
  -- Whether or not the other image is there, something is missing.
  unfold ChangeEvent.validate
  dsimp only
  split <;> exact ⟨_, rfl⟩

/-- An event with a routed table and the image that its operation uses has the action of the kind on
the image. -/
theorem plan_eq_action {kind : Kind} {image : Json} (h : router.route? event.table = some kind)
    (himage : event.image? = some image) : router.plan event = kind.action event image := by
  unfold plan ChangeEvent.image
  rw [h, himage, ChangeEvent.validate_of_image? himage]
  rfl

end Router

/-- An image that is refused is refused because it cannot be decoded. -/
theorem Kind.decode_of_action_error {kind : Kind} {event : ChangeEvent} {image : Json}
    {e : Rejection} (h : kind.action event image = .error e) :
    ∃ cause, e = .decode event.table (some event.operation) cause := by
  unfold Kind.action at h
  dsimp only at h
  split at h
  · split at h <;> cases h
    exact ⟨_, rfl⟩
  · split at h <;> cases h
    exact ⟨_, rfl⟩

namespace Flaw

variable {engine : Engine σ} {message : Message} {attempts : List CallNote} {event : ChangeEvent}

/-- A message with at least one byte has a payload. -/
theorem not_isIn_noPayload {bytes : List UInt8} (h : message.payload = some bytes)
    (hne : bytes ≠ []) : ¬ isIn engine message attempts .noPayload = true := by
  rw [isIn, h]
  cases bytes with
  | nil => exact absurd rfl hne
  | cons => exact Bool.false_ne_true

/-- A message lacks an envelope where its bytes are not parsed as one. -/
theorem isIn_noEnvelope {bytes : List UInt8} (h : message.payload = some bytes) :
    isIn engine message attempts .noEnvelope = !(Envelope.parse bytes).isOk := by
  rw [isIn, h]
  rfl

/-- The event of a message lacks a routed table where the router has no kind for it. -/
theorem isIn_unrouted (h : ChangeEvent.ofMessage message = .ok event) :
    isIn engine message attempts .unrouted = (engine.router.route? event.table).isNone := by
  rw [isIn, Message.event?, h]
  rfl

/-- The event of a message lacks an image where it has none, since it has no null for one. -/
theorem isIn_noImage (h : ChangeEvent.ofMessage message = .ok event) :
    isIn engine message attempts .noImage = event.image?.isNone := by
  rw [isIn, Message.event?, h]
  show event.image?.all (·.isNull) = _
  cases himage : event.image? with
  | none => rfl
  | some image => exact ChangeEvent.isNull_of_image? h himage

/-- The event of a message has an image that cannot be read where the kind has no action on it. -/
theorem isIn_unreadable (h : ChangeEvent.ofMessage message = .ok event) {kind : Kind}
    (hroute : engine.router.route? event.table = some kind) {image : Json}
    (himage : event.image? = some image) :
    isIn engine message attempts .unreadable = !(kind.action event image).isOk := by
  rw [isIn, Message.event?, h, Kind.isOk_action]
  show (engine.router.route? event.table).any _ = _
  rw [hroute, Option.any_some, himage, Option.any_some]

/-- A message without an event is rejected on the ground of its first flaw. -/
theorem find?_of_ofMessage_error {e : Rejection} (h : ChangeEvent.ofMessage message = .error e)
    (op : Option Operation) :
    (order.find? (isIn engine message attempts)).map (ground op) =
      some (e.reason, e.operation) := by
  unfold ChangeEvent.ofMessage ChangeEvent.ofBytes at h
  split at h
  · next hpayload =>
    have hno : isIn engine message attempts .noPayload = true := by rw [isIn, hpayload]; rfl
    rw [order, List.find?_cons_of_pos hno]
    cases h
    rfl
  · next hpayload =>
    have hno : isIn engine message attempts .noPayload = true := by rw [isIn, hpayload]; rfl
    rw [order, List.find?_cons_of_pos hno]
    cases h
    rfl
  · next bytes hne hpayload =>
    split at h
    · next hparse =>
      have hno : isIn engine message attempts .noEnvelope = true := by
        rw [isIn_noEnvelope hpayload, hparse]
        rfl
      rw [order, List.find?_cons_of_neg (not_isIn_noPayload hpayload hne),
        List.find?_cons_of_pos hno]
      cases h
      rfl
    · cases h

/-- A message with an event has neither of the first two flaws. -/
theorem find?_of_ofMessage_ok (h : ChangeEvent.ofMessage message = .ok event) :
    order.find? (isIn engine message attempts) =
      [unrouted, noImage, unreadable, refused].find? (isIn engine message attempts) := by
  obtain ⟨bytes, envelope, hpayload, hne, hparse, -⟩ := ChangeEvent.exists_of_ofMessage h
  have henvelope : ¬ isIn engine message attempts .noEnvelope = true := by
    rw [isIn_noEnvelope hpayload, hparse]
    exact Bool.false_ne_true
  rw [order, List.find?_cons_of_neg (not_isIn_noPayload hpayload hne),
    List.find?_cons_of_neg henvelope]

/-- A message whose event has no action is rejected on the ground of its first flaw. -/
theorem find?_of_plan_error (h : ChangeEvent.ofMessage message = .ok event) {e : Rejection}
    (hplan : engine.router.plan event = .error e) :
    (order.find? (isIn engine message attempts)).map (ground (some event.operation)) =
      some (e.reason, e.operation) := by
  rw [find?_of_ofMessage_ok h]
  cases hroute : engine.router.route? event.table with
  | none =>
    have hno : isIn engine message attempts .unrouted = true := by rw [isIn_unrouted h, hroute]; rfl
    rw [List.find?_cons_of_pos hno]
    cases (Router.plan_of_unrouted hroute).symm.trans hplan
    rfl
  | some kind =>
    have hrouted : ¬ isIn engine message attempts .unrouted = true := by
      rw [isIn_unrouted h, hroute]
      exact Bool.false_ne_true
    rw [List.find?_cons_of_neg hrouted]
    cases himage : event.image? with
    | none =>
      have hno : isIn engine message attempts .noImage = true := by rw [isIn_noImage h, himage]; rfl
      rw [List.find?_cons_of_pos hno]
      obtain ⟨cause, hmalformed⟩ := Router.plan_of_no_image hroute himage
      cases hmalformed.symm.trans hplan
      rfl
    | some image =>
      have hthere : ¬ isIn engine message attempts .noImage = true := by
        rw [isIn_noImage h, himage]
        exact Bool.false_ne_true
      rw [Router.plan_eq_action hroute himage] at hplan
      have hno : isIn engine message attempts .unreadable = true := by
        rw [isIn_unreadable h hroute himage, hplan]
        rfl
      rw [List.find?_cons_of_neg hthere, List.find?_cons_of_pos hno]
      obtain ⟨cause, rfl⟩ := Kind.decode_of_action_error hplan
      rfl

/-- A message with an action has no flaw but that the store refuses it. -/
theorem find?_of_plan_ok (h : ChangeEvent.ofMessage message = .ok event) {action : Action}
    (hplan : engine.router.plan event = .ok action) :
    order.find? (isIn engine message attempts) =
      if engine.gaveUp attempts then some .refused else none := by
  obtain ⟨kind, image, hroute, himage, haction⟩ := Router.plan_eq_ok_iff.1 hplan
  have hrouted : ¬ isIn engine message attempts .unrouted = true := by
    rw [isIn_unrouted h, hroute]
    exact Bool.false_ne_true
  have hthere : ¬ isIn engine message attempts .noImage = true := by
    rw [isIn_noImage h, himage]
    exact Bool.false_ne_true
  have hreads : ¬ isIn engine message attempts .unreadable = true := by
    rw [isIn_unreadable h hroute himage, haction]
    exact Bool.false_ne_true
  rw [find?_of_ofMessage_ok h, List.find?_cons_of_neg hrouted, List.find?_cons_of_neg hthere,
    List.find?_cons_of_neg hreads, List.find?_singleton]
  rfl

end Flaw

/-! ## What is left to the store -/

namespace Engine

/-- What came of the attempts of an action: all of them are its call, and either the last one was
carried out, or the store was given up and the action is rejected for that. -/
structure Tries (engine : Engine σ) (action : Action) (attempts : List CallNote)
    (result : Except Rejection CallEnd) : Prop where
  call_eq : ∀ note ∈ attempts, note.call = action.call
  ok : ∀ ending, result = .ok ending →
    ending.isDone = true ∧ ∃ last, attempts.getLast? = some last ∧ last.ending = ending
  error : ∀ e, result = .error e →
    e.reason = .apply ∧ e.operation = some action.operation ∧ engine.gaveUp attempts = true

/-- The store is not given up where the last attempt was carried out. -/
theorem Tries.not_gaveUp {engine : Engine σ} {action : Action} {attempts : List CallNote}
    {ending : CallEnd} (h : engine.Tries action attempts (.ok ending)) :
    engine.gaveUp attempts = false := by
  obtain ⟨hdone, last, hlast, rfl⟩ := h.ok ending rfl
  rw [gaveUp, hlast, Option.any_some, hdone]
  rfl

/-- Whatever the policy allows, the calls of an action come to what its attempts come to. -/
theorem tries_call (engine : Engine σ) {action : Action} {shown : α → CallEnd}
    {request : Timeline (Site σ) → Reply (Site σ) (Except StoreError α)}
    {reply : Timeline (Site σ) → Reply σ (Except StoreError α)}
    (hcalls : Calls request action.call shown reply) (hdone : ∀ a, (shown a).isDone = true)
    (t : Timeline (Site σ)) :
    ∃ attempts, (engine.call action request t).2.state.calls = t.state.calls ++ attempts ∧
      engine.Tries action attempts ((engine.call action request t).1.map shown) := by
  obtain ⟨errors, t', hfails, -, hend, hresult, hstate⟩ :=
    Retry.run_last engine.tuning.retry StoreError.isRetryable StoreError.message
      (engine.callOnce request) t
  obtain ⟨failed, last, hwritten, hcount, hpass, hcall, htells⟩ :=
    engine.notes_of_fails hcalls hfails
  obtain ⟨elapsed, hsnd⟩ := engine.call_snd action request t
  have hlast : (failed ++ [last]).getLast? = some last := List.getLast?_concat
  have hnotes : (engine.call action request t).2.state.calls =
      t.state.calls ++ (failed ++ [last]) := by
    have hkept := congrArg Site.calls hstate
    rw [hsnd, ← hwritten]
    exact hkept
  have hown : ∀ note ∈ failed ++ [last], note.call = action.call := by
    intro note hnote
    rcases List.mem_append.1 hnote with hnote | hnote
    · exact (hpass note hnote).1
    · rw [List.mem_singleton.1 hnote]
      exact hcall
  refine ⟨failed ++ [last], hnotes, ?_⟩
  -- The run gives what the last attempt gave.
  rw [call_fst]
  generalize (Retry.run engine.tuning.retry StoreError.isRetryable StoreError.message
    (engine.callOnce request) t).1 = result at hresult ⊢
  cases result with
  | ok a =>
    rw [← hresult] at htells
    refine ⟨hown, fun ending hok => ?_, nofun⟩
    cases hok
    exact ⟨hdone a, last, hlast, htells⟩
  | error f =>
    rw [← hresult] at htells
    refine ⟨hown, nofun, fun e herror => ?_⟩
    cases herror
    refine ⟨rfl, rfl, ?_⟩
    rw [gaveUp, hlast, Option.any_some, htells.not_isDone, List.length_append, hcount]
    cases hmay : last.ending.mayPass with
    | false => rfl
    | true =>
      -- An error that may pass is the end only where no more attempts are allowed.
      have hretry : f.cause.isRetryable = true := by
        rcases htells with hfailed | ⟨-, htimeout⟩
        · rwa [hfailed] at hmay
        · rw [htimeout]
          rfl
      exact decide_eq_true (hend _ hresult.symm hretry)

/-- Whatever the policy allows, the calls that an action needs come to what its attempts come to. -/
theorem tries_change (engine : Engine σ) (action : Action) (t : Timeline (Site σ)) :
    ∃ attempts, (engine.change action t).2.state.calls = t.state.calls ++ attempts ∧
      engine.Tries action attempts (engine.change action t).1 := by
  cases action with
  | upsert op record => exact engine.tries_call (engine.calls_put op record) (fun _ => rfl) t
  | delete kind key => exact engine.tries_call (engine.calls_remove kind key) (fun _ => rfl) t

/-- The call that changes the store for an event: it puts the record of the image after, or removes
the key of the image before. -/
def Changes (engine : Engine σ) (event : ChangeEvent) (call : StoreCall) : Prop :=
  ∃ kind, engine.router.route? event.table = some kind ∧
    ((event.operation.isUpsert = true ∧ ∃ image record, event.after = some image ∧
        kind.decode image = .ok record ∧
        call = .put kind record.key record.affinity record) ∨
      (event.operation = .delete ∧ ∃ image key, event.before = some image ∧
        kind.decodeKey image = .ok key ∧ call = .remove kind key))

/-- The call of the action that is planned for an event changes the store for it. -/
theorem changes_of_plan {engine : Engine σ} {event : ChangeEvent} {action : Action}
    (h : engine.router.plan event = .ok action) : engine.Changes event action.call := by
  obtain ⟨kind, image, hroute, himage, haction⟩ := Router.plan_eq_ok_iff.1 h
  refine ⟨kind, hroute, ?_⟩
  unfold ChangeEvent.image? at himage
  rcases Kind.action_eq_ok_iff.1 haction with ⟨hop, record, hdecode, rfl⟩ | ⟨hop, key, hkey, rfl⟩
  · rw [if_pos hop] at himage
    refine .inl ⟨hop, image, record, himage, hdecode, ?_⟩
    rw [← Kind.kind_of_decode hdecode]
    rfl
  · rw [hop] at himage
    exact .inr ⟨hop, image, key, himage, hkey, rfl⟩

/-- The action that is planned for an event stands for the event's operation. -/
theorem operation_of_plan {engine : Engine σ} {event : ChangeEvent} {action : Action}
    (h : engine.router.plan event = .ok action) : action.operation = event.operation := by
  obtain ⟨kind, image, -, -, haction⟩ := Router.plan_eq_ok_iff.1 h
  rcases Kind.action_eq_ok_iff.1 haction with ⟨-, record, -, rfl⟩ | ⟨hop, key, -, rfl⟩
  · rfl
  · exact hop.symm

/-- The verdict on a message with an action is that of its attempts: without a flaw it is applied,
and the last attempt was carried out, or else the store was given up. -/
theorem Tries.verdict {engine : Engine σ} {message : Message} {event : ChangeEvent}
    (hread : ChangeEvent.ofMessage message = .ok event) {action : Action}
    (hplan : engine.router.plan event = .ok action) {attempts : List CallNote}
    {result : Except Rejection CallEnd} (h : engine.Tries action attempts result) :
    let outcome := Outcome.ofResult (result.map fun _ => action)
    let first := Flaw.order.find? (Flaw.isIn engine message attempts)
    outcome.ground? = first.map (Flaw.ground (some event.operation)) ∧
      (∀ reason op, outcome.ground? = some (reason, op) → reason = .apply) ∧
      (outcome.isApplied = true →
        ∃ last, attempts.getLast? = some last ∧ last.ending.isDone = true) := by
  intro outcome first
  have hfirst : first = if engine.gaveUp attempts then some .refused else none :=
    Flaw.find?_of_plan_ok hread hplan
  cases result with
  | ok ending =>
    obtain ⟨hdone, last, hlast, hending⟩ := h.ok ending rfl
    rw [h.not_gaveUp] at hfirst
    refine ⟨by rw [hfirst]; rfl, fun _ _ hground => ?_, fun _ => ⟨last, hlast, ?_⟩⟩
    · cases hground
    · rw [hending]
      exact hdone
  | error e =>
    obtain ⟨hreason, hop, hgaveUp⟩ := h.error e rfl
    have hground : outcome.ground? = some (.apply, some event.operation) := by
      show some (e.reason, e.operation) = _
      rw [hreason, hop, operation_of_plan hplan]
    rw [hgaveUp, if_pos rfl] at hfirst
    refine ⟨by rw [hground, hfirst]; rfl, fun reason op hown => ?_, nofun⟩
    rw [hground] at hown
    cases hown
    rfl

/-- The verdict on a message is the first of its flaws, and without a flaw it is applied. For a
message that is rejected on any ground but that the store refused it, the store is not called at
all, and nothing is changed in it. For any other, the calls are attempts of the one call that
changes the store for its event, and behind them lookups at most: of the partition of the record
that the last attempt has put, and of that of its parent. -/
theorem verdict_handle (engine : Engine σ) (message : Message) (t : Timeline (Site σ)) :
    let (outcome, handled) := engine.handle message t
    ∃ attempts lookUps, handled.state.calls = t.state.calls ++ attempts ++ lookUps ∧
      outcome.ground? = (Flaw.order.find? (Flaw.isIn engine message attempts)).map
        (Flaw.ground (message.event?.map (·.operation))) ∧
      (∀ reason op, outcome.ground? = some (reason, op) → reason ≠ .apply →
        attempts = [] ∧ lookUps = [] ∧ handled.state.store = t.state.store) ∧
      (∀ note ∈ attempts, ∃ event, message.event? = some event ∧
        engine.Changes event note.call) ∧
      (outcome.isApplied = true →
        ∃ last, attempts.getLast? = some last ∧ last.ending.isDone = true) ∧
      ∀ note ∈ lookUps, ∃ last kind key parent record, attempts.getLast? = some last ∧
        last.call = .put kind key (some parent) record ∧ last.ending = .stored ∧
        (note.call = .partitionOf kind key ∨ note.call = .partitionOf parent.kind parent.key) := by
  cases hread : ChangeEvent.ofMessage message with
  | error e =>
    -- Without an event nothing is planned, and so no call is made.
    rw [handle_of_error hread]
    refine ⟨[], [], ?_, (Flaw.find?_of_ofMessage_error hread _).symm,
      fun _ _ _ _ => ⟨rfl, rfl, rfl⟩, List.forall_mem_nil _, nofun, List.forall_mem_nil _⟩
    rw [List.append_nil, List.append_nil]
    rfl
  | ok event =>
    have hevent : message.event? = some event := by rw [Message.event?, hread]; rfl
    rw [handle_of_ok hread, hevent]
    rcases engine.carryOut_cases event t with
      ⟨e, hplan, hresult, hstate⟩ | ⟨action, hplan, hresult, hafter⟩
    · have hcalls : (engine.carryOut event t).2.state.calls = t.state.calls := by rw [hstate]
      have hstore : (engine.carryOut event t).2.state.store = t.state.store := by rw [hstate]
      refine ⟨[], [], ?_, ?_, fun _ _ _ _ => ⟨rfl, rfl, hstore⟩, List.forall_mem_nil _, ?_,
        List.forall_mem_nil _⟩
      · rw [List.append_nil, List.append_nil]
        exact hcalls
      · rw [hresult]
        exact (Flaw.find?_of_plan_error hread hplan).symm
      · rw [hresult]
        nofun
    · -- The attempts are those of the action, and any lookups stand behind a put that went well.
      obtain ⟨attempts, hcalls, htries⟩ := engine.tries_change action t
      obtain ⟨lookUps, hlook, hall⟩ := engine.lookUps_perform action t
      have hcarry := congrArg Prod.snd (carryOut_of_ok hplan t)
      obtain ⟨hground, hrefused, happlied⟩ := htries.verdict hread hplan
      rw [← hresult] at hground hrefused happlied
      refine ⟨attempts, lookUps, ?_, hground,
        fun reason op hown hother => absurd (hrefused reason op hown) hother, ?_, happlied, ?_⟩
      · show (engine.carryOut event t).2.state.calls = _
        rw [hcarry, hlook, hcalls]
      · intro note hnote
        refine ⟨event, rfl, ?_⟩
        rw [htries.call_eq note hnote]
        exact changes_of_plan hplan
      · intro note hnote
        obtain ⟨hstored, op, record, rfl, -, parent, hparent, hplace⟩ := hall note hnote
        obtain ⟨-, last, hlast, hending⟩ := htries.ok _ hstored
        refine ⟨last, record.kind, record.key, parent, record, hlast, ?_, hending, hplace⟩
        rw [htries.call_eq last (List.mem_of_getLast? hlast), ← hparent]
        rfl

/-- A delete on an unknown table that carries only the image after has two flaws, and is rejected on
the ground of the first. -/
example :
    let bytes := "\x7b\"op\":\"d\",\"after\":\x7b\"id\":1\x7d\x7d".toUTF8.toList
    let message : Message := ⟨"nowhere", 0, 0, some bytes⟩
    let engine : Engine MemoryStore := ⟨.builtIn, MemoryStore.adapter, .default⟩
    let (outcome, _) := engine.handle message (.start (.new .new))
    Flaw.order.filter (Flaw.isIn engine message []) = [.unrouted, .noImage] ∧
      outcome.ground? = some (.routing, none) := by
  decide +kernel

end Engine

end ChangeFeed
