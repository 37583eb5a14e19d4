import ChangeFeed.Engine.Action
import ChangeFeed.Engine.Outcome
import ChangeFeed.Proofs.Record.Decoding

/-!
# What is planned

A router plans an action for an event exactly when it routes the event's table, the image that the
operation uses is there, and that image can be read (`Router.plan_eq_ok_iff`). The action writes the
record that the image holds, or takes out the key that it holds (`Kind.action_eq_ok_iff`). What the
action then does to its row is the operation's own effect (`Router.effect_of_plan`).
-/

namespace ChangeFeed

/-- What an operation does to its row. -/
def Operation.effect : Operation → Effect
  | .insert => .inserted
  | .snapshotRead => .inserted
  | .update => .updated
  | .delete => .deleted

/-- An operation that does not write its row is a delete. -/
theorem Operation.isUpsert_eq_false_iff {op : Operation} : op.isUpsert = false ↔ op = .delete := by
  cases op <;> decide

/-- The action of a kind on an image writes the record that the image holds, for an upsert, or
takes out the key that it holds, for a delete. -/
theorem Kind.action_eq_ok_iff {kind : Kind} {event : ChangeEvent} {image : Json}
    {action : Action} :
    kind.action event image = .ok action ↔
      (event.operation.isUpsert = true ∧
        ∃ record, kind.decode image = .ok record ∧ action = .upsert event.operation record) ∨
      (event.operation = .delete ∧
        ∃ key, kind.decodeKey image = .ok key ∧ action = .delete kind key) := by
  unfold Kind.action
  dsimp only
  cases hop : event.operation.isUpsert with
  | true =>
    have hne : event.operation ≠ .delete := fun h => by
      rw [h] at hop
      cases hop
    cases hd : kind.decode image <;> simp [hne, eq_comm]
  | false =>
    have heq : event.operation = .delete := Operation.isUpsert_eq_false_iff.1 hop
    cases hd : kind.decodeKey image <;> simp [heq, eq_comm]

/-- An event whose image is there passes the check for images. -/
theorem ChangeEvent.validate_of_image? {event : ChangeEvent} {image : Json}
    (h : event.image? = some image) : event.validate = .ok () := by
  unfold ChangeEvent.image? at h
  unfold ChangeEvent.validate
  split at h <;> simp [h]

/-- An action is planned for an event exactly when its table is routed, the image of its operation
is there, and the kind has an action on that image. -/
theorem Router.plan_eq_ok_iff {router : Router} {event : ChangeEvent} {action : Action} :
    router.plan event = .ok action ↔
      ∃ kind image, router.route? event.table = some kind ∧ event.image? = some image ∧
        kind.action event image = .ok action := by
  unfold Router.plan
  cases hroute : router.route? event.table with
  | none => simp
  | some kind =>
    cases hi : event.image? with
    | none =>
      -- Whether or not the other image is there, the event is refused.
      have herror : event.image =
          .error (.malformed event.table (.missingImage event.operation)) := by
        unfold ChangeEvent.image
        rw [hi]
      cases hv : event.validate <;> simp [herror, bind, Except.bind]
    | some image =>
      have hok : event.image = .ok image := by
        unfold ChangeEvent.image
        rw [hi]
      rw [ChangeEvent.validate_of_image? hi, hok]
      simp [bind, Except.bind]

/-- The action that is planned for an event does what the event's operation does. -/
theorem Router.effect_of_plan {router : Router} {event : ChangeEvent} {action : Action}
    (h : router.plan event = .ok action) : action.effect = event.operation.effect := by
  obtain ⟨kind, image, -, -, hact⟩ := Router.plan_eq_ok_iff.1 h
  rcases Kind.action_eq_ok_iff.1 hact with ⟨hop, record, -, rfl⟩ | ⟨hop, key, -, rfl⟩
  · cases ho : event.operation with
    | delete =>
      rw [ho] at hop
      cases hop
    | insert => rfl
    | update => rfl
    | snapshotRead => rfl
  · rw [hop]
    rfl

/-- A message is planned for exactly when it holds an event that is. -/
theorem Router.planMessage_eq_ok_iff {router : Router} {message : Message} {action : Action} :
    router.planMessage message = .ok action ↔
      ∃ event, ChangeEvent.ofMessage message = .ok event ∧ router.plan event = .ok action := by
  unfold Router.planMessage
  cases ChangeEvent.ofMessage message <;> simp [bind, Except.bind]

end ChangeFeed
