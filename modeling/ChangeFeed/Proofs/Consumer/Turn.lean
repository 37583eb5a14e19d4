import ChangeFeed.Consumer.Run
import ChangeFeed.Proofs.Engine.Account

/-!
# A turn of the consume loop

What a turn does with the log it does through contacts, and what it does with the messages it does
through the engine. `Consumer.step_cases` takes a turn apart: it notes a poll, and only if that
delivered messages, it handles them and commits. `Engine.Handles` says what an engine handled from
one moment to another, whatever went on in between that does not concern messages; it goes along
with every part of a turn. A run that returns is a chain of turns, each taken while the stop signal
is down (`Consumer.proceeds_of_loop`).
-/

namespace ChangeFeed

variable {σ ρ : Type}

/-! ## What an engine handled -/

/-- Nothing happens to a site that a message would do: the store, the calls made to it and the
counts of events stay as they are. -/
structure Timeline.Passes (t t' : Timeline (Site σ)) : Prop where
  store : t'.state.store = t.state.store
  calls : t'.state.calls = t.state.calls
  read : ∀ cell, t'.state.recorder.read cell = t.state.recorder.read cell

/-- Nothing happens to a site that stays as it is. -/
theorem Timeline.passes_of_state_eq {t t' : Timeline (Site σ)} (h : t'.state = t.state) :
    t.Passes t' :=
  ⟨by rw [h], by rw [h], fun cell => by rw [h]⟩

/-- From one timeline to another an engine handled some messages, each once and in this order and
with this outcome, and nothing else happened to the site. -/
inductive Engine.Handles (engine : Engine σ) :
    List (Message × Outcome) → Timeline (Site σ) → Timeline (Site σ) → Prop
  | start {t} : Handles engine [] t t
  | pass {handled t t' t''} (h : Handles engine handled t t') (passes : t'.Passes t'') :
      Handles engine handled t t''
  | handle {handled t t'} (h : Handles engine handled t t') (message : Message) :
      Handles engine (handled ++ [(message, (engine.handle message t').1)]) t
        (engine.handle message t').2

namespace Engine.Handles

variable {engine : Engine σ} {handled : List (Message × Outcome)} {t t' : Timeline (Site σ)}

/-- What is handled adds to each count as often as its outcomes are counted there. -/
theorem read (h : engine.Handles handled t t') (cell : Cell) :
    t'.state.recorder.read cell =
      t.state.recorder.read cell + (handled.flatMap (·.2.cells)).count cell := by
  induction h with
  | start => rfl
  | pass _ passes ih => rw [passes.read, ih]
  | @handle handled t t' _ message ih =>
    have hone : (engine.handle message t').2.state.recorder.read cell =
        t'.state.recorder.read cell + (engine.handle message t').1.cells.count cell :=
      engine.read_serve (.message message) t' cell
    rw [hone, ih, List.flatMap_append, List.flatMap_singleton, List.count_append, Nat.add_assoc]

/-- Every message that is handled is counted as processed. -/
theorem processed (h : engine.Handles handled t t') :
    t'.state.recorder.processed = t.state.recorder.processed + handled.length := by
  have hcount : (handled.flatMap (·.2.cells)).count (.event .processed) = handled.length := by
    rw [List.count_flatMap]
    simp [Function.comp_def, Outcome.count_processed]
  have hread := h.read (.event .processed)
  rw [hcount] at hread
  exact hread

/-- Handling a list of messages is handling each of them. -/
theorem handleAll (messages : List Message) :
    ∀ {handled : List (Message × Outcome)} {t' : Timeline (Site σ)},
      engine.Handles handled t t' →
      engine.Handles (handled ++ messages.zip (engine.handleAll messages t').1) t
        (engine.handleAll messages t').2 := by
  induction messages with
  | nil =>
    intro handled t' h
    rwa [List.zip_nil_left, List.append_nil]
  | cons message rest ih =>
    intro handled t' h
    have hrest := ih (h.handle message)
    rwa [List.append_assoc] at hrest

end Engine.Handles

/-! ## Contacts with the log -/

/-- The messages that a log delivers with its answer to a poll. -/
def messagesOf : Except ServiceError (List Message) → List Message
  | .ok messages => messages
  | .error _ => []

/-- The messages that a contact with the log delivered. -/
def Contact.messages (contact : Contact) : List Message :=
  match contact.result with
  | .batch messages => messages
  | _ => []

/-- The messages that some contacts delivered. -/
def delivered (contacts : List Contact) : List Message :=
  contacts.flatMap Contact.messages

/-- One contact more delivers its messages behind those before. -/
theorem delivered_snoc (contacts : List Contact) (contact : Contact) :
    delivered (contacts ++ [contact]) = delivered contacts ++ contact.messages := by
  unfold delivered
  rw [List.flatMap_append, List.flatMap_singleton]

/-- What holds of every entry with those before it, and of one more, holds of all of them. -/
theorem split_snoc {α : Type} {P : List α → α → Prop} {entries : List α} {new : α}
    (h : ∀ earlier entry later, entries = earlier ++ entry :: later → P earlier entry)
    (hnew : P entries new) :
    ∀ earlier entry later, entries ++ [new] = earlier ++ entry :: later → P earlier entry := by
  intro earlier entry later hsplit
  -- Nothing comes after the new entry, so it stands at the end of what comes after any other.
  rcases List.eq_nil_or_concat later with rfl | ⟨rest, last, rfl⟩
  · obtain ⟨rfl, hsingle⟩ := List.append_inj' hsplit rfl
    cases hsingle
    exact hnew
  · rw [List.concat_eq_append, ← List.cons_append, ← List.append_assoc] at hsplit
    obtain ⟨hbefore, -⟩ := List.append_inj' hsplit rfl
    exact h earlier entry rest hbefore

/-! ## A turn -/

/-- A run does nothing but poll the log, with a contact that it notes. -/
structure Run.Polls (run : Run σ ρ) (contact : Contact) (run' : Run σ ρ) : Prop where
  stage : contact.stage = .poll
  polls : run'.polls = run.polls + 1
  contacts : run'.contacts = run.contacts ++ [contact]
  handled : run'.handled = run.handled
  summary : run'.summary = run.summary
  passes : run.timeline.Passes run'.timeline

/-- A turn polls the log. Only if that delivers messages, it handles them and then commits. -/
theorem Consumer.step_cases {consumer : Consumer σ ρ} {run run' : Run σ ρ}
    {reply : Reply ρ (Except ServiceError (List Message))}
    (hreply : consumer.log.poll consumer.engine.tuning.pollTimeout run.timeline.now run.log = reply)
    (hstep : consumer.step run = some run') :
    ∃ contact polled, run.Polls contact polled ∧ polled.log = reply.after ∧
      contact.messages = messagesOf reply.answer ∧
      if contact.messages = [] then run' = polled
      else consumer.commit (consumer.process contact.messages polled) = some run' := by
  unfold step poll Run.take? at hstep
  rw [hreply] at hstep
  cases hdelay : reply.delay with
  | none =>
    rw [hdelay] at hstep
    cases hstep
  | some delay =>
    rw [hdelay] at hstep
    let contact (result : ContactResult) : Contact :=
      ⟨.poll, (run.timeline.sleep delay).now, result, run.timeline.state.recorder⟩
    cases hanswer : reply.answer with
    | error e =>
      simp only [Option.map_some, Option.bind_some, hanswer, Option.some.injEq] at hstep
      subst hstep
      refine ⟨contact (.failed e), _, ?_, ?_, rfl, (if_pos rfl).mpr rfl⟩
      · exact ⟨rfl, rfl, rfl, rfl, rfl, rfl, rfl, fun cell => rfl⟩
      · rfl
    | ok batch =>
      simp only [Option.map_some, Option.bind_some, hanswer, List.isEmpty_iff] at hstep
      by_cases hempty : batch = []
      · rw [if_pos hempty] at hstep
        cases hstep
        refine ⟨contact (.batch batch), _, ?_, ?_, rfl, (if_pos hempty).mpr rfl⟩
        · exact ⟨rfl, rfl, rfl, rfl, rfl, rfl, rfl, fun cell => rfl⟩
        · rfl
      · rw [if_neg hempty] at hstep
        refine ⟨contact (.batch batch), _, ?_, ?_, rfl, (if_neg hempty).mpr hstep⟩
        · exact ⟨rfl, rfl, rfl, rfl, rfl, rfl, rfl, fun cell => rfl⟩
        · rfl

/-- A chain of turns, each taken while the stop signal is down. -/
abbrev Consumer.Proceeds (consumer : Consumer σ ρ) : Run σ ρ → Run σ ρ → Prop :=
  Relation.ReflTransGen fun run next =>
    consumer.isStopped run = false ∧ consumer.step run = some next

/-- A loop that comes to an end is a chain of turns taken while the signal is down, and ends with
the signal up. -/
theorem Consumer.proceeds_of_loop {consumer : Consumer σ ρ} (turns : Nat) {run last : Run σ ρ}
    (h : consumer.loop turns run = some last) :
    consumer.Proceeds run last ∧ consumer.isStopped last = true := by
  induction turns generalizing run with
  | zero =>
    unfold loop at h
    split at h
    · next hup =>
      cases h
      exact ⟨.refl, hup⟩
    · cases h
  | succ turns ih =>
    unfold loop at h
    split at h
    · next hup =>
      cases h
      exact ⟨.refl, hup⟩
    · next hdown =>
      obtain ⟨next, hstep, hrest⟩ := Option.bind_eq_some_iff.1 h
      obtain ⟨hchain, hup⟩ := ih hrest
      exact ⟨.head ⟨Bool.not_eq_true _ ▸ hdown, hstep⟩ hchain, hup⟩

/-- A chain of turns, whatever the stop signal says. -/
abbrev Consumer.Turns (consumer : Consumer σ ρ) : Run σ ρ → Run σ ρ → Prop :=
  Relation.ReflTransGen fun run next => consumer.step run = some next

/-- A loop that comes to an end is a chain of turns. -/
theorem Consumer.turns_of_loop {consumer : Consumer σ ρ} (turns : Nat) {run last : Run σ ρ}
    (h : consumer.loop turns run = some last) : consumer.Turns run last :=
  (proceeds_of_loop turns h).1.lift id fun _ _ step => step.2

end ChangeFeed
