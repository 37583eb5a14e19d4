import ChangeFeed.Binary64.Basic
import ChangeFeed.Duration
import ChangeFeed.Timeline.Journal
import ChangeFeed.Timeline.Tally

/-!
# The timeline of a run

A run is a chain of steps on a `Timeline`: the clock, the journal, the tally, the random factors
still to be drawn, and whatever else the run changes. The clock moves only when something waits.

`Reply` is what a call that takes time will answer. `Timeline.await?` waits for it up to a limit: an
answer that comes exactly at the limit is in time. Every wait is a timer's, and no timer runs for
longer than `Duration.longestTimer`.
-/

namespace ChangeFeed

/-- Where a run stands. -/
structure Timeline (σ : Type) where
  /-- Nanoseconds since the start. -/
  now : Nat
  /-- The lines written so far, the oldest first. -/
  journal : List Journal.Line
  tally : Tally
  /-- The random factors that waits are still to be stretched by. -/
  factors : List Binary64
  state : σ

/-- The answer of a call that takes time. -/
structure Reply (σ α : Type) where
  /-- How long the answer takes; none if it never comes. -/
  delay : Option Duration
  answer : α
  /-- The state once the answer is there. -/
  after : σ
  /-- The state if the caller stops waiting before. -/
  abandoned : σ
  /-- What is written to the journal with the answer. -/
  lines : List Journal.Line

/-- An answer that comes at once. -/
def Reply.now (answer : α) (after : σ) : Reply σ α :=
  ⟨some .zero, answer, after, after, []⟩

/-- A reply with its states placed into a larger one. -/
def Reply.within (place : σ → τ) (reply : Reply σ α) : Reply τ α where
  delay := reply.delay
  answer := reply.answer
  after := place reply.after
  abandoned := place reply.abandoned
  lines := reply.lines

namespace Timeline

/-- The start of a run. -/
def start (state : σ) : Timeline σ :=
  ⟨0, [], .empty, [], state⟩

/-- Writes a line. -/
def log (t : Timeline σ) (level : Journal.Level) (message : String)
    (fields : List (String × Journal.Value)) : Timeline σ :=
  { t with journal := t.journal ++ [⟨level, message, fields⟩] }

/-- Lets a timer run. -/
def sleep (t : Timeline σ) (d : Duration) : Timeline σ :=
  { t with now := t.now + d.timer.nanos }

/-- Changes the state. -/
def update (t : Timeline σ) (f : σ → σ) : Timeline σ :=
  { t with state := f t.state }

/-- Counts a call. -/
def countCall (t : Timeline σ) (result : CallResult) : Timeline σ :=
  { t with tally := { t.tally with calls := t.tally.calls ++ [result] } }

/-- Counts a retried operation. -/
def countAttempts (t : Timeline σ) (verdict : Verdict) (attempts : Nat) : Timeline σ :=
  { t with tally := { t.tally with samples := t.tally.samples ++ [(verdict, attempts)] } }

/-- Waits for an answer up to a limit; none if it does not come in time. -/
def await? (t : Timeline σ) (limit : Duration) (reply : Reply σ α) : Option α × Timeline σ :=
  match reply.delay with
  | some delay =>
    if delay.timer.nanos ≤ limit.timer.nanos then
      (some reply.answer,
        { t.sleep delay with state := reply.after, journal := t.journal ++ reply.lines })
    else (none, { t.sleep limit with state := reply.abandoned })
  | none => (none, { t.sleep limit with state := reply.abandoned })

end Timeline

end ChangeFeed
