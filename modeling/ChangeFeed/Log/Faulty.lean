import ChangeFeed.Log.Client

/-!
# A log that fails by a script

Polls and commits are numbered from one, each for itself. Those with the given numbers fail without
reaching the log behind.
-/

namespace ChangeFeed

/-- A log with the numbers of the calls that fail. -/
structure FaultyLog (ρ : Type) where
  log : ρ
  /-- The number of polls so far. -/
  polls : Nat
  /-- The number of commits so far. -/
  commits : Nat
  failingPolls : List Nat
  failingCommits : List Nat

namespace FaultyLog

/-- The fault of a poll. -/
def pollFault (number : Nat) : ServiceError :=
  .kafka ("scripted poll failure " ++ toString number)

/-- The fault of a commit. -/
def commitFault (number : Nat) : ServiceError :=
  .kafka ("scripted commit failure " ++ toString number)

/-- Asks the log behind for a batch, unless the poll is to fail. -/
def poll (behind : LogClient ρ) (wait : Duration) (now : Nat) (s : FaultyLog ρ) :
    Reply (FaultyLog ρ) (Except ServiceError (List Message)) :=
  let number := s.polls + 1
  let next := { s with polls := number }
  if number ∈ s.failingPolls then .now (.error (pollFault number)) next
  else (behind.poll wait now s.log).within fun log => { next with log := log }

/-- Acknowledges to the log behind, unless the commit is to fail. -/
def commit (behind : LogClient ρ) (now : Nat) (s : FaultyLog ρ) :
    Reply (FaultyLog ρ) (Except ServiceError Unit) :=
  let number := s.commits + 1
  let next := { s with commits := number }
  if number ∈ s.failingCommits then .now (.error (commitFault number)) next
  else (behind.commit now s.log).within fun log => { next with log := log }

/-- The failing log as a client. -/
def client (behind : LogClient ρ) : LogClient (FaultyLog ρ) :=
  ⟨poll behind, commit behind⟩

end FaultyLog

end ChangeFeed
