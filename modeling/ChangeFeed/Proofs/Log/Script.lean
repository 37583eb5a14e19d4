import ChangeFeed.Log.Scripted

/-!
# What a scripted log hands out

A scripted log is polled, committed to, subscribed to and made to fail in any order (`LogCall`).
What it has handed out and what it has left are its script at any time, and behind the script the
empty batches that a used-up script is answered with: `ScriptedLog.Conserves` is the invariant, each
call keeps it (`ScriptedLog.Conserves.call`), and so does every list of them
(`ScriptedLog.conserves_calls`). How many polls fail depends on nothing but the number that was
asked for last (`ScriptedLog.answers_of_failingPolls`). `ScriptedLog.keeps_script` puts these
together. To leave the empty batches away would be wrong (`ScriptedLog.answers_of_no_script`).
-/

namespace ChangeFeed

/-- A call to a scripted log. -/
inductive LogCall where
  | poll (wait : Duration)
  | commit
  | failNextPolls (n : UInt32)
  | subscribe (topics : List String)
deriving DecidableEq

/-- Whether a call asks for polls to fail. -/
def LogCall.isFailNextPolls : LogCall → Bool
  | .failNextPolls _ => true
  | _ => false

/-- The batches that were handed out, among the answers of some polls. -/
def handedOut (answers : List (Except ServiceError (List Message))) : List (List Message) :=
  answers.filterMap Except.toOption

namespace ScriptedLog

/-- The log after a call. -/
def afterCall (log : ScriptedLog) : LogCall → ScriptedLog
  | .poll wait => (log.poll wait).after
  | .commit => log.commit
  | .failNextPolls n => log.failNextPolls n
  | .subscribe topics => log.subscribe topics

/-- The log after some calls. -/
def afterCalls (log : ScriptedLog) (calls : List LogCall) : ScriptedLog :=
  calls.foldl afterCall log

/-- The answer of a call, if it is a poll. -/
def answer? (log : ScriptedLog) : LogCall → Option (Except ServiceError (List Message))
  | .poll wait => some (log.poll wait).answer
  | _ => none

/-- The answers of the polls among some calls, in order. -/
def answers (log : ScriptedLog) : List LogCall → List (Except ServiceError (List Message))
  | [] => []
  | call :: rest => (log.answer? call).toList ++ (log.afterCall call).answers rest

/-! ## A single poll -/

/-- As long as polls are to fail, a poll fails, and takes nothing but one from their number. -/
theorem poll_of_failing {log : ScriptedLog} (h : log.failingPolls ≠ 0) (wait : Duration) :
    log.poll wait =
      .now (.error pollFault) { log with failingPolls := log.failingPolls - 1 } := by
  rw [poll, if_pos h]

/-- Otherwise a poll hands out the next batch of the script, if there is one. -/
theorem poll_of_batch {log : ScriptedLog} (h : log.failingPolls = 0) {batch : List Message}
    {rest : List (List Message)} (hbatches : log.batches = batch :: rest) (wait : Duration) :
    log.poll wait = .now (.ok batch) (log.deliver batch rest) := by
  rw [poll, if_neg (not_not_intro h)]
  simp only [hbatches]

/-- When the script is used up, it answers with an empty batch and stays as it is. -/
theorem poll_of_idle {log : ScriptedLog} (h : log.failingPolls = 0) (hbatches : log.batches = [])
    (wait : Duration) : log.poll wait = ⟨some wait, .ok [], log, log, []⟩ := by
  rw [poll, if_neg (not_not_intro h)]
  simp only [hbatches]

/-! ## The script -/

/-- What a log has handed out, together with what it has left, is the script. Behind the script come
empty batches, as many as have been handed out beyond its own. -/
structure Conserves (script returned : List (List Message)) (log : ScriptedLog) : Prop where
  batches : returned ++ log.batches =
    script ++ List.replicate (returned.length - script.length) []
  /-- The log remembers the last message that it has handed out. -/
  lastOffset : log.lastOffset = returned.flatten.getLast?.map Message.offset

variable {script returned : List (List Message)} {log : ScriptedLog}

/-- A log whose batches and last message do not change conserves its script. -/
theorem Conserves.of_same {log' : ScriptedLog} (h : log.Conserves script returned)
    (hbatches : log'.batches = log.batches) (hlast : log'.lastOffset = log.lastOffset) :
    log'.Conserves script returned where
  batches := by
    rw [hbatches]
    exact h.batches
  lastOffset := hlast.trans h.lastOffset

/-- There are as many batches handed out or left as the script has, or more of them are handed out
and none is left. -/
theorem Conserves.length_eq (h : log.Conserves script returned) :
    returned.length + log.batches.length = max script.length returned.length := by
  have hlength := congrArg List.length h.batches
  rw [List.length_append, List.length_append, List.length_replicate] at hlength
  omega

/-- A poll conserves the script. -/
theorem Conserves.poll (h : log.Conserves script returned) (wait : Duration) :
    (log.poll wait).after.Conserves script (returned ++ handedOut [(log.poll wait).answer]) := by
  have hscript := h.batches
  have hlength := h.length_eq
  by_cases hfailing : log.failingPolls = 0
  · cases hbatches : log.batches with
    | cons batch rest =>
      rw [hbatches] at hscript hlength
      rw [List.length_cons] at hlength
      -- A batch is left, so that no empty one has been handed out behind the script.
      have hfewer : returned.length < script.length := by omega
      rw [poll_of_batch hfailing hbatches wait]
      constructor
      case batches =>
        rw [Nat.sub_eq_zero_of_le (Nat.le_of_lt hfewer)] at hscript
        show returned ++ [batch] ++ rest =
          script ++ List.replicate ((returned ++ [batch]).length - script.length) []
        rw [List.length_append, List.length_singleton, Nat.sub_eq_zero_of_le hfewer,
          List.append_assoc]
        exact hscript
      case lastOffset =>
        show (batch.getLast?.map Message.offset).or log.lastOffset =
          (returned ++ [batch]).flatten.getLast?.map Message.offset
        rw [h.lastOffset, List.flatten_append, List.flatten_singleton, List.getLast?_append,
          Option.map_or]
    | nil =>
      rw [hbatches, List.append_nil] at hscript
      rw [hbatches, List.length_nil] at hlength
      -- The script is used up, and one more empty batch is handed out behind it.
      have hall : script.length ≤ returned.length := by omega
      rw [poll_of_idle hfailing hbatches wait]
      constructor
      case batches =>
        show returned ++ [[]] ++ log.batches =
          script ++ List.replicate ((returned ++ [[]]).length - script.length) []
        rw [hbatches, List.append_nil, List.length_append, List.length_singleton,
          Nat.sub_add_comm hall, List.replicate_succ', ← List.append_assoc, ← hscript]
      case lastOffset =>
        show log.lastOffset = (returned ++ [[]]).flatten.getLast?.map Message.offset
        rw [h.lastOffset, List.flatten_append, List.flatten_singleton, List.append_nil]
  · rw [poll_of_failing hfailing wait]
    show Conserves script (returned ++ []) _
    rw [List.append_nil]
    exact h.of_same rfl rfl

/-- Every call conserves the script. -/
theorem Conserves.call (h : log.Conserves script returned) (call : LogCall) :
    (log.afterCall call).Conserves script
      (returned ++ handedOut (log.answer? call).toList) := by
  -- A call that is no poll hands out nothing.
  have hquiet : ∀ log' : ScriptedLog, log'.batches = log.batches →
      log'.lastOffset = log.lastOffset → log'.Conserves script (returned ++ handedOut []) := by
    intro log' hbatches hlast
    have hnothing : returned ++ handedOut [] = returned := List.append_nil returned
    rw [hnothing]
    exact h.of_same hbatches hlast
  cases call with
  | poll wait => exact h.poll wait
  | commit => exact hquiet _ rfl rfl
  | failNextPolls n => exact hquiet _ rfl rfl
  | subscribe topics => exact hquiet _ rfl rfl

/-- Calls conserve the script. -/
theorem Conserves.calls (h : log.Conserves script returned) (calls : List LogCall) :
    (log.afterCalls calls).Conserves script (returned ++ handedOut (log.answers calls)) := by
  induction calls generalizing log returned with
  | nil =>
    have hnothing : returned ++ handedOut [] = returned := List.append_nil returned
    rw [answers, hnothing]
    exact h
  | cons call rest ih =>
    have hrest := ih (h.call call)
    rw [List.append_assoc] at hrest
    rw [answers, handedOut, List.filterMap_append]
    exact hrest

/-- A log conserves the script that it was made with. -/
theorem conserves_calls (script : List (List Message)) (calls : List LogCall) :
    ((ofBatches script).afterCalls calls).Conserves script
      (handedOut ((ofBatches script).answers calls)) := by
  have hstart : (ofBatches script).Conserves script [] :=
    ⟨by rw [List.length_nil, Nat.zero_sub]; exact (List.append_nil script).symm, rfl⟩
  exact hstart.calls calls

/-! ## Polls that fail -/

/-- A poll leaves one failure less to come, if there was any. -/
theorem failingPolls_poll (log : ScriptedLog) (wait : Duration) :
    (log.poll wait).after.failingPolls.toNat = log.failingPolls.toNat - 1 := by
  by_cases hfailing : log.failingPolls = 0
  · have hnone : (log.poll wait).after.failingPolls = log.failingPolls := by
      cases hbatches : log.batches with
      | cons batch rest => rw [poll_of_batch hfailing hbatches wait]; rfl
      | nil => rw [poll_of_idle hfailing hbatches wait]
    rw [hnone, hfailing]
    rfl
  · rw [poll_of_failing hfailing wait]
    have hpositive : (1 : UInt32).toNat ≤ log.failingPolls.toNat :=
      Nat.pos_of_ne_zero fun h => hfailing (UInt32.toNat_inj.1 h)
    exact UInt32.toNat_sub_of_le _ _ (UInt32.le_iff_toNat_le.2 hpositive)

/-- A poll fails if polls are to fail, and hands out a batch otherwise. -/
theorem answer_poll (log : ScriptedLog) (wait : Duration) :
    if 0 < log.failingPolls.toNat then (log.poll wait).answer = .error pollFault
    else ∃ batch, (log.poll wait).answer = .ok batch := by
  by_cases hfailing : log.failingPolls = 0
  · rw [if_neg (by rw [hfailing]; decide)]
    cases hbatches : log.batches with
    | cons batch rest => exact ⟨batch, by rw [poll_of_batch hfailing hbatches wait]; rfl⟩
    | nil => exact ⟨[], by rw [poll_of_idle hfailing hbatches wait]⟩
  · have hpositive : 0 < log.failingPolls.toNat :=
      Nat.pos_of_ne_zero fun h => hfailing (UInt32.toNat_inj.1 h)
    rw [if_pos hpositive, poll_of_failing hfailing wait]
    rfl

/-- A poll that fails takes nothing but one from the number of polls that are to fail. -/
theorem after_poll_of_error {log : ScriptedLog} {wait : Duration} {e : ServiceError}
    (h : (log.poll wait).answer = .error e) :
    (log.poll wait).after = { log with failingPolls := log.failingPolls - 1 } := by
  have hanswer := log.answer_poll wait
  by_cases hfailing : log.failingPolls = 0
  · rw [hfailing, if_neg (by decide), h] at hanswer
    obtain ⟨batch, hbatch⟩ := hanswer
    cases hbatch
  · rw [poll_of_failing hfailing wait]
    rfl

/-- As many polls fail as are to fail, and those behind them do not, as long as nobody asks for
another number. -/
theorem answers_of_failingPolls (calls : List LogCall)
    (hcalls : ∀ call ∈ calls, call.isFailNextPolls = false) (log : ScriptedLog) (i : Nat)
    (answer : Except ServiceError (List Message))
    (hanswer : (log.answers calls)[i]? = some answer) :
    if i < log.failingPolls.toNat then answer = .error pollFault
    else ∃ batch, answer = .ok batch := by
  induction calls generalizing log i with
  | nil => simp [answers] at hanswer
  | cons call rest ih =>
    have hrest := ih fun call hcall => hcalls call (List.mem_cons_of_mem _ hcall)
    cases call with
    | poll wait =>
      cases i with
      | zero =>
        obtain rfl : (log.poll wait).answer = answer := by simpa [answers, answer?] using hanswer
        exact log.answer_poll wait
      | succ i =>
        -- The polls behind this one are one further from the first and have one failure less.
        have hlater := hrest _ i (by simpa [answers, answer?] using hanswer)
        rw [afterCall, failingPolls_poll] at hlater
        have hsame : i < log.failingPolls.toNat - 1 ↔ i + 1 < log.failingPolls.toNat := by omega
        simpa only [hsame] using hlater
    | commit => exact hrest log.commit i hanswer
    | failNextPolls n => exact absurd (hcalls _ List.mem_cons_self) Bool.noConfusion
    | subscribe topics => exact hrest (log.subscribe topics) i hanswer

/-! ## The log as a whole -/

/-- Only a commit notes an offset. -/
theorem commits_afterCall (log : ScriptedLog) {call : LogCall} (h : call ≠ .commit) :
    (log.afterCall call).commits = log.commits := by
  cases call with
  | poll wait =>
    show (log.poll wait).after.commits = log.commits
    unfold poll
    split
    · rfl
    · split <;> rfl
  | commit => exact absurd rfl h
  | failNextPolls n => rfl
  | subscribe topics => rfl

/-- After any calls the batches that were handed out, and behind them those that are left, are the
script and then one empty batch for each poll that succeeded when the script was used up. A poll
that fails takes nothing from it. After polls are asked to fail, just that number of the next ones
do, unless another number is asked for. A commit notes the offset of the last message of all that
were handed out, or nothing if there was none, and nothing else does. -/
theorem keeps_script (script : List (List Message)) (calls : List LogCall) :
    let log := (ofBatches script).afterCalls calls
    let returned := handedOut ((ofBatches script).answers calls)
    returned ++ log.batches =
      script ++ List.replicate (returned.length - script.length) [] ∧
    (∀ wait e, (log.poll wait).answer = .error e →
      (log.poll wait).after = { log with failingPolls := log.failingPolls - 1 }) ∧
    (∀ n later, (∀ call ∈ later, call.isFailNextPolls = false) → ∀ i answer,
      ((log.failNextPolls n).answers later)[i]? = some answer →
        if i < n.toNat then answer = .error pollFault else ∃ batch, answer = .ok batch) ∧
    log.commit.commits =
      log.commits ++ (returned.flatten.getLast?.map Message.offset).toList ∧
    ∀ call, call ≠ .commit → (log.afterCall call).commits = log.commits := by
  intro log returned
  have hconserves : log.Conserves script returned := conserves_calls script calls
  have hcommit : log.commit.commits =
      log.commits ++ (returned.flatten.getLast?.map Message.offset).toList := by
    show log.commits ++ log.lastOffset.toList = _
    rw [hconserves.lastOffset]
  exact ⟨hconserves.batches, fun _ _ hfails => after_poll_of_error hfails,
    fun n later hlater => answers_of_failingPolls later hlater (log.failNextPolls n), hcommit,
    fun _ hcall => log.commits_afterCall hcall⟩

/-- A log with no script at all still answers a poll with a batch, which is empty. So what it has
handed out and has left is not the script. -/
theorem answers_of_no_script :
    let log := (ofBatches []).afterCalls [.poll .zero]
    let returned := handedOut ((ofBatches []).answers [.poll .zero])
    returned = [[]] ∧ log.batches = [] ∧ returned ++ log.batches ≠ [] := by
  have hreturned : handedOut ((ofBatches []).answers [.poll .zero]) = [[]] := rfl
  have hleft : ((ofBatches []).afterCalls [.poll .zero]).batches = [] := rfl
  refine ⟨hreturned, hleft, ?_⟩
  rw [hreturned, hleft]
  exact List.cons_ne_nil _ _

/-- A script of one batch: the poll behind it fails as asked, and the one behind that finds the
script used up. -/
example :
    let batch : List Message := [⟨"customers", 0, 7, none⟩]
    (ofBatches [batch]).answers [.poll .zero, .failNextPolls 1, .poll .zero, .commit, .poll .zero] =
      [.ok batch, .error pollFault, .ok []] := by
  rfl

end ScriptedLog

end ChangeFeed
