import ChangeFeed.Proofs.Consumer.Backoff
import Mathlib.Data.List.DropRight

/-!
# How the wait grows

A consumer notes successes and errors as they come (`Health.Note`). All that is left of them is how
many errors there were since the last success (`Health.errorsInARow`), as far as 32 bits can hold
that (`Health.noteAll_withBackoff`). The wait that is due grows with this number
(`Health.dueNanos_mono`) and stays between its limits, so over fewer than `2 ^ 32` notes it is what
the exact arithmetic says, whatever the limits are (`Health.backoff_of_notes`).
-/

namespace ChangeFeed.Health

/-- What a consumer notes of a contact: a success, with what the wall clock shows, or an error. -/
inductive Note where
  | success (reading : Int64)
  | error
deriving DecidableEq

/-- Notes a success or an error. -/
def note (health : Health) : Note → Health
  | .success reading => health.recordSuccess reading
  | .error => health.recordError.2

/-- Notes successes and errors in order. -/
def noteAll (health : Health) (notes : List Note) : Health :=
  notes.foldl note health

/-- How many errors there were since the last success. -/
def errorsInARow (notes : List Note) : Nat :=
  (notes.rtakeWhile (· = .error)).length

/-- What the wall clock showed at the last success, or before there was one. -/
def lastReading (made : Int64) (notes : List Note) : Int64 :=
  notes.foldl (fun last note =>
    match note with
    | .success reading => reading
    | .error => last) made

/-! ## The counter -/

/-- The last note comes behind the others. -/
theorem noteAll_concat (health : Health) (notes : List Note) (last : Note) :
    health.noteAll (notes ++ [last]) = (health.noteAll notes).note last := by
  rw [noteAll, List.foldl_append]
  rfl

/-- A success ends the row. -/
theorem errorsInARow_success (notes : List Note) (reading : Int64) :
    errorsInARow (notes ++ [.success reading]) = 0 := by
  simp [errorsInARow]

/-- An error makes it longer by one. -/
theorem errorsInARow_error (notes : List Note) :
    errorsInARow (notes ++ [.error]) = errorsInARow notes + 1 := by
  simp [errorsInARow]

/-- There are no more errors than notes. -/
theorem errorsInARow_le_length (notes : List Note) : errorsInARow notes ≤ notes.length :=
  (List.rtakeWhile_suffix _ notes).length_le

/-- A success is the last one, and an error leaves it as it is. -/
theorem lastReading_concat (made : Int64) (notes : List Note) (last : Note) :
    lastReading made (notes ++ [last]) =
      match last with
      | .success reading => reading
      | .error => lastReading made notes := by
  rw [lastReading, List.foldl_append]
  rfl

/-- Of all that a consumer has noted, the last success and the number of errors since then are left,
and the number is left in 32 bits. -/
theorem noteAll_withBackoff (worker : Nat) (least bound : Duration) (made : Int64)
    (notes : List Note) :
    (withBackoff worker least bound made).noteAll notes =
      { withBackoff worker least bound (lastReading made notes) with
        errors := UInt32.ofNat (errorsInARow notes) } := by
  -- The last note decides: a success starts the count again, an error adds one to it.
  induction notes using List.reverseRecOn with
  | nil => rfl
  | append_singleton notes last ih =>
    rw [noteAll_concat, ih, lastReading_concat]
    cases last with
    | success reading =>
      rw [errorsInARow_success]
      rfl
    | error =>
      rw [errorsInARow_error, UInt32.ofNat_add]
      rfl

/-- Fewer notes than there are numbers of 32 bits are counted as they are. -/
theorem toNat_errors_noteAll (worker : Nat) (least bound : Duration) (made : Int64)
    {notes : List Note} (few : notes.length < 2 ^ 32) :
    ((withBackoff worker least bound made).noteAll notes).errors.toNat = errorsInARow notes := by
  have hfew : errorsInARow notes < 2 ^ 32 := Nat.lt_of_le_of_lt (errorsInARow_le_length notes) few
  rw [noteAll_withBackoff]
  exact UInt32.toNat_ofNat_of_lt' hfew

/-! ## The wait -/

/-- The wait that is due does not shrink from one failure to the next. -/
theorem dueNanos_mono (health : Health) {failures more : Nat} (h : failures ≤ more) :
    health.dueNanos failures ≤ health.dueNanos more := by
  have hpower : 2 ^ min (failures - 1) 31 ≤ 2 ^ min (more - 1) 31 :=
    Nat.pow_le_pow_right (by decide) (by omega)
  have hproduct := Nat.mul_le_mul_left health.minBackoff.nanos hpower
  unfold dueNanos
  omega

/-- The wait that is due without a failure is the least one. -/
theorem dueNanos_zero (health : Health) (h : health.minBackoff.nanos ≤ health.maxBackoff.nanos) :
    health.dueNanos 0 = health.minBackoff.nanos := by
  show min (health.minBackoff.nanos * 1) health.maxBackoff.nanos = health.minBackoff.nanos
  omega

/-- After fewer than `2 ^ 32` notes the wait is the one that is due after the errors since the last
success. -/
theorem nanos_backoff_noteAll (worker : Nat) (least bound : Duration) (made : Int64)
    {notes : List Note} (few : notes.length < 2 ^ 32) :
    ((withBackoff worker least bound made).noteAll notes).backoff.nanos =
      (withBackoff worker least bound made).dueNanos (errorsInARow notes) := by
  have hkept := noteAll_withBackoff worker least bound made notes
  have hleast : ((withBackoff worker least bound made).noteAll notes).minBackoff =
      (withBackoff worker least bound made).minBackoff := by
    rw [hkept]
    rfl
  have hbound : ((withBackoff worker least bound made).noteAll notes).maxBackoff =
      (withBackoff worker least bound made).maxBackoff := by
    rw [hkept]
    rfl
  have hlimits := minBackoff_le_maxBackoff worker 0 least bound made
  have hwait := nanos_backoff_of_limits hleast hbound hlimits
  rw [hwait, toNat_errors_noteAll worker least bound made few]

/-- A consumer that has noted fewer than `2 ^ 32` successes and errors knows how many errors there
were since the last success, and gave back that number with the last of these. Its wait is the
least one as long as there is no error; from the first one on it doubles with each, up to
`2 ^ 31` times the least one and up to the bound, which is at least as long as the least wait. No
product is cut off on the way, however long the limits are. So the wait is always between the
limits, and never shorter after more errors. -/
theorem backoff_of_notes (worker : Nat) (least bound : Duration) (made : Int64)
    {notes : List Note} (few : notes.length < 2 ^ 32) :
    let consumer := withBackoff worker least bound made
    let health := consumer.noteAll notes
    let n := errorsInARow notes
    let longest := max least.nanos bound.nanos
    health.errors.toNat = n ∧
    (∀ earlier, notes = earlier ++ [.error] →
      (consumer.noteAll earlier).recordError.1.toNat = n) ∧
    health.backoff.nanos =
      (if n = 0 then least.nanos else min (least.nanos * 2 ^ min (n - 1) 31) longest) ∧
    least.nanos ≤ health.backoff.nanos ∧ health.backoff.nanos ≤ longest ∧
    ∀ others, others.length < 2 ^ 32 → n ≤ errorsInARow others →
      health.backoff.nanos ≤ (consumer.noteAll others).backoff.nanos := by
  intro consumer health n longest
  have hlimits : consumer.minBackoff.nanos ≤ consumer.maxBackoff.nanos :=
    minBackoff_le_maxBackoff worker 0 least bound made
  have hlongest : consumer.maxBackoff.nanos = longest := by
    show (bound.longer least).nanos = max least.nanos bound.nanos
    rw [Duration.nanos_longer, Nat.max_comm]
  have hleast : consumer.dueNanos 0 = least.nanos := consumer.dueNanos_zero hlimits
  have hwait : health.backoff.nanos = consumer.dueNanos n :=
    nanos_backoff_noteAll worker least bound made few
  have hcount : health.errors.toNat = n := toNat_errors_noteAll worker least bound made few
  refine ⟨hcount, fun earlier hearlier => ?_, ?_, ?_, ?_,
    fun others hothers hmore => ?_⟩
  · -- What the last error gives back is what the counter holds behind it.
    have hlast : health = (consumer.noteAll earlier).recordError.2 := by
      show consumer.noteAll notes = _
      rw [hearlier, noteAll_concat]
      rfl
    rw [hlast] at hcount
    exact hcount
  · rw [hwait]
    split
    · next hzero => rw [hzero, hleast]
    · rw [← hlongest]
      rfl
  · calc least.nanos = consumer.dueNanos 0 := hleast.symm
      _ ≤ consumer.dueNanos n := consumer.dueNanos_mono (Nat.zero_le n)
      _ = health.backoff.nanos := hwait.symm
  · rw [hwait, ← hlongest]
    exact Nat.min_le_right _ _
  · calc health.backoff.nanos = consumer.dueNanos n := hwait
      _ ≤ consumer.dueNanos (errorsInARow others) := consumer.dueNanos_mono hmore
      _ = (consumer.noteAll others).backoff.nanos :=
        (nanos_backoff_noteAll worker least bound made hothers).symm

/-- Two seconds doubled 31 times are far below the bound. With a least wait of `2 ^ 40` seconds no
duration can hold the product any more, and the wait is the bound. -/
theorem backoff_of_notes_limits :
    let notes : List Note := [.error, .success 1700000000000] ++ List.replicate 33 .error
    let far : Duration := .ofNanos Duration.maxNanos
    let short := withBackoff 0 (.ofSeconds 2) far 0
    let long := withBackoff 0 (.ofSeconds (2 ^ 40)) far 0
    notes.length < 2 ^ 32 ∧ (short.noteAll notes).errors.toNat = 33 ∧
      (short.noteAll notes).backoff.nanos = 2 ^ 32 * 10 ^ 9 ∧
      Duration.maxNanos < 2 ^ 40 * 10 ^ 9 * 2 ^ 31 ∧
      (long.noteAll notes).backoff.nanos = Duration.maxNanos := by
  intro notes far short long
  have few : notes.length < 2 ^ 32 := by decide
  have hshort := backoff_of_notes 0 (.ofSeconds 2) far 0 few
  have hlong := backoff_of_notes 0 (.ofSeconds (2 ^ 40)) far 0 few
  refine ⟨few, hshort.1.trans (by decide), hshort.2.2.1.trans (by decide +kernel), by decide,
    hlong.2.2.1.trans (by decide +kernel)⟩

end ChangeFeed.Health
