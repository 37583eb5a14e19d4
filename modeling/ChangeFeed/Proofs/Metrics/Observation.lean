import ChangeFeed.Engine.Outcome
import ChangeFeed.Metrics.Snapshot
import Mathlib.Logic.Function.Basic
import Mathlib.Logic.Relation

/-!
# Snapshots of counts that move

Workers share a recorder. Each changes the cells of its events one at a time, in the order of
`Outcome.cells`, and a snapshot reads the cells one at a time while they do (`Observation.Step`).
Nobody waits for anybody, so the cells of a snapshot belong to different moments. If nobody counts
meanwhile it is that of the recorder (`Observation.snapshot_of_still`).

What is counted later about an event is never ahead of what is counted earlier (`Precedes`,
`Observation.Orderly.held_le`): in a recorder the rejections by reason are at most the errors, and
the outcomes at most the processed events. Counts only grow, so a snapshot keeps an inequality of
this kind if it reads the smaller side first. It does so with the reasons and the errors. It reads
`processed` before the outcomes though, and so it may have the outcome of an event that it does not
have as processed (`Observation.outcome_ahead`). What bounds the outcomes of a snapshot is what
`processed` has come to by its end (`Observation.bounds_of_snapshot`).
-/

namespace ChangeFeed

/-! ## What cells hold together -/

/-- What some cells hold together. -/
def held (value : Cell → Nat) (cells : List Cell) : Nat :=
  cells.foldr (fun cell sum => value cell + sum) 0

/-- The cells that count outcomes of events. -/
def Cell.outcomes : List Cell :=
  [.event .inserted, .event .updated, .event .deleted, .event .errored]

/-- The cells that count rejections by reason. -/
def Cell.reasons : List Cell :=
  Reason.all.map .rejection

/-- Cells that hold no more each hold no more together. -/
theorem held_mono {value value' : Cell → Nat} (h : ∀ cell, value cell ≤ value' cell)
    (cells : List Cell) : held value cells ≤ held value' cells := by
  induction cells with
  | nil => exact Nat.le_refl _
  | cons cell rest ih => exact Nat.add_le_add (h cell) ih

/-- A cell that is changed adds one to the cells that it is among. -/
theorem held_bump (r : Recorder) (cell : Cell) {cells : List Cell} (hnodup : cells.Nodup) :
    held (r.bump cell).read cells = held r.read cells + if cell ∈ cells then 1 else 0 := by
  induction cells with
  | nil => rfl
  | cons first rest ih =>
    obtain ⟨hfirst, hrest⟩ := List.nodup_cons.1 hnodup
    have hsum := ih hrest
    show (r.bump cell).read first + held (r.bump cell).read rest =
      r.read first + held r.read rest + _
    rw [Recorder.read_bump, hsum]
    by_cases hsame : cell = first
    · subst hsame
      simp [hfirst]
      omega
    · simp [hsame]
      omega

/-- A recorder that has seen nothing holds nothing. -/
theorem held_empty (cells : List Cell) : held Recorder.empty.read cells = 0 := by
  induction cells with
  | nil => rfl
  | cons cell rest ih =>
    show Recorder.empty.read cell + held Recorder.empty.read rest = 0
    rw [ih]
    cases cell with
    | event count => cases count <;> rfl
    | rejection reason => cases reason <;> rfl

/-! ## The order in which an event is counted -/

variable {early late : List Cell}

/-- Whoever has some cells still to change, from any of them on, has at least as many late ones
before it as early ones. -/
def Trails (early late : List Cell) : List Cell → Prop
  | [] => True
  | cell :: rest =>
    (cell :: rest).countP (· ∈ early) ≤ (cell :: rest).countP (· ∈ late) ∧ Trails early late rest

/-- All in all there are at least as many late cells as early ones. -/
theorem Trails.countP_le {cells : List Cell} (h : Trails early late cells) :
    cells.countP (· ∈ early) ≤ cells.countP (· ∈ late) := by
  cases cells with
  | nil => exact Nat.le_refl _
  | cons cell rest => exact h.1

/-- Cells behind others keep the order, if both do on their own. -/
theorem Trails.append {cells more : List Cell} (h : Trails early late cells)
    (hmore : Trails early late more) : Trails early late (cells ++ more) := by
  induction cells with
  | nil => exact hmore
  | cons cell rest ih =>
    refine ⟨?_, ih h.2⟩
    show (cell :: rest ++ more).countP _ ≤ (cell :: rest ++ more).countP _
    rw [List.countP_append, List.countP_append]
    exact Nat.add_le_add h.1 hmore.countP_le

/-- The cells of several workers, one behind the other, keep the order if those of each do. -/
theorem Trails.flatten {workers : List (List Cell)}
    (h : ∀ cells ∈ workers, Trails early late cells) : Trails early late workers.flatten := by
  induction workers with
  | nil => trivial
  | cons cells rest ih =>
    have hcells := h cells List.mem_cons_self
    exact hcells.append (ih fun other hother => h other (List.mem_cons_of_mem _ hother))

/-- Every event changes one group of cells before another, and both equally often. -/
structure Precedes (early late : List Cell) : Prop where
  early_nodup : early.Nodup
  late_nodup : late.Nodup
  trails : ∀ outcome : Outcome, Trails early late outcome.cells
  even : ∀ outcome : Outcome,
    outcome.cells.countP (· ∈ late) = outcome.cells.countP (· ∈ early)

/-- One event after another still changes the early cells first. -/
theorem Precedes.trails_flatMap (h : Precedes early late) (outcomes : List Outcome) :
    Trails early late (outcomes.flatMap Outcome.cells) := by
  induction outcomes with
  | nil => trivial
  | cons outcome rest ih =>
    rw [List.flatMap_cons]
    exact (h.trails outcome).append ih

/-- Events change both groups equally often. -/
theorem Precedes.even_flatMap (h : Precedes early late) (outcomes : List Outcome) :
    (outcomes.flatMap Outcome.cells).countP (· ∈ late) =
      (outcomes.flatMap Outcome.cells).countP (· ∈ early) := by
  induction outcomes with
  | nil => rfl
  | cons outcome rest ih =>
    rw [List.flatMap_cons, List.countP_append, List.countP_append, h.even, ih]

/-- The cells of an event are those of an effect, or those of a rejection for a reason. -/
theorem Outcome.cells_cases (outcome : Outcome) :
    (∃ effect : Effect, outcome.cells = [.event .processed, .event effect.count]) ∨
      ∃ reason, outcome.cells = [.event .processed, .event .errored, .rejection reason] := by
  cases outcome with
  | applied effect kind key => exact .inl ⟨effect, rfl⟩
  | rejected e => exact .inr ⟨e.reason, rfl⟩

/-- An event is counted as an error before it is counted under its reason. -/
theorem errored_precedes_reasons : Precedes [.event .errored] Cell.reasons where
  early_nodup := by decide
  late_nodup := by decide
  trails outcome := by
    rcases outcome.cells_cases with ⟨effect, h⟩ | ⟨reason, h⟩ <;> rw [h]
    · cases effect <;> simp [Trails, Effect.count, Cell.reasons]
    · cases reason <;> simp [Trails, Cell.reasons, Reason.all]
  even outcome := by
    rcases outcome.cells_cases with ⟨effect, h⟩ | ⟨reason, h⟩ <;> rw [h]
    · cases effect <;> rfl
    · cases reason <;> rfl

/-- An event is counted as processed before its outcome is counted. -/
theorem processed_precedes_outcomes : Precedes [.event .processed] Cell.outcomes where
  early_nodup := by decide
  late_nodup := by decide
  trails outcome := by
    rcases outcome.cells_cases with ⟨effect, h⟩ | ⟨reason, h⟩ <;> rw [h]
    · cases effect <;> simp [Trails, Effect.count, Cell.outcomes]
    · simp [Trails, Cell.outcomes]
  even outcome := by
    rcases outcome.cells_cases with ⟨effect, h⟩ | ⟨reason, h⟩ <;> rw [h]
    · cases effect <;> rfl
    · rfl

/-! ## Taking turns -/

/-- A snapshot that is being taken of a recorder that workers share. -/
structure Observation where
  /-- The cells that each worker has still to change, the next one first. -/
  pending : List (List Cell)
  recorder : Recorder
  /-- The cells that are still to be read, the next one first. -/
  unread : List Cell
  /-- What each cell held when it was read; nothing before that. -/
  seen : Cell → Nat

namespace Observation

/-- What can happen while a snapshot is taken. -/
inductive Step : Observation → Observation → Prop
  /-- A worker changes its next cell. -/
  | count (before) {cell rest after recorder unread seen} :
      Step ⟨before ++ (cell :: rest) :: after, recorder, unread, seen⟩
        ⟨before ++ rest :: after, recorder.bump cell, unread, seen⟩
  /-- The next cell is read. -/
  | look {pending recorder cell unread seen} :
      Step ⟨pending, recorder, cell :: unread, seen⟩
        ⟨pending, recorder, unread, Function.update seen cell (recorder.read cell)⟩

/-- Workers that are going to count some events, with a recorder that has seen nothing and a
snapshot that is not yet begun. -/
def start (workers : List (List Outcome)) : Observation :=
  ⟨workers.map (·.flatMap Outcome.cells), .empty, Snapshot.readOrder, fun _ => 0⟩

/-- The snapshot of what was read. -/
def snapshot (o : Observation) : Snapshot :=
  .ofReads o.seen

/-! ### What happens without interruption -/

/-- A worker that is not interrupted changes its cells all together. -/
theorem count_all (before after : List (List Cell)) (cells rest : List Cell) (r : Recorder)
    (unread : List Cell) (seen : Cell → Nat) :
    Relation.ReflTransGen Step ⟨before ++ (cells ++ rest) :: after, r, unread, seen⟩
      ⟨before ++ rest :: after, r.bumpAll cells, unread, seen⟩ := by
  induction cells generalizing r with
  | nil => exact .refl
  | cons cell cells ih => exact .head (.count before) (ih (r.bump cell))

/-- Cells that are read while nobody counts are read as they are. -/
theorem look_all (pending : List (List Cell)) (r : Recorder) (cells unread : List Cell)
    (seen : Cell → Nat) :
    Relation.ReflTransGen Step ⟨pending, r, cells ++ unread, seen⟩
      ⟨pending, r, unread, fun cell => if cell ∈ cells then r.read cell else seen cell⟩ := by
  induction cells generalizing seen with
  | nil => simpa using Relation.ReflTransGen.refl
  | cons first cells ih =>
    have hrest := ih (Function.update seen first (r.read first))
    have hseen : (fun cell => if cell ∈ cells then r.read cell
          else Function.update seen first (r.read first) cell) =
        fun cell => if cell ∈ first :: cells then r.read cell else seen cell := by
      funext cell
      by_cases hfirst : cell = first
      · subst hfirst
        simp
      · simp [hfirst]
    rw [hseen] at hrest
    exact .head .look hrest

/-- Every cell is read. -/
theorem mem_readOrder (cell : Cell) : cell ∈ Snapshot.readOrder := by
  cases cell with
  | event count => cases count <;> decide
  | rejection reason => cases reason <;> decide

/-- A snapshot that is taken while nobody counts is that of the recorder. -/
theorem snapshot_of_still (pending : List (List Cell)) (r : Recorder) :
    ∃ o, Relation.ReflTransGen Step ⟨pending, r, Snapshot.readOrder, fun _ => 0⟩ o ∧
      o.pending = pending ∧ o.unread = [] ∧ o.snapshot = r.snapshot := by
  have hread := look_all pending r Snapshot.readOrder [] fun _ => 0
  rw [List.append_nil] at hread
  have hall : (fun cell => if cell ∈ Snapshot.readOrder then r.read cell else 0) = r.read :=
    funext fun cell => if_pos (mem_readOrder cell)
  exact ⟨_, hread, rfl, rfl, congrArg Snapshot.ofReads hall⟩

/-! ### What every step keeps -/

/-- The workers keep to the order of two groups of cells: what they have counted and what they have
still to count comes to the same for both, and nobody has more of the early ones still to count than
of the late ones. -/
structure Orderly (early late : List Cell) (o : Observation) : Prop where
  even : held o.recorder.read late + o.pending.flatten.countP (· ∈ late) =
    held o.recorder.read early + o.pending.flatten.countP (· ∈ early)
  trails : ∀ cells ∈ o.pending, Trails early late cells

variable {o o' : Observation}

/-- What is counted later is not ahead of what is counted earlier. -/
theorem Orderly.held_le (h : o.Orderly early late) :
    held o.recorder.read late ≤ held o.recorder.read early := by
  have hpending := (Trails.flatten h.trails).countP_le
  have heven := h.even
  omega

/-- Every step keeps the order. -/
theorem Orderly.step (hprecedes : Precedes early late) (h : o.Orderly early late)
    (hstep : Step o o') : o'.Orderly early late := by
  cases hstep with
  | look => exact ⟨h.even, h.trails⟩
  | @count before cell rest after recorder unread seen =>
    constructor
    case even =>
      have heven := h.even
      -- The cell goes from those still to be changed to those that hold one more.
      have hmoved : ∀ cells : List Cell, cells.Nodup →
          held (recorder.bump cell).read cells +
              (before ++ rest :: after).flatten.countP (· ∈ cells) =
            held recorder.read cells +
              (before ++ (cell :: rest) :: after).flatten.countP (· ∈ cells) := by
        intro cells hnodup
        rw [held_bump recorder cell hnodup]
        simp [List.countP_cons]
        omega
      rw [hmoved late hprecedes.late_nodup, hmoved early hprecedes.early_nodup]
      exact heven
    case trails =>
      intro cells hcells
      rcases List.mem_append.1 hcells with hbefore | hafter
      · exact h.trails cells (List.mem_append_left _ hbefore)
      · rcases List.mem_cons.1 hafter with rfl | hafter
        · have hworker := h.trails (cell :: cells) (by simp)
          exact hworker.2
        · exact h.trails cells (by simp [hafter])

/-- At the start nothing is counted, and every event is still to be counted under both groups. -/
theorem orderly_start (hprecedes : Precedes early late) (workers : List (List Outcome)) :
    (start workers).Orderly early late := by
  constructor
  case even =>
    show held Recorder.empty.read late + (workers.map _).flatten.countP _ =
      held Recorder.empty.read early + (workers.map _).flatten.countP _
    rw [held_empty, held_empty]
    induction workers with
    | nil => rfl
    | cons outcomes rest ih =>
      have hfirst := hprecedes.even_flatMap outcomes
      rw [List.map_cons, List.flatten_cons, List.countP_append, List.countP_append]
      omega
  case trails =>
    intro cells hcells
    obtain ⟨outcomes, -, rfl⟩ := List.mem_map.1 hcells
    exact hprecedes.trails_flatMap outcomes

/-- What a snapshot has read is in order: no cell has become smaller since, the errors are read
last, and they are not fewer than the rejections that were read before. -/
structure Reads (o : Observation) : Prop where
  seen_le : ∀ cell, o.seen cell ≤ o.recorder.read cell
  last : o.unread = [] ∨ o.unread.getLast? = some (.event .errored)
  reasons_le : o.unread = [] → held o.seen Cell.reasons ≤ o.seen (.event .errored)

/-- Every step keeps what was read in order, as long as the workers keep to theirs. -/
theorem Reads.step (h : o.Reads) (horderly : o.Orderly [.event .errored] Cell.reasons)
    (hstep : Step o o') : o'.Reads := by
  cases hstep with
  | @count before cell rest after recorder unread seen =>
    refine ⟨fun other => Nat.le_trans (h.seen_le other) ?_, h.last, h.reasons_le⟩
    show recorder.read other ≤ (recorder.bump cell).read other
    rw [Recorder.read_bump]
    exact Nat.le_add_right _ _
  | @look pending recorder cell unread seen =>
    have hseen : ∀ other, Function.update seen cell (recorder.read cell) other ≤
        recorder.read other := by
      intro other
      by_cases hother : other = cell
      · subst hother
        exact Nat.le_of_eq (Function.update_self ..)
      · rw [Function.update_of_ne hother]
        exact h.seen_le other
    have hlast : (cell :: unread).getLast? = some (.event .errored) :=
      h.last.resolve_left (List.cons_ne_nil _ _)
    refine ⟨hseen, ?_, fun hdone => ?_⟩
    · cases unread with
      | nil => exact .inl rfl
      | cons next rest => exact .inr (by rwa [List.getLast?_cons_cons] at hlast)
    · -- The errors are read now, behind all reasons, and no reason has become smaller since.
      obtain rfl : unread = [] := hdone
      obtain rfl : cell = .event .errored := by simpa using hlast
      calc held (Function.update seen (.event .errored) _) Cell.reasons
          ≤ held recorder.read Cell.reasons := held_mono hseen _
        _ ≤ held recorder.read [.event .errored] := horderly.held_le
        _ = Function.update seen (.event .errored) (recorder.read (.event .errored))
            (.event .errored) := by
          rw [Function.update_self]
          rfl

/-- A snapshot that has not read anything has read it in order. -/
theorem reads_start (workers : List (List Outcome)) : (start workers).Reads where
  seen_le _ := Nat.zero_le _
  last := .inr rfl
  reasons_le h := by cases h

/-! ### Every interleaving -/

/-- Whatever the workers count, and however they take turns with a snapshot, it has at most as many
rejections by reason as errors. It has at most as many outcomes as `processed` has come to by its
end, so it has at most as many as it has processed events, unless an event was begun between the
reading of `processed` and the end. -/
theorem bounds_of_snapshot {workers : List (List Outcome)}
    (h : Relation.ReflTransGen Step (start workers) o) (done : o.unread = []) :
    let s := o.snapshot
    s.byReason .routing + s.byReason .decode + s.byReason .malformed + s.byReason .apply ≤
      s.errored ∧
    s.inserted + s.updated + s.deleted + s.errored ≤ o.recorder.processed ∧
    s.processed ≤ o.recorder.processed ∧
    (o.recorder.processed = s.processed →
      s.inserted + s.updated + s.deleted + s.errored ≤ s.processed) := by
  intro s
  -- What was read needs the order of the errors at every step, so all of it goes through one
  -- induction.
  have hkept : o.Orderly [.event .errored] Cell.reasons ∧
      o.Orderly [.event .processed] Cell.outcomes ∧ o.Reads := by
    clear done
    induction h with
    | refl =>
      exact ⟨orderly_start errored_precedes_reasons workers,
        orderly_start processed_precedes_outcomes workers, reads_start workers⟩
    | tail _ hstep ih =>
      obtain ⟨hreasons, houtcomes, hreads⟩ := ih
      exact ⟨hreasons.step errored_precedes_reasons hstep,
        houtcomes.step processed_precedes_outcomes hstep, hreads.step hreasons hstep⟩
  obtain ⟨-, houtcomes, hreads⟩ := hkept
  have hreasons : held o.seen Cell.reasons ≤ s.errored := hreads.reasons_le done
  have hprocessed : held o.seen Cell.outcomes ≤ o.recorder.processed :=
    calc held o.seen Cell.outcomes ≤ held o.recorder.read Cell.outcomes :=
          held_mono hreads.seen_le _
      _ ≤ held o.recorder.read [.event .processed] := houtcomes.held_le
      _ = o.recorder.processed := rfl
  have hall : s.inserted + s.updated + s.deleted + s.errored = held o.seen Cell.outcomes := by
    show _ = s.inserted + (s.updated + (s.deleted + (s.errored + 0)))
    omega
  have hby : s.byReason .routing + s.byReason .decode + s.byReason .malformed + s.byReason .apply =
      held o.seen Cell.reasons := by
    show _ = s.byReason .routing +
      (s.byReason .decode + (s.byReason .malformed + (s.byReason .apply + 0)))
    omega
  have hown : s.processed ≤ o.recorder.processed := hreads.seen_le (.event .processed)
  exact ⟨by omega, by omega, hown, fun hsame => by omega⟩

/-- A worker counts a rejection: the event as processed and as an error before the snapshot begins,
and the reason when the reasons are read already. Another worker counts an insert between the
reading of `processed` and of `inserted`. -/
theorem bounds_of_snapshot_two_workers :
    let workers : List (List Outcome) :=
      [[.applied .inserted .customer 1], [.rejected (.routing "x")]]
    ∃ o, Relation.ReflTransGen Step (start workers) o ∧ o.unread = [] ∧
      o.snapshot.byReason .routing + o.snapshot.byReason .decode + o.snapshot.byReason .malformed +
        o.snapshot.byReason .apply ≤ o.snapshot.errored ∧
      o.snapshot.byReason .routing = 0 ∧ o.snapshot.errored = 1 ∧ o.snapshot.processed = 1 ∧
      o.snapshot.inserted + o.snapshot.updated + o.snapshot.deleted + o.snapshot.errored ≤
        o.recorder.processed ∧ o.recorder.processed = 2 := by
  intro workers
  let insert : List Cell := [.event .processed, .event .inserted]
  let afterwards : List Cell :=
    [.event .inserted, .event .updated, .event .deleted, .event .errored]
  have hrun : Relation.ReflTransGen Step (start workers) _ :=
    (count_all [insert] [] [.event .processed, .event .errored] [.rejection .routing] .empty _
        fun _ => 0)
      |>.trans (look_all _ _ (Cell.reasons ++ [Cell.event .processed]) afterwards _)
      |>.trans (count_all [] _ insert [] _ _ _)
      |>.trans (count_all [[]] [] [.rejection .routing] [] _ _ _)
      |>.trans (look_all _ _ afterwards [] _)
  obtain ⟨hreasons, houtcomes, -, -⟩ := bounds_of_snapshot hrun rfl
  exact ⟨_, hrun, rfl, hreasons, rfl, rfl, rfl, houtcomes, rfl⟩

/-- A snapshot with the outcome of an event that it does not have as processed: the event is
counted between the reading of `processed` and of `inserted`. -/
theorem outcome_ahead :
    ∃ o, Relation.ReflTransGen Step (start [[.applied .inserted .customer 1]]) o ∧
      o.unread = [] ∧ o.snapshot.processed = 0 ∧ o.snapshot.inserted = 1 ∧
      ¬ o.snapshot.inserted + o.snapshot.updated + o.snapshot.deleted + o.snapshot.errored ≤
        o.snapshot.processed := by
  let insert : List Cell := [.event .processed, .event .inserted]
  let afterwards : List Cell :=
    [.event .inserted, .event .updated, .event .deleted, .event .errored]
  have hrun : Relation.ReflTransGen Step (start [[.applied .inserted .customer 1]]) _ :=
    (look_all [insert] .empty (Cell.reasons ++ [Cell.event .processed]) afterwards fun _ => 0)
      |>.trans (count_all [] [] insert [] _ _ _)
      |>.trans (look_all _ _ afterwards [] _)
  exact ⟨_, hrun, rfl, rfl, rfl, by decide⟩

end Observation

end ChangeFeed
