import ChangeFeed.Binary64.Layout
import ChangeFeed.Metrics.Recorder

/-!
# The text exposition of metrics

Families in the order of their names, each with a line of help, a line with its type, and a line
per series in the order of the label values. A family without series is left out.
-/

namespace ChangeFeed

namespace Exposition

/-- A labelled sample. The suffix is appended to the family's name. -/
structure Sample where
  suffix : String
  labels : List (String × String)
  value : Binary64

/-- A family of samples. -/
structure Family where
  name : String
  help : String
  type : String
  samples : List Sample

/-- A character inside a label value. -/
def escape (c : Char) : List Char :=
  if c = '\\' then ['\\', '\\']
  else if c = '"' then ['\\', '"']
  else if c = '\n' then ['\\', 'n']
  else [c]

/-- A label with its quoted value. -/
def labelText (label : String × String) : List Char :=
  label.1.toList ++ '=' :: '"' :: label.2.toList.flatMap escape ++ ['"']

/-- Labels in braces, or nothing without a label. -/
def labelsText (labels : List (String × String)) : List Char :=
  if labels = [] then []
  else '\x7b' :: [','].intercalate (labels.map labelText) ++ ['\x7d']

/-- The line of a sample. -/
def Sample.line (family : String) (s : Sample) : String :=
  .ofList (family.toList ++ s.suffix.toList ++ labelsText s.labels ++ ' ' ::
    NumberLayout.plain.text s.value)

/-- The lines of a family. -/
def Family.lines (f : Family) : List String :=
  if f.samples.isEmpty then []
  else
    ("# HELP " ++ f.name ++ " " ++ f.help) :: ("# TYPE " ++ f.name ++ " " ++ f.type) ::
      f.samples.map (·.line f.name)

/-- A sample without labels. -/
def plain (value : Binary64) : Sample :=
  ⟨"", [], value⟩

/-- The samples of counts, in the order of their labels. -/
def counts (label : String) (values : List (String × Nat)) : List Sample :=
  (values.mergeSort fun a b => decide (a.1 ≤ b.1)).map fun (name, n) =>
    ⟨"", [(label, name)], .ofNat n⟩

/-- The samples of a histogram: the buckets with their bounds, the sum and the count. -/
def histogram (label value : String) (h : Histogram) : List Sample :=
  (Histogram.bounds.map fun bound =>
    ⟨"_bucket", [(label, value), ("le", .ofList (NumberLayout.plain.text bound))],
      .ofNat (h.countUpTo bound)⟩) ++
  [⟨"_bucket", [(label, value), ("le", "+Inf")], .ofNat h.values.length⟩,
    ⟨"_sum", [(label, value)], h.sum⟩,
    ⟨"_count", [(label, value)], .ofNat h.values.length⟩]

/-- An integer as a number. -/
def ofInt (n : Int) : Binary64 :=
  .nearest (decide (n < 0)) n.natAbs 1

end Exposition

namespace Recorder

open Exposition

/-- The families of a recorder, in the order of their names. -/
def families (r : Recorder) : List Family :=
  [{ name := "cdc_sync_active_workers"
     help := "Number of consume loops currently running"
     type := "gauge"
     samples := [plain (ofInt r.activeWorkers)] },
   { name := "cdc_sync_apply_duration_seconds"
     help := "Time spent applying one event to the store, retries included"
     type := "histogram"
     samples := (r.durations.mergeSort fun a b => decide (a.1 ≤ b.1)).flatMap
       fun (collection, h) => histogram "collection" collection h },
   { name := "cdc_sync_batches_committed_total"
     help := "Total number of batches whose offsets were committed"
     type := "counter"
     samples := [plain (.ofNat r.batchesCommitted)] },
   { name := "cdc_sync_consumer_errors_total"
     help := "Total number of log client poll or commit failures"
     type := "counter"
     samples := [plain (.ofNat r.consumerErrors)] },
   { name := "cdc_sync_errors_total"
     help := "Rejected change events by failure reason"
     type := "counter"
     samples := counts "reason"
       (Reason.all.map fun reason => (reason.name, r.read (.rejection reason))) },
   { name := "cdc_sync_events_total"
     help := "Change events by terminal outcome (processed counts every event)"
     type := "counter"
     samples := counts "kind"
       (EventCount.all.map fun count => (count.name, r.read (.event count))) }]

/-- The lines of a recorder's exposition. -/
def exposition (r : Recorder) : List String :=
  r.families.flatMap Family.lines

end Recorder

end ChangeFeed
