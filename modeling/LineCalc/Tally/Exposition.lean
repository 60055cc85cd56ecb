import LineCalc.Tally.Basic

set_option autoImplicit false

/- A tally as text: a family of samples for each thing counted, each sample on a line of its own.
Samples that depend on the time that calls took are left out of it. -/
namespace LineCalc.Exposition

inductive Kind where
  | counter
  | histogram
  deriving DecidableEq, Repr

def Kind.label : Kind → String
  | .counter => "counter"
  | .histogram => "histogram"

/-- A count, which no duration goes into. -/
structure Sample where
  metric : String
  labels : Labels
  bound : Option String
  value : Nat
  deriving DecidableEq, Repr

structure Family where
  name : String
  help : String
  kind : Kind
  samples : List Sample
  deriving DecidableEq, Repr

/-- Backslashes, quotes and line feeds in label values. -/
def escape (c : Char) : List Char :=
  if c = '\\' then ['\\', '\\']
  else if c = '\x22' then ['\\', '\x22']
  else if c = '\n' then ['\\', 'n']
  else [c]

def labelText (name value : String) : String :=
  name ++ "=\"" ++ String.ofList (value.toList.flatMap escape) ++ "\""

def Sample.text (sample : Sample) : String :=
  let labels := [labelText "app_layer" sample.labels.layer,
    labelText "class_function" sample.labels.function]
  let labels := match sample.bound with
    | some bound => labels ++ [labelText "le" bound]
    | none => labels
  sample.metric ++ "\x7b" ++ ",".intercalate labels ++ "\x7d " ++ toString sample.value

def Family.lines (family : Family) : List String :=
  ("# HELP " ++ family.name ++ " " ++ family.help) ::
    ("# TYPE " ++ family.name ++ " " ++ family.kind.label) ::
    family.samples.map Sample.text

/-- The families of a tally in the order of their names. Of a timer there are the bucket that holds
every duration, and the number of them. Left out are the samples that depend on the time taken: the
sum of the durations, and the buckets that hold the durations up to some length. -/
def families (tally : Tally) : List Family :=
  [{ name := "failure_counter", help := "Failure Count", kind := .counter,
     samples := tally.map fun (labels, counts) =>
       ⟨"failure_counter", labels, none, counts.failures⟩ },
   { name := "success_counter", help := "Success Count", kind := .counter,
     samples := tally.map fun (labels, counts) =>
       ⟨"success_counter", labels, none, counts.successes⟩ },
   { name := "timer", help := "Duration in seconds", kind := .histogram,
     samples := tally.flatMap fun (labels, counts) =>
       [⟨"timer_bucket", labels, some "+Inf", counts.timings⟩,
         ⟨"timer_count", labels, none, counts.timings⟩] }]

/-- The lines of all families that have a sample. -/
def lines (families : List Family) : List String :=
  (families.filter (!·.samples.isEmpty)).flatMap Family.lines

/-- Leaves out what was never counted. -/
def Family.counted (family : Family) : Family :=
  { family with samples := family.samples.filter (·.value != 0) }

end LineCalc.Exposition
