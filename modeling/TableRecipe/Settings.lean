import TableRecipe.Number
import TableRecipe.Text.Split

/-!
# Settings

What may be adjusted about a run.

* `Settings` — the settings and their usual values;
* `Settings.withWorkers` and the like — the settings with one of them changed;
* `Settings.ofEnvironment` — the usual settings, overlaid with variables of the environment.
-/

namespace TableRecipe

/-- what may be adjusted about a run -/
structure Settings where
  /-- how many bindings of a matrix are worked on at the same time -/
  workers : Nat := 10
  /-- how often a failed remote call is repeated; 32 bits -/
  retries : Nat := 5
  /-- the first wait between two attempts, in milliseconds; 64 bits -/
  backoffUnit : Nat := 1000
  /-- how long a remote call may take, in seconds -/
  timeout : Nat := 60
  /-- how many rows are sent in one call -/
  batchSize : Nat := 1000
  /-- whether placeholders may name variables of the environment -/
  includeEnvironment : Bool := true
  deriving DecidableEq, Repr, Inhabited

namespace Settings

/-- the settings with another number of workers, at least one -/
def withWorkers (settings : Settings) (workers : Nat) : Settings :=
  { settings with workers := max workers 1 }

/-- the settings with another number of repetitions -/
def withRetries (settings : Settings) (retries : Nat) : Settings := { settings with retries }

/-- the settings with another first wait -/
def withBackoffUnit (settings : Settings) (backoffUnit : Nat) : Settings :=
  { settings with backoffUnit }

/-- the settings with another time limit -/
def withTimeout (settings : Settings) (timeout : Nat) : Settings := { settings with timeout }

/-- the settings with another number of rows to a call, at least one -/
def withBatchSize (settings : Settings) (batchSize : Nat) : Settings :=
  { settings with batchSize := max batchSize 1 }

/-- the settings with the environment open to placeholders, or closed -/
def withEnvironment (settings : Settings) (includeEnvironment : Bool) : Settings :=
  { settings with includeEnvironment }

/-- the usual settings, overlaid with variables of the environment; those that are no numbers of
the right size are passed over -/
def ofEnvironment (environment : List (String × String)) : Settings :=
  let read := fun name bits =>
    (environment.lookup name).bind fun text => Decimal.whole? bits (Split.trim text.toList)
  let usual : Settings := {}
  { usual with
    workers := (read "LADLE_MATRIX_WORKERS" 64).getD usual.workers
    retries := (read "LADLE_REQUEST_RETRIES" 32).getD usual.retries
    backoffUnit := (read "LADLE_BACKOFF_UNIT_MS" 64).getD usual.backoffUnit
    timeout := (read "LADLE_REQUEST_TIMEOUT_SECS" 64).getD usual.timeout }

end Settings

end TableRecipe
