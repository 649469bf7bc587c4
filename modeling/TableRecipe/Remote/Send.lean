import TableRecipe.Engine
import TableRecipe.Json.Parser

/-!
# Sending a value

A call is repeated as long as the service cannot be reached or fails, with a longer wait before
every repetition. Any other answer ends it.

* `Remote.pause` — how long the wait after an attempt is;
* `Remote.attempt` — the attempts that are left;
* `Remote.send` — a call with all its attempts.
-/

namespace TableRecipe.Remote

/-- how many attempts a call makes, counted in 32 bits -/
def attempts (retries : Nat) : Nat := (retries + 1) % Nat.pow 2 32

/-- how many units the wait after an attempt lasts, the first attempt being number zero: doubled
every time, as far as 32 bits go -/
def factor (number : Nat) : Nat := if number < 32 then Nat.pow 2 number else Nat.pow 2 32 - 1

/-- the wait after an attempt, in milliseconds -/
def pause (unit number : Nat) : Nat := unit * factor number

/-- the longest wait that can be told, in seconds -/
def longestPause : Nat := Nat.pow 2 64 - 1

/-- waits after an attempt -/
def wait (number : Nat) : Engine Unit := do
  let milliseconds := pause (← read).settings.backoffUnit number
  if longestPause < milliseconds / 1000 then throw (.of .overflow)
  Engine.record (.sleep milliseconds)

/-- the value in the body of a successful response -/
def valueOf (response : Response) : Except Error Value :=
  match Json.read? response.body with
  | some value => .ok value
  | none => .error (.unexpectedResponse "response is not valid JSON: ")

/-- what follows from the outcome of an attempt -/
inductive Verdict where
  /-- the call ends with a value or a failure -/
  | done (result : Except Error Value)
  /-- another attempt may succeed; if there is none, the call ends with the failure -/
  | again (last : Error)

/-- what follows from the outcome of an attempt, out of `total` -/
def verdict (request : Request) (total : Nat) : Except String Response → Verdict
  | .error message => .again (.of (.transport request.url message))
  | .ok response =>
    if response.isSuccess then .done (valueOf response)
    else if response.isServerError then .again (.of (.noResponse request.url total))
    else .done (.error (.of (.remoteRefusal response.status response.reason response.body)))

/-- makes the attempts that are left out of `total`, the next one having the number `number` -/
def attempt (request : Request) (payload : Value) (total : Nat) :
    (left number : Nat) → Engine Value
  | 0, _ => throw (.of (.noResponse request.url total))
  | left + 1, number => do
    match verdict request total (← Engine.post request payload) with
    | .done result => Engine.ofExcept result
    | .again last =>
      if left = 0 then throw last
      wait number
      attempt request payload total left (number + 1)

/-- sends a value and answers the value that comes back -/
def send (request : Request) (payload : Value) : Engine Value := do
  let total := attempts (← read).settings.retries
  attempt request payload total total 0

end TableRecipe.Remote
