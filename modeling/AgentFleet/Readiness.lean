import AgentFleet.Cloud.Provider

namespace AgentFleet
open AgentFleet.Action Cloud Decimal

/-- How instances are waited for: a wait of this length and a look, so many times. -/
structure Poller where
  interval : Number
  attempts : Int
  deriving DecidableEq, Repr

namespace Poller

def ofPolicy (interval : Number) (attempts : Int) : Except Fault Poller :=
  if interval.isNegative then .error (.of (.misuse .negativeInterval))
  else if attempts < 1 then .error (.of (.misuse .noAttempts))
  else .ok ⟨interval, attempts⟩

/-- The longest that all waits for one instance take together. -/
def bound (p : Poller) : Except Fault Number :=
  match p.interval.times? p.attempts with
  | some b => .ok b
  | none => .error (.of .tooLarge)

/-- A number as it is told. -/
def told (x : Number) : Except Fault Text :=
  match x.text? with
  | some t => .ok t
  | none => .error (.of (.misuse .tooManyDigits))

/-- Look at an instance once; nothing is found unless it is ready. -/
def look (c : Provider) (id : Text) : Action (Option Instance) := do
  let found ← c.describeInstances (some [id]) none
  return found.find? fun i => i.id = id && i.isReady

/-- The rounds that are left, of those that take no longer than `bound` together. That none is left
is trouble that tells the bound. -/
def rounds (p : Poller) (bound : Number) (c : Provider) (id : Text) :
    (left : Nat) → Action Instance
  | 0 => do
    let _ ← ofExcept (told bound)
    throw (.of (.notReady id (.whole p.attempts) bound))
  | n + 1 => do
    if ← wait p.interval then throw (.of (.cancelled id))
    match ← look c id with
    | some i => return i
    | none => rounds p bound c id n

def waitUntilReady (p : Poller) (c : Provider) (id : Text) : Action Instance := do
  let bound ← ofExcept p.bound
  log .info do
    return "Waiting up to " ++ (← told bound) ++ " seconds for instance " ++ id ++
      " to be running (" ++ (← told (.whole p.attempts)) ++ " attempts every " ++
      (← told p.interval) ++ " seconds)"
  rounds p bound c id p.attempts.toNat

end Poller

end AgentFleet
