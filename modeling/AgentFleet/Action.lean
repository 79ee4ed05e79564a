import AgentFleet.Situation

namespace AgentFleet

/-- An action changes the situation, and the changes stay when it fails. -/
abbrev Action := EStateM Fault Situation

namespace Action

def record (e : Event) : Action Unit :=
  modify (·.record e)

/-- Carry an action out and look at how it went. -/
def attempt (act : Action α) : Action (Except Fault α) := fun s =>
  match act s with
  | .ok a s => .ok (.ok a) s
  | .error f s => .ok (.error f) s

theorem attempt_ok {act : Action α} {s t : Situation} {a : α} (h : act s = .ok a t) :
    act.attempt s = .ok (.ok a) t := by
  simp [attempt, h]

theorem attempt_error {act : Action α} {s t : Situation} {f : Fault} (h : act s = .error f t) :
    act.attempt s = .ok (.error f) t := by
  simp [attempt, h]

/-- Carry out `after` whatever becomes of `act`. A fault of `after` displaces that of `act`. -/
def always (act : Action α) (after : Action Unit) : Action α := do
  let result ← act.attempt
  after
  ofExcept result

/-- Lead a fault on to the trouble that it means here, if it means one. -/
def explain (act : Action α) (meaning : Fault → Option Trouble) : Action α := do
  match ← act.attempt with
  | .ok a => return a
  | .error f =>
    match meaning f with
    | some t => throw (f.because t)
    | none => throw f

/-- Tell a text. One that is to be told and cannot be made is the log's own affair: the action goes
on without it. -/
def log (severity : Severity) (text : Except Fault Text) : Action Unit := do
  if (← get).level.admits severity then
    match text with
    | .ok text => record (.logged severity text)
    | .error _ => record (.unlogged severity)

def info (text : Text) : Action Unit := log .info (.ok text)

def warn (text : Text) : Action Unit := log .warning (.ok text)

/-- Ask the service. A script that has run out gives no reply. -/
def ask (r : Cloud.Service.Request) : Action (Cloud.Service.Answer r.operation) := do
  let s ← get
  record (.asked r s.disk s.roster)
  match s.service r.operation with
  | [] => throw (.of (.noReply (r.operation.name .service)))
  | answer :: rest =>
    modify fun s => { s with service := s.service.with r.operation rest }
    ofExcept answer

def send (r : Cloud.Aws.Request) : Action (Cloud.Aws.Answer r.operation) := do
  let s ← get
  record (.sent r s.disk s.roster)
  match s.aws r.operation with
  | [] => throw (.of (.noReply (r.operation.name .aws)))
  | answer :: rest =>
    modify fun s => { s with aws := s.aws.with r.operation rest }
    ofExcept answer

/-- Open a session with AWS. -/
def openSession (credentials : Cloud.Credentials) (region : Setting) : Action Unit := do
  record (.session credentials region)
  match (← get).sessions with
  | [] => return
  | answer :: rest =>
    modify fun s => { s with sessions := rest }
    ofExcept answer

def release (client : Cloud.Aws.Client) : Action Unit :=
  modify fun s => if s.releasable client then s.record (.released client) else s

/-- The signals that are meant to stop the waiting: an interrupt and a request to end. -/
def stopSignals : List Int := [2, 15]

/-- Let a signal of this number stop the waiting, if it is meant to and heard. -/
def signal (number : Int) : Action Unit := do
  if (← get).cancellation.heard ∧ number ∈ stopSignals then
    warn ("Received signal " ++ Text.ofInt number ++ ". Cancelling...")
    modify fun s => { s with cancellation.isSet := true }

/-- Let the signal stop the waiting that comes during the present wait. -/
def signalDue (c : Cancellation) : Action Unit :=
  match c.signalAt with
  | some (n, number) => if n = c.waits then signal number else pure ()
  | none => pure ()

/-- Let a wait pass, and tell whether to stop. -/
def pass : Action Bool := do
  modify fun s => { s with cancellation.waits := s.cancellation.waits + 1 }
  let c := (← get).cancellation
  if c.dueAt.any (· ≤ c.waits) then
    modify fun s => { s with cancellation.isSet := true }
  signalDue c
  return (← get).cancellation.isSet

/-- Wait, and tell whether to stop. A wait that there cannot be fails at once. -/
def wait (seconds : Decimal.Number) : Action Bool := do
  record (.waited seconds)
  if (← get).cancellation.refuses seconds then throw (.of .waitTooLong)
  else pass

def cancel : Action Unit :=
  modify fun s => { s with cancellation.isSet := true }

/-- Hear signals while an action is carried out. -/
def hearing (act : Action α) : Action α := do
  let before := (← get).cancellation.heard
  modify fun s => { s with cancellation.heard := true }
  act.always (modify fun s => { s with cancellation.heard := before })

def print (line : Text) : Action Unit :=
  record (.printed line)

end Action

end AgentFleet
