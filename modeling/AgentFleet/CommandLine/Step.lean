import AgentFleet.CommandLine.Token

namespace AgentFleet.CommandLine

/-- What a command line says, from left to right. -/
inductive Step
  /-- A flag, with its value if one stands there. -/
  | flag (f : Flag) (value : Option Text)
  | positional (values : List Text)
  /-- A token that nothing takes. -/
  | extra (token : Text)
  /-- Nothing can be said any more; no step follows. -/
  | broken (p : Problem)
  deriving DecidableEq, Repr

/-- The flags of one token. -/
structure Cluster where
  steps : List Step
  /-- A flag at the end that has brought no value. -/
  pending : Option Flag
  deriving DecidableEq, Repr

def Cluster.after (c : Cluster) (s : Step) : Cluster :=
  { c with steps := s :: c.steps }

/-- What an attached text gives: two dashes alone stand for no value. -/
def attachedValue (text : Text) : Option Text :=
  if text = "--" then none else some text

/-- The flags in a token with a text attached. To a short flag that takes no value the text is more
short flags, of which only the last may take one. -/
def Grammar.cluster (g : Grammar) (f : Flag) (isShort : Bool) (text : Text) :
    Except Problem Cluster :=
  if f.arity ≠ .none then .ok ⟨[.flag f (attachedValue text)], none⟩
  else
    let ignored := Except.error (.ignoredValue f text)
    match isShort, text with
    | true, p :: r =>
      match g.spelled? [.char '-', p] with
      | some next =>
        if r = [] then .ok ⟨[.flag f none], some next⟩
        else (g.cluster next true r).map (·.after (.flag f none))
      | none => ignored
    | _, _ => ignored

def Grammar.clusterOf (g : Grammar) (f : Flag) (isShort : Bool) :
    Option Text → Except Problem Cluster
  | none => .ok ⟨[], some f⟩
  | some text => g.cluster f isShort text

/-- The steps of tokens, of which one may still be the positional argument. -/
def Grammar.scan (g : Grammar) : (isOpen : Bool) → List (Token × Text) → List Step
  | _, [] => []
  | isOpen, (.value, s) :: rest =>
    match isOpen, g.positional with
    | true, .everything _ => [.positional (s :: rest.map (·.2))]
    | true, .value _ =>
      match rest with
      | (.separator, _) :: rest => .positional [s] :: g.scan false rest
      | rest => .positional [s] :: g.scan false rest
    | _, _ => .extra s :: g.scan isOpen rest
  | isOpen, (.separator, s) :: rest =>
    match isOpen, g.positional, rest with
    | true, .everything _, _ :: _ => [.positional (s :: rest.map (·.2))]
    | true, .value _, (_, v) :: rest => .positional [v] :: g.scan false rest
    | _, _, rest => .extra s :: g.scan isOpen rest
  | isOpen, (.unknown, s) :: rest => .extra s :: g.scan isOpen rest
  | isOpen, (.flag f isShort attached, _) :: rest =>
    match g.clusterOf f isShort attached with
    | .error p => [.broken p]
    | .ok ⟨steps, none⟩ => steps ++ g.scan isOpen rest
    | .ok ⟨steps, some f⟩ =>
      match f.arity, rest with
      | .none, rest => steps ++ .flag f none :: g.scan isOpen rest
      | _, (.value, v) :: rest => steps ++ .flag f (some v) :: g.scan isOpen rest
      | .one, _ => [.broken (.noValue f)]
      | .atMostOne, rest => steps ++ .flag f none :: g.scan isOpen rest

def Grammar.steps (g : Grammar) (arguments : List Text) : List Step :=
  match g.tokens arguments with
  | .ok tokens => g.scan (g.positional ≠ .nothing) tokens
  | .error p => [.broken p]

end AgentFleet.CommandLine
