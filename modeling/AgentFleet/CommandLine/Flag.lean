import AgentFleet.Text.Quoted

namespace AgentFleet.CommandLine

/-- The options of a command line. -/
inductive Flag
  | help
  | settings
  | agentsFile
  | level
  | payload
  | workers
  deriving DecidableEq, Repr

/-- How many values a flag takes. -/
inductive Arity
  | none
  | one
  | atMostOne
  deriving DecidableEq, Repr

namespace Flag

def spellings : Flag → List Text
  | help => ["-h", "--help"]
  | settings => ["-p", "--properties"]
  | agentsFile => ["-a", "--agents-file"]
  | level => ["-l", "--log-level"]
  | payload => ["--payload"]
  | workers => ["--parallel"]

def arity : Flag → Arity
  | help => .none
  | level => .atMostOne
  | settings | agentsFile | payload | workers => .one

def title (f : Flag) : Text :=
  Text.join "/" f.spellings

end Flag

/-- What stands on a command line without a flag: nothing, a value, or a value and all after it. -/
inductive Positional
  | nothing
  | value (name : Text)
  | everything (name : Text)
  deriving DecidableEq, Repr

/-- What a command line may hold, or the part of it that belongs to one command. -/
structure Grammar where
  /-- How reports of misuse begin. -/
  program : Text
  flags : List Flag
  positional : Positional
  deriving DecidableEq, Repr

/-- Why a command line is refused. -/
inductive Problem
  | ambiguous (token : Text) (spellings : List Text)
  | noValue (flag : Flag)
  | ignoredValue (flag : Flag) (value : Text)
  | badValue (title why : Text)
  | lacking (name : Text)
  | unrecognized (tokens : List Text)
  deriving DecidableEq, Repr

def Problem.message : Problem → Text
  | ambiguous token spellings =>
    "ambiguous option: " ++ token ++ " could match " ++ Text.join ", " spellings
  | noValue f => "argument " ++ f.title ++ ": expected one argument"
  | ignoredValue f value =>
    "argument " ++ f.title ++ ": ignored explicit argument " ++ Text.quoted value
  | badValue title why => "argument " ++ title ++ ": " ++ why
  | lacking name => "the following arguments are required: " ++ name
  | unrecognized tokens => "unrecognized arguments: " ++ Text.join " " tokens

end AgentFleet.CommandLine
