import PubSub.CommandLine.Help

/-!
# Reading arguments

Arguments are read from left to right. The value of an option stays pending until something follows
that cannot change it, and only then is it looked at, so that an argument that nobody knows is told
before the value in front of it. After `--` nothing is an option.
-/

namespace PubSub.CommandLine

/-- What the command line asks for. -/
inductive Invocation where
  | publish (url topic : String) (id : Option String) (attributes : List (String × String))
    (data : List String)
  | tail (url topic : String) (limit : Option Nat) (start : StartPosition)
  deriving DecidableEq, Repr

/-- Why there is nothing to run. -/
inductive Stop where
  | page (p : Page)
  | usage (e : UsageError)
  deriving DecidableEq, Repr

/-- The shapes of an argument. -/
inductive Shape where
  /-- All that follow are no options. -/
  | divider
  | long (name : String) (value : Option String)
  | short (c : Char)
  | plain
  deriving DecidableEq, Repr

def shape (arg : String) : Shape :=
  match arg.toList with
  | ['-', '-'] => .divider
  | '-' :: '-' :: rest =>
    let name := rest.takeWhile (· ≠ '=')
    match rest.drop name.length with
    | [] => .long (String.ofList name) none
    | _ :: value => .long (String.ofList name) (some (String.ofList value))
  | '-' :: c :: _ => .short c
  | _ => .plain

/-- An option whose value is not looked at yet, or is still to come. -/
abbrev Pending := Option (Flag × Option String)

/-- Takes a pending value in. -/
def Values.settle (v : Values) : Pending → Except Stop Values
  | .none => .ok v
  | some (f, .none) => .error (.usage (.noValue f))
  | some (f, some value) => (v.accept f value).mapError .usage

/-- What an option that is known does: with a value it is taken in at once, without one the value is
awaited. -/
def Values.meet (v : Values) (p : Pending) (f : Flag) (value : Option String) :
    Except Stop (Values × Pending) := do
  let v ← v.settle p
  match value with
  | .none => return (v, some (f, .none))
  | some value => return (← (v.accept f value).mapError .usage, .none)

/-- What an option that nobody knows comes to, unless it asks for help. -/
def Values.stopAt (v : Values) (p : Pending) (page : Page) (name : String)
    (value : Option String) : Stop :=
  if name = "help" then
    match value with
    | some value => .usage (.unneeded value)
    | .none =>
      match v.settle p with
      | .error e => e
      | .ok _ => .page page
  else .usage (.unexpected ("--" ++ name))

def Values.stopAtShort (v : Values) (p : Pending) (page : Page) (c : Char) : Stop :=
  if c = 'h' then v.stopAt p page "help" .none
  else .usage (.unexpected (String.ofList ['-', c]))

namespace Verb

/-- The arguments after the divider. -/
def readRest (verb : Verb) (v : Values) (p : Pending) : List String → Except Stop Values
  | [] => v.settle p
  | arg :: rest =>
    if verb.takesData then do
      let v ← v.settle p
      return { v with data := v.data ++ arg :: rest }
    else .error (.usage (.unexpected arg))

def read (verb : Verb) (v : Values) (p : Pending) : List String → Except Stop Values
  | [] => v.settle p
  | arg :: rest =>
    match shape arg with
    | .divider => verb.readRest v p rest
    | .long name value =>
      match verb.flags.find? (·.name = name) with
      | none => .error (v.stopAt p (.verb verb) name value)
      | some f => do
        let (v, p) ← v.meet p f value
        verb.read v p rest
    | .short c => .error (v.stopAtShort p (.verb verb) c)
    | .plain =>
      match p with
      | some (f, none) => verb.read v (some (f, some arg)) rest
      | p =>
        if verb.takesData then do
          let v ← v.settle p
          verb.read { v with data := v.data ++ [arg] } none rest
        else .error (.usage (.unexpected arg))

/-- The invocation of a command, whose required values must be there. -/
def finish (verb : Verb) (v : Values) : Except Stop Invocation :=
  match v.url, v.topic with
  | some url, some topic =>
    match verb with
    | .publish =>
      if v.data = [] then .error (.usage .missing)
      else .ok (.publish url topic v.id v.attributes v.data)
    | .tail => .ok (.tail url topic v.limit (v.start.getD .oldest))
  | _, _ => .error (.usage .missing)

def invocation (verb : Verb) (args : List String) : Except Stop Invocation := do
  verb.finish (← verb.read .none none args)

end Verb

/-- The page that `help` asks for. -/
def helpPage : List String → Stop
  | [] => .page .overview
  | name :: rest =>
    match Verb.ofName? name, rest with
    | some verb, [] => .page (.verb verb)
    | some _, next :: _ => .usage (.unknownCommand next)
    | none, rest =>
      if name = "help" then
        match rest with
        | [] => .page .help
        | next :: _ => .usage (.unknownCommand next)
      else .usage (.unknownCommand name)

def isCommand (name : String) : Bool := (Verb.ofName? name).isSome || name = "help"

/-- Reads the arguments before the command, and then those of the command. -/
def readFrom (v : Values) (p : Pending) : List String → Except Stop Invocation
  | [] => do
    let v ← v.settle p
    .error (.usage (if v.log.isNone then .nothing else .noCommand))
  | arg :: rest =>
    match p with
    | some (f, none) =>
      match shape arg with
      | .plain => readFrom v (some (f, some arg)) rest
      | s => readShape v p s rest
    | p =>
      match Verb.ofName? arg with
      | some verb => do
        let i ← verb.invocation rest
        let _ ← v.settle p
        return i
      | none => if arg = "help" then .error (helpPage rest) else
        match shape arg with
        | .plain => .error (.usage (.unknownCommand arg))
        | s => readShape v p s rest
where
  /-- An argument that begins with a dash. -/
  readShape (v : Values) (p : Pending) (s : Shape) (rest : List String) :
      Except Stop Invocation :=
    match s with
    | .divider =>
      match rest with
      | [] => readFrom v p []
      | arg :: _ =>
        .error (.usage (if isCommand arg then .unexpected arg else .unknownCommand arg))
    | .long name value =>
      if name = "log" then do
        let (v, p) ← v.meet p .log value
        readFrom v p rest
      else .error (v.stopAt p .overview name value)
    | .short c => .error (v.stopAtShort p .overview c)
    | .plain => .error (.usage .noCommand)

def read (args : List String) : Except Stop Invocation := readFrom .none none args

end PubSub.CommandLine
