/-!
# Reading command lines

A command declares its options and its operands. An option has a long name, perhaps a letter, and
either takes a value or is a switch; a value may also come from an environment variable, which the
command line overrides. Reading goes once through the arguments and stops at the first that has no
meaning; what was found is then checked, option by option in the order in which they appeared, those
of the environment after those of the command line.
-/

set_option autoImplicit false
set_option relaxedAutoImplicit false

namespace Turnstile

namespace Options

/-- Ways in which a command line is refused. The request for help and the one for the version end
the reading as well. -/
inductive Refusal
  | unknownArgument
  | emptyValue
  | invalidValue
  | repeatedOption
  | unwantedValue
  | missingArgument
  | unknownCommand
  | missingCommand
  | help
  | version
deriving DecidableEq, Repr

/-- What a user is told about a refusal. -/
def Refusal.message : Refusal → String
  | .unknownArgument => "an argument was not expected"
  | .emptyValue => "an option needs a value"
  | .invalidValue => "a value is not valid"
  | .repeatedOption => "an option was given more than once"
  | .unwantedValue => "a switch takes no value"
  | .missingArgument => "an operand is missing"
  | .unknownCommand => "there is no such command"
  | .missingCommand => "a command is missing"
  | .help => "help was asked for"
  | .version => "the version was asked for"

/-- An option of a command. -/
structure Flag where
  name : String
  letter : Option Char
  /-- The variable that stands in for the option. -/
  fallback : Option String
  /-- What its value must satisfy; `none` for a switch. -/
  accepts : Option (String → Bool)

/-- An operand, told by its position. -/
structure Operand where
  name : String
  fallback : Option String
  accepts : String → Bool

/-- A command without subcommands. -/
structure Spec where
  flags : List Flag
  operands : List Operand
  hasVersion : Bool

/-- What the arguments said about one option or operand: how often it was given, and its values. -/
structure Occurrence where
  name : String
  count : Nat
  values : List String
deriving DecidableEq, Repr

/-- Options and operands in the order in which they first appeared. -/
abbrev Found := List Occurrence

/-- Note that `name` was given, with a value or without. -/
def note (found : Found) (name : String) (value : Option String) : Found :=
  if found.any (·.name = name) then
    found.map fun o ↦
      if o.name = name then { o with count := o.count + 1, values := o.values ++ value.toList }
      else o
  else found ++ [⟨name, 1, value.toList⟩]

/-- Give a value to the option noted last under `name`. -/
def supply (found : Found) (name value : String) : Found :=
  found.map fun o ↦ if o.name = name then { o with values := o.values ++ [value] } else o

/-- Whether an argument can only be an option: a lone dash is a value. -/
def looksLikeOption (arg : List Char) : Bool :=
  match arg with
  | '-' :: _ :: _ => true
  | _ => false

/-- A long option with the value after its first equals sign. -/
def splitAtEquals (cs : List Char) : String × Option String :=
  match cs.span (· ≠ '=') with
  | (name, []) => (String.ofList name, none)
  | (name, _ :: value) => (String.ofList name, some (String.ofList value))

/-- What reading one argument leads to. -/
inductive Step
  | goes (found : Found) (awaiting : Option String)
  | stops (r : Refusal)

/-- A long option. The requests for help and for the version are switches as well. -/
def longOption (spec : Spec) (found : Found) (cs : List Char) : Step :=
  let (name, attached) := splitAtEquals cs
  match spec.flags.find? (·.name = name) with
  | some flag =>
    match flag.accepts, attached with
    | some _, some value => .goes (note found name (some value)) none
    | some _, none => .goes (note found name none) (some name)
    | none, none => .goes (note found name none) none
    | none, some _ => .stops .unwantedValue
  | none =>
    if name = "help" ∨ name = "version" ∧ spec.hasVersion then
      .stops (if attached.isSome then .unwantedValue
        else if name = "help" then .help else .version)
    else .stops .unknownArgument

/-- Options given by letters. A letter that takes a value takes what follows it. -/
def letterOptions (spec : Spec) (found : Found) : List Char → Step
  | [] => .goes found none
  | c :: cs =>
    match spec.flags.find? (·.letter = some c) with
    | some flag =>
      match flag.accepts, cs with
      | some _, [] => .goes (note found flag.name none) (some flag.name)
      | some _, '=' :: value => .goes (note found flag.name (some (String.ofList value))) none
      | some _, value => .goes (note found flag.name (some (String.ofList value))) none
      | none, cs => letterOptions spec (note found flag.name none) cs
    | none =>
      if c = 'h' then .stops .help
      else if c = 'V' ∧ spec.hasVersion then .stops .version
      else .stops .unknownArgument

/-- An argument that looks like an option. -/
def optionArgument (spec : Spec) (found : Found) : List Char → Step
  | '-' :: '-' :: name => longOption spec found name
  | cs => letterOptions spec found (cs.drop 1)

/-- An argument that is no option: the value that is awaited, or the next operand. -/
def plainArgument (spec : Spec) (found : Found) (awaiting : Option String) (arg : String) : Step :=
  match awaiting with
  | some name => .goes (supply found name arg) none
  | none =>
    match spec.operands.find? fun o ↦ !found.any (·.name = o.name) with
    | some operand => .goes (note found operand.name (some arg)) none
    | none => .stops .unknownArgument

/-- The arguments one after another. `operandsOnly` holds after a double dash. -/
def readArguments (spec : Spec) :
    Found → Option String → Bool → List String → Except Refusal (Found × Option String)
  | found, awaiting, _, [] => .ok (found, awaiting)
  | found, awaiting, operandsOnly, arg :: rest =>
    if operandsOnly then
      match plainArgument spec found none arg with
      | .goes found awaiting => readArguments spec found awaiting true rest
      | .stops r => .error r
    else if arg = "--" then readArguments spec found awaiting true rest
    else
      let step :=
        if looksLikeOption arg.toList then optionArgument spec found arg.toList
        else plainArgument spec found awaiting arg
      match step with
      | .goes found awaiting => readArguments spec found awaiting false rest
      | .stops r => .error r

/-- The options in front of the first argument that is neither an option nor the value of one, with
that argument and all that follow it. -/
def readLeading (spec : Spec) :
    Found → Option String → List String → Except Refusal (Found × List String)
  | found, _, [] => .ok (found, [])
  | found, awaiting, arg :: rest =>
    if arg = "--" then .error .unknownArgument
    else if looksLikeOption arg.toList then
      match optionArgument spec found arg.toList with
      | .goes found awaiting => readLeading spec found awaiting rest
      | .stops r => .error r
    else
      match awaiting with
      | some name => readLeading spec (supply found name arg) none rest
      | none => .ok (found, arg :: rest)

/-- An environment: variables with their values. -/
abbrev Environment := List (String × String)

/-- What the environment adds to the options and operands that were not given. -/
def addEnvironment (spec : Spec) (env : Environment) (found : Found) : Found :=
  let sources := spec.flags.map (fun f ↦ (f.name, f.fallback)) ++
    spec.operands.map fun o ↦ (o.name, o.fallback)
  sources.foldl (fun found (name, source) ↦
    if found.any (·.name = name) then found
    else match source.bind fun v ↦ env.lookup v with
      | some value => found ++ [⟨name, 1, [value]⟩]
      | none => found) found

/-- What the values of `name` must satisfy; `none` for a switch. -/
def acceptsOf (spec : Spec) (name : String) : Option (String → Bool) :=
  match spec.flags.find? (·.name = name) with
  | some flag => flag.accepts
  | none => (spec.operands.find? (·.name = name)).map (·.accepts)

/-- The checks of one option or operand. -/
def checkOccurrence (spec : Spec) (o : Occurrence) : Except Refusal Unit :=
  match acceptsOf spec o.name with
  | none => if 1 < o.count then .error .repeatedOption else .ok ()
  | some accepts =>
    if o.values.isEmpty then .error .emptyValue
    else if !o.values.all accepts then .error .invalidValue
    else if 1 < o.count then .error .repeatedOption
    else .ok ()

/-- What arguments and environment give together, or why it is refused. -/
def complete (spec : Spec) (env : Environment) (found : Found) (awaiting : Option String) :
    Except Refusal Found := do
  let found := addEnvironment spec env found
  let missing := spec.operands.any fun o ↦ !found.any (·.name = o.name)
  if missing then throw .missingArgument
  if let some name := awaiting then
    if (found.find? (·.name = name)).any (·.values.isEmpty) then throw .emptyValue
  found.forM (checkOccurrence spec)
  return found

/-- The options and operands that arguments and environment give, or why they are refused. -/
def read (spec : Spec) (env : Environment) (args : List String) : Except Refusal Found := do
  let (found, awaiting) ← readArguments spec [] none false args
  complete spec env found awaiting

/-- The value given to an option or operand. -/
def valueOf (found : Found) (name : String) : Option String :=
  (found.find? (·.name = name)).bind (·.values.head?)

/-- Whether a switch was given. -/
def isGiven (found : Found) (name : String) : Bool := found.any (·.name = name)

/-! ### Numbers -/

/-- The number that digits spell, after an optional sign. -/
def signedNumber? (s : String) : Option Int :=
  let digits (cs : List Char) : Option Nat :=
    if cs.isEmpty ∨ !cs.all Char.isDigit then none
    else some (cs.foldl (fun n c ↦ 10 * n + (c.toNat - 48)) 0)
  match s.toList with
  | '+' :: cs => (digits cs).map fun n ↦ (n : Int)
  | '-' :: cs => (digits cs).map fun n ↦ -(n : Int)
  | cs => (digits cs).map fun n ↦ (n : Int)

/-- The number below `bound` that digits spell, after an optional plus sign. -/
def natural? (bound : Nat) (s : String) : Option Nat :=
  if s.toList.head? = some '-' then none
  else match signedNumber? s with
    | some n => if n < bound then some n.toNat else none
    | none => none

/-- The signed 32-bit number that a text spells. -/
def signed32? (s : String) : Option Int32 :=
  match signedNumber? s with
  | some n =>
    if Int32.minValue.toInt ≤ n ∧ n ≤ Int32.maxValue.toInt then some (Int32.ofInt n) else none
  | none => none

end Options

end Turnstile
