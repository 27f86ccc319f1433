import Chip8.Text.Integer
import Chip8.Text.Quoted

/-!
# Options and arguments

The grammar of a command line.  An option is spelled with one dash and a letter, or with two dashes and a
word; letters can be joined behind one dash.  A value is the rest of the letters, what stands behind `=`
after a word, or else the next argument, whatever that looks like.  Options and arguments can be mixed;
behind `--` there are arguments only.  A dash alone is an argument.
-/

namespace Chip8.Command

inductive UsageError
  | unknownOption (name : String)
  /-- The command line ends where a value should be. -/
  | missingValue (name : String)
  | unwantedValue (name : String)
  | missingArgument (name : String)
  | extraArguments (arguments : List String)
  | invalidValue (parameter : Option String) (reason : String)
  deriving DecidableEq, Repr

def UsageError.text : UsageError → String
  | .unknownOption name => "No such option: " ++ name
  | .missingValue name => "Option " ++ Text.quoted name ++ " requires an argument."
  | .unwantedValue name => "Option " ++ Text.quoted name ++ " does not take a value."
  | .missingArgument name => "Missing argument '" ++ name ++ "'."
  | .extraArguments [a] => "Got unexpected extra argument (" ++ a ++ ")"
  | .extraArguments as => "Got unexpected extra arguments (" ++ String.intercalate " " as ++ ")"
  | .invalidValue none reason => "Invalid value: " ++ reason
  | .invalidValue (some parameter) reason => "Invalid value for " ++ parameter ++ ": " ++ reason

structure OptionSpec (κ : Type) where
  /-- Tells the option from others. -/
  key : κ
  names : List String
  /-- The spellings that mean the opposite. -/
  opposites : List String := []
  takesValue : Bool := false

/-- How messages name an option. -/
def OptionSpec.hint {κ : Type} (o : OptionSpec κ) : String :=
  String.intercalate " / " (o.names.map fun name => "'" ++ name ++ "'")

/-- What was chosen with an option. -/
inductive Choice
  | on
  | off
  | value (text : String)
  deriving DecidableEq, Repr

/-- A command line taken apart: the choices and the arguments, each in order. -/
structure Parsed (κ : Type) where
  choices : List (κ × Choice) := []
  arguments : List String := []

/-- What one argument with a dash says: some choices, and perhaps an option whose value comes next. -/
structure Dashed (κ : Type) where
  choices : List (κ × Choice) := []
  pending : Option (κ × String) := none

section
variable {κ : Type} (options : List (OptionSpec κ))

/-- The option that a spelling stands for, and the choice that it makes if no value is needed. -/
def lookUp (name : String) : Option (OptionSpec κ × Choice) :=
  options.findSome? fun o =>
    if o.names.contains name then some (o, .on)
    else if o.opposites.contains name then some (o, .off) else none

/-- Reads letters joined behind one dash. -/
def letters : List Char → Except UsageError (Dashed κ)
  | [] => .ok {}
  | c :: rest =>
    let name := String.ofList ['-', c]
    match lookUp options name with
    | none => .error (.unknownOption name)
    | some (o, choice) =>
      if o.takesValue then
        if rest.isEmpty then .ok { pending := some (o.key, name) }
        else .ok { choices := [(o.key, .value (String.ofList rest))] }
      else match letters rest with
        | .error e => .error e
        | .ok d => .ok { d with choices := (o.key, choice) :: d.choices }

/-- Reads an argument that begins with a dash and goes on. -/
def dashed (arg : String) : Except UsageError (Dashed κ) :=
  let cs := arg.toList
  let name := String.ofList (cs.takeWhile (· ≠ '='))
  let value? := if cs.contains '=' then some (String.ofList ((cs.dropWhile (· ≠ '=')).drop 1)) else none
  if arg.startsWith "--" then
    match lookUp options name, value? with
    | none, _ => .error (.unknownOption name)
    | some (o, choice), value? =>
      match o.takesValue, value? with
      | true, some text => .ok { choices := [(o.key, .value text)] }
      | true, none => .ok { pending := some (o.key, name) }
      | false, some _ => .error (.unwantedValue name)
      | false, none => .ok { choices := [(o.key, choice)] }
  else letters options (cs.drop 1)

def parse : List String → Except UsageError (Parsed κ)
  | [] => .ok {}
  | arg :: rest =>
    if arg = "--" then .ok { arguments := rest }
    else if arg.startsWith "-" && arg ≠ "-" then
      match dashed options arg with
      | .error e => .error e
      | .ok d =>
        match d.pending, rest with
        | none, rest => (parse rest).map fun p => { p with choices := d.choices ++ p.choices }
        | some (_, name), [] => .error (.missingValue name)
        | some (key, _), value :: rest =>
          (parse rest).map fun p => { p with choices := d.choices ++ (key, .value value) :: p.choices }
    else (parse rest).map fun p => { p with arguments := arg :: p.arguments }

end

/-- The choice for each option that was given: of several the last one, at the place of the first. -/
def Parsed.settled {κ : Type} [DecidableEq κ] (p : Parsed κ) : List (κ × Choice) :=
  (p.choices.map Prod.fst).eraseDups.map fun key => (key, (p.choices.reverse.lookup key).getD .on)

/-! ### Numbers as values -/

/-- The numbers that an option accepts. -/
structure Range where
  least : Int
  greatest : Option Int := none
  deriving DecidableEq, Repr

def Range.contains (r : Range) (n : Int) : Bool :=
  decide (r.least ≤ n) && match r.greatest with
    | some greatest => decide (n ≤ greatest)
    | none => true

def Range.text (r : Range) : String :=
  match r.greatest with
  | some greatest => toString r.least ++ "<=x<=" ++ toString greatest
  | none => "x>=" ++ toString r.least

/-- Reads a number in a range, or says why the text is none. -/
def Range.read (r : Range) (text : String) : Except String Int :=
  match Text.Base.ten.integer? text.toList with
  | none => .error (Text.quoted text ++ " is not a valid integer range.")
  | some n =>
    if r.contains n then .ok n
    else .error (toString n ++ " is not in the range " ++ r.text ++ ".")

/-- Reads any whole number, or says that the text is none. -/
def readInteger (text : String) : Except String Int :=
  match Text.Base.ten.integer? text.toList with
  | none => .error (Text.quoted text ++ " is not a valid integer.")
  | some n => .ok n

end Chip8.Command
