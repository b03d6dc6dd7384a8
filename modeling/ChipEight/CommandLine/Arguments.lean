/-!
# Arguments of a command

Arguments are options and operands. An option has a long name after two dashes, and some have a letter
after one dash too; letters can be joined behind one dash. An option that takes a value finds it behind
an equals sign, in the rest of its argument, or in the next argument. Two dashes alone end the options.
-/

namespace ChipEight

/-- What the options are about. -/
inductive Setting
  | help
  | version
  | cycles
  | out
  | scale
  | rate
  | legacyLoadStore
  | noIndexOverflow
  | verbose
  deriving DecidableEq

/-- An option that a command knows. -/
structure Switch where
  setting : Setting
  letter : Option Char := none
  long : String
  takesValue : Bool := false
  deriving DecidableEq

/-- The names of an option, as they are typed. -/
def Switch.names (switch : Switch) : List String :=
  (switch.letter.map fun c => "-" ++ c.toString).toList ++ [switch.long]

/-- What is wrong with the options of a command. -/
inductive OptionError
  | unknown (name : String)
  | needsValue (name : String)
  | takesNoValue (name : String)
  deriving DecidableEq

/-- Arguments that have been read: the options in order, each with its value if it takes one, and the
operands in order. -/
structure Arguments where
  options : List (Setting × Option String) := []
  operands : List String := []
  deriving DecidableEq

namespace Arguments

def addOption (arguments : Arguments) (setting : Setting) (value : Option String) : Arguments :=
  { arguments with options := arguments.options ++ [(setting, value)] }

def addOperands (arguments : Arguments) (operands : List String) : Arguments :=
  { arguments with operands := arguments.operands ++ operands }

/-- A long option's name and the value behind its equals sign. -/
def splitLong (argument : List Char) : String × Option String :=
  match argument.dropWhile (· ≠ '=') with
  | [] => (String.ofList argument, none)
  | _ :: value => (String.ofList (argument.takeWhile (· ≠ '=')), some (String.ofList value))

/-- What one argument of options amounts to. `waiting` is the option at its end that takes the next
argument as its value, with the name it was typed by. -/
structure Cluster where
  options : List (Setting × Option String) := []
  waiting : Option (Setting × String) := none

def readLong (switches : List Switch) (argument : List Char) : Except OptionError Cluster :=
  let (name, value) := splitLong argument
  match switches.find? (·.long = name) with
  | none => .error (.unknown name)
  | some switch =>
    match switch.takesValue, value with
    | true, some value => .ok { options := [(switch.setting, some value)] }
    | true, none => .ok { waiting := some (switch.setting, name) }
    | false, some _ => .error (.takesNoValue name)
    | false, none => .ok { options := [(switch.setting, none)] }

/-- Reads joined letters. The rest behind the letter of an option that takes a value is that value. -/
def readLetters (switches : List Switch) : List Char → Except OptionError Cluster
  | [] => .ok {}
  | c :: rest =>
    let name := "-" ++ c.toString
    match switches.find? (·.letter = some c) with
    | none => .error (.unknown name)
    | some switch =>
      if switch.takesValue then
        if rest.isEmpty then .ok { waiting := some (switch.setting, name) }
        else .ok { options := [(switch.setting, some (String.ofList rest))] }
      else
        (readLetters switches rest).map fun cluster =>
          { cluster with options := (switch.setting, none) :: cluster.options }

/-- Whether an argument is read as options, and how. -/
def cluster? (switches : List Switch) (argument : String) : Option (Except OptionError Cluster) :=
  match argument.toList with
  | '-' :: '-' :: rest => some (readLong switches ('-' :: '-' :: rest))
  | '-' :: c :: rest => some (readLetters switches (c :: rest))
  | _ => none

/-- Reads the arguments behind those already read. Unless `mixed` holds, the first operand ends the
options. -/
def readFrom (switches : List Switch) (mixed : Bool) :
    List String → Arguments → Except OptionError Arguments
  | [], found => .ok found
  | argument :: rest, found =>
    if argument = "--" then .ok (found.addOperands rest)
    else
      match cluster? switches argument with
      | none =>
        if mixed then readFrom switches mixed rest (found.addOperands [argument])
        else .ok (found.addOperands (argument :: rest))
      | some (.error error) => .error error
      | some (.ok cluster) =>
        let found := { found with options := found.options ++ cluster.options }
        match cluster.waiting with
        | none => readFrom switches mixed rest found
        | some (setting, name) =>
          match rest with
          | [] => .error (.needsValue name)
          | value :: rest => readFrom switches mixed rest (found.addOption setting (some value))

def read (switches : List Switch) (mixed : Bool) (arguments : List String) :
    Except OptionError Arguments :=
  readFrom switches mixed arguments {}

/-- The settings that options were given for, in the order of the first option for each. -/
def settings (arguments : Arguments) : List Setting :=
  (arguments.options.map (·.1)).eraseDups

/-- Whether there is an option for a setting. -/
def gives (arguments : Arguments) (setting : Setting) : Bool :=
  arguments.options.any (·.1 = setting)

/-- The value of the last option for a setting. -/
def value (arguments : Arguments) (setting : Setting) : String :=
  (((arguments.options.filter (·.1 = setting)).getLast?.bind (·.2))).getD ""

end Arguments

end ChipEight
