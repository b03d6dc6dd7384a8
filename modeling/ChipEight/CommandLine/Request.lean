import ChipEight.CommandLine.Command
import ChipEight.CommandLine.Files
import ChipEight.CommandLine.Report
import ChipEight.Dialect
import ChipEight.Notice
import ChipEight.Text.Integer

/-!
# Requests

A request is what the arguments ask for, checked as far as that can be done before anything runs. The
checks come in a fixed order, and the first that fails is the one reported: options that cannot be
read, then the values in the order in which their options appear, then the operand, then the defaults,
and superfluous operands last. A call for help or for the version comes before all checks of values.
-/

namespace ChipEight

/-- The settings of a command. -/
structure Settings where
  cycles : Int := 1000
  out : String := "out.gif"
  scale : Int
  rate : Int := 500
  dialect : Dialect := {}
  verbose : Bool := false
  deriving DecidableEq

/-- What the arguments ask for. -/
inductive Request
  | version
  | programHelp
  | commandHelp (command : Command)
  | run (command : Command) (settings : Settings) (rom : String)
  deriving DecidableEq

def Settings.threshold (settings : Settings) : Level := if settings.verbose then .debug else .warning

/-! ## Values -/

/-- The integers from `low` to `high`, where there is a highest one. -/
structure Interval where
  low : Int
  high : Option Int := none

namespace Interval

def contains (interval : Interval) (n : Int) : Bool := interval.low ≤ n && interval.high.all (n ≤ ·)

/-- The interval as it is written in messages. -/
def text (interval : Interval) : String :=
  match interval.high with
  | some high => toString interval.low ++ "<=x<=" ++ toString high
  | none => "x>=" ++ toString interval.low

end Interval

/-- What is wrong with a value. -/
inductive ValueError
  | noInteger (text : String)
  | outside (value : Int) (interval : Interval)
  | missingFile (path : String)
  | directory (path : String)
  | unreadable (path : String)
  | unwritable (path : String)
  /-- The path is none. -/
  | noPath (error : FileError) (path : String)

def ValueError.message : ValueError → String
  | noInteger text => Text.quoted text ++ " is not a valid integer range."
  | outside value interval => toString value ++ " is not in the range " ++ interval.text ++ "."
  | missingFile path => "File " ++ Text.quoted path ++ " does not exist."
  | directory path => "File " ++ Text.quoted path ++ " is a directory."
  | unreadable path => "File " ++ Text.quoted path ++ " is not readable."
  | unwritable path => "File " ++ Text.quoted path ++ " is not writable."
  | noPath error path => (error.onPath path).message

def Interval.read (interval : Interval) (text : String) : Except ValueError Int :=
  match Text.integer? text with
  | none => .error (.noInteger text)
  | some n => if interval.contains n then .ok n else .error (.outside n interval)

namespace Settings

def scales : Interval := ⟨1, some 40⟩

/-- The counts and rates that can be asked for. -/
def counts : Interval := ⟨1, none⟩

/-- The settings of a command that is called without options. -/
def standard : Command → Settings
  | .record => { scale := 4 }
  | .play => { scale := 10 }

/-- What is wrong with what there is at a path, where a file is asked for that may be read. -/
def fileError? (files : Files) (path : String) : FileKind → Option ValueError
  | .directory => some (.directory path)
  | .file => if files.readable path then none else some (.unreadable path)

/-- A path to write to: there is nothing, or a file that may be read and written. -/
def checkOut (files : Files) (path : String) : Except ValueError String :=
  match FileError.ofPath? path, files.kind path with
  | some error, _ => .error (.noPath error path)
  | none, none => .ok path
  | none, some kind =>
    match fileError? files path kind with
    | some error => .error error
    | none => if files.writable path then .ok path else .error (.unwritable path)

/-- A path to read from: there is a file that may be read. -/
def checkRom (files : Files) (path : String) : Except ValueError String :=
  match FileError.ofPath? path, files.kind path with
  | some error, _ => .error (.noPath error path)
  | none, none => .error (.missingFile path)
  | none, some kind =>
    match fileError? files path kind with
    | some error => .error error
    | none => .ok path

/-- The settings with the value of one option put in. -/
def set (files : Files) (settings : Settings) (setting : Setting) (value : String) :
    Except ValueError Settings :=
  match setting with
  | .help | .version => .ok settings
  | .cycles => (counts.read value).map fun n => { settings with cycles := n }
  | .out => (checkOut files value).map fun path => { settings with out := path }
  | .scale => (scales.read value).map fun n => { settings with scale := n }
  | .rate => (counts.read value).map fun n => { settings with rate := n }
  | .legacyLoadStore =>
    .ok { settings with dialect := { settings.dialect with loadStoreMovesIndex := true } }
  | .noIndexOverflow =>
    .ok { settings with dialect := { settings.dialect with indexOverflowFlag := false } }
  | .verbose => .ok { settings with verbose := true }

end Settings

/-! ## Errors of usage -/

/-- What is wrong with the arguments. -/
inductive UsageError
  | option (error : OptionError)
  | unknownCommand (name : String)
  | missingCommand
  | missingRom
  | invalid (parameter : String) (error : ValueError)
  | extra (operands : List String)

namespace UsageError

/-- The operand of a command in messages. -/
def romName : String := "ROM"

def message : UsageError → String
  | option (.unknown name) => "No such option " ++ Text.quoted name ++ "."
  | option (.needsValue name) => "Option " ++ Text.quoted name ++ " requires an argument."
  | option (.takesNoValue name) => "Option " ++ Text.quoted name ++ " does not take a value."
  | unknownCommand name => "No such command " ++ Text.quoted name ++ "."
  | missingCommand => "Missing command."
  | missingRom => "Missing argument " ++ Text.quoted romName ++ "."
  | invalid parameter error => "Invalid value for " ++ parameter ++ ": " ++ error.message
  | extra [operand] => "Got unexpected extra argument (" ++ operand ++ ")"
  | extra operands => "Got unexpected extra arguments (" ++ " ".intercalate operands ++ ")"

/-- The error from outside that stands behind an error, where the user is not told but the program
breaks off. -/
def breakOff? : UsageError → Option HostError
  | invalid _ (.noPath error path) => some (error.onPath path)
  | _ => none

/-- Whether the message stands behind the usage of the command. Options with a value too few or too
many are reported by themselves. -/
def showsUsage : UsageError → Bool
  | option (.needsValue _) | option (.takesNoValue _) => false
  | _ => true

/-- Reports an error in the arguments of a command, or in those in front of any command. -/
def report (error : UsageError) (command : Option Command) : Report :=
  let (usage, call) := match command with
    | some command => (command.usage, command.call)
    | none => (CommandLine.usage, CommandLine.programName)
  let hint := [usage, "Try " ++ Text.quoted (call ++ " --help") ++ " for help.", ""]
  { exit := .arguments
    stderr := (if error.showsUsage then hint else []) ++ [say ("Error: " ++ error.message)] }

end UsageError

namespace Request

/-- An option in messages: all its names. -/
def parameter (command : Command) (setting : Setting) : String :=
  match command.switches.find? (·.setting = setting) with
  | some switch => " / ".intercalate (switch.names.map Text.quoted)
  | none => ""

/-- Names the parameter that a wrong value was given for. -/
def blame {α : Type} (parameter : String) : Except ValueError α → Except UsageError α
  | .ok value => .ok value
  | .error error => .error (.invalid parameter error)

/-- Puts the values of all options in, in order. -/
def settings (files : Files) (command : Command) (arguments : Arguments) :
    Except UsageError Settings :=
  arguments.settings.foldlM
    (fun settings setting =>
      blame (parameter command setting) (settings.set files setting (arguments.value setting)))
    (Settings.standard command)

/-- Checks the values, the operand and the defaults of a command. -/
def check (files : Files) (command : Command) (arguments : Arguments) :
    Except UsageError Request := do
  let settings ← settings files command arguments
  match arguments.operands with
  | [] => .error .missingRom
  | rom :: extra =>
    let rom ← blame (Text.quoted UsageError.romName) (Settings.checkRom files rom)
    if command = .record then
      let _ ← blame (parameter command .out) (Settings.checkOut files settings.out)
    if extra.isEmpty then .ok (.run command settings rom) else .error (.extra extra)

/-- Reads the arguments behind the name of a command. -/
def ofCommand (files : Files) (command : Command) (arguments : List String) :
    Except UsageError Request :=
  match Arguments.read command.switches true arguments with
  | .error error => .error (.option error)
  | .ok arguments =>
    if arguments.gives .help then .ok (.commandHelp command) else check files command arguments

/-- The first call for help or for the version. -/
def eager? (arguments : Arguments) : Option Request :=
  arguments.settings.findSome? fun
    | .help => some .programHelp
    | .version => some .version
    | _ => none

/-- A request, or an error with the command whose arguments it is in. -/
abbrev Answer := Except (Option Command × UsageError) Request

/-- What to make of a name that is no command's. It may be an option that stands behind two dashes;
then it is read as one after all. -/
def ofUnknown (operands : List String) : Answer :=
  match Arguments.read CommandLine.switches false operands with
  | .error error => .error (none, .option error)
  | .ok arguments =>
    match eager? arguments with
    | some request => .ok request
    | none => .error (none, .unknownCommand (operands.headD ""))

def ofArguments (files : Files) (arguments : List String) : Answer :=
  match Arguments.read CommandLine.switches false arguments with
  | .error error => .error (none, .option error)
  | .ok read =>
    match eager? read with
    | some request => .ok request
    | none =>
      match read.operands with
      | [] => .error (none, .missingCommand)
      | name :: rest =>
        match Command.ofName? name with
        | none => ofUnknown (name :: rest)
        | some command =>
          match ofCommand files command rest with
          | .ok request => .ok request
          | .error error => .error (some command, error)

/-- The paths that the arguments name: those are the only ones that matter to them. -/
def paths (arguments : List String) : List String :=
  match Arguments.read CommandLine.switches false arguments with
  | .ok { operands := name :: rest, .. } =>
    match Command.ofName? name with
    | some command =>
      match Arguments.read command.switches true rest with
      | .ok read =>
        let out := if read.gives .out then read.value .out else (Settings.standard command).out
        read.operands.take 1 ++ [out]
      | .error _ => []
    | none => []
  | _ => []

end Request

end ChipEight
