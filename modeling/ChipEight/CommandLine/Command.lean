import ChipEight.CommandLine.Arguments

/-!
# The commands

The program has two commands: one records the frames of a program to a file, the other one plays a
program in a window. This module holds their options, their usage lines and their help.
-/

namespace ChipEight

/-- What the program can do. -/
inductive Command
  | record
  | play
  deriving DecidableEq

namespace CommandLine

def programName : String := "chip8emu"

def version : String := "0.1.0"

def versionLine : String := programName ++ ", version " ++ version

def helpSwitch : Switch := { setting := .help, long := "--help" }

def switches : List Switch := [{ setting := .version, long := "--version" }, helpSwitch]

def usage : String := "Usage: " ++ programName ++ " [OPTIONS] COMMAND [ARGS]..."

def help : List String :=
  [ usage,
    "",
    "  CHIP-8 emulator.",
    "",
    "Options:",
    "  --version  Show the version and exit.",
    "  --help     Show this message and exit.",
    "",
    "Commands:",
    "  record  Run ROM without a window and save every frame to a GIF.",
    "  run     Play ROM in a window." ]

end CommandLine

namespace Command

def name : Command → String
  | record => "record"
  | play => "run"

def ofName? (name : String) : Option Command := [record, play].find? (·.name = name)

/-- What is typed to call a command. -/
def call (command : Command) : String := CommandLine.programName ++ " " ++ command.name

def usage (command : Command) : String := "Usage: " ++ command.call ++ " [OPTIONS] ROM"

def commonSwitches : List Switch :=
  [ { setting := .scale, long := "--scale", takesValue := true },
    { setting := .legacyLoadStore, long := "--legacy-load-store" },
    { setting := .noIndexOverflow, long := "--no-index-overflow" },
    { setting := .verbose, letter := 'v', long := "--verbose" },
    CommandLine.helpSwitch ]

def switches : Command → List Switch
  | record =>
    [ { setting := .cycles, letter := 'n', long := "--cycles", takesValue := true },
      { setting := .out, letter := 'o', long := "--out", takesValue := true } ] ++ commonSwitches
  | play => { setting := .rate, long := "--hz", takesValue := true } :: commonSwitches

def help (command : Command) : List String :=
  match command with
  | record =>
    [ command.usage,
      "",
      "  Run ROM without a window and save every frame to a GIF.",
      "",
      "Options:",
      "  -n, --cycles INTEGER RANGE  Number of cycles to run.  [default: 1000; x>=1]",
      "  -o, --out FILE              GIF file to write.  [default: out.gif]",
      "  --scale INTEGER RANGE       [default: 4; 1<=x<=40]",
      "  --legacy-load-store",
      "  --no-index-overflow",
      "  -v, --verbose",
      "  --help                      Show this message and exit." ]
  | play =>
    [ command.usage,
      "",
      "  Play ROM in a window.",
      "",
      "Options:",
      "  --scale INTEGER RANGE  Window pixels per CHIP-8 pixel.  [default: 10;",
      "                         1<=x<=40]",
      "  --hz INTEGER RANGE     Instructions per second.  [default: 500; x>=1]",
      "  --legacy-load-store    Fx55/Fx65 advance I past the copied registers (COSMAC",
      "                         VIP behaviour).",
      "  --no-index-overflow    Fx1E leaves VF untouched.",
      "  -v, --verbose          Debug logging.",
      "  --help                 Show this message and exit." ]

end Command

end ChipEight
