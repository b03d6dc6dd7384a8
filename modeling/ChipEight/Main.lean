import ChipEight.Animation.Encoding
import ChipEight.CommandLine.Plan
import ChipEight.Device.Noise

/-!
# The program

The outermost layer: it looks at the files that the arguments name, lets `Plan.ofArguments` decide what
is to be done, writes the file if there is one to write, and prints the report. There is no window
system here, so a program cannot be played.
-/

namespace ChipEight.Program

/-- The error of the file system that stands behind an exception. -/
def fileError : IO.Error → FileError
  | .noFileOrDirectory .. => .missing
  | .inappropriateType .. => .notDirectory
  | .invalidArgument .. => .nameTooLong
  | _ => .refused

/-- What there is at a path. -/
structure Sight where
  kind : FileKind
  writable : Bool
  bytes : Except FileError Rom

/-- Whether the file at a path may be written. It is opened for that, but nothing is written. -/
def mayWrite (path : String) : IO Bool := do
  try
    let _ ← IO.FS.Handle.mk path .readWrite
    return true
  catch _ => return false

def look (path : String) : IO (String × Option Sight) := do
  try
    let bytes ← IO.FS.readBinFile path
    return (path, some ⟨.file, ← mayWrite path, .ok bytes.toList⟩)
  catch
    | .noFileOrDirectory .. => return (path, none)
    | .permissionDenied .. => return (path, some ⟨.file, ← mayWrite path, .error .refused⟩)
    | _ => return (path, some ⟨.directory, false, .error .isDirectory⟩)

/-- What is known of the files that were looked at. -/
def known (seen : List (String × Option Sight)) : Files where
  kind path := ((seen.lookup path).join).map (·.kind)
  readable path := ((seen.lookup path).join).any (·.bytes.isOk)
  writable path := ((seen.lookup path).join).any (·.writable)
  read path :=
    match (seen.lookup path).join with
    | some sight => sight.bytes
    | none => .error .missing

/-- Opens a file, writes what goes into it, and says what went wrong, if anything did. -/
def write (path : String) (shots : Except Animation.Error (List Animation.Shot)) :
    IO (Option FileError) := do
  let bytes := match shots with
    | .ok shots => Animation.encode shots
    | .error _ => ByteArray.empty
  try
    let (_, found) ← look path
    IO.FS.writeBinFile path bytes
    if shots.isOk || found.isSome then return none
    IO.FS.removeFile path
    return none
  catch error => return some (fileError error)

/-- Prints a report and gives the exit code. -/
def print (report : Report) : IO UInt32 := do
  for line in report.stdout do IO.println line
  for line in report.stderr do IO.eprintln line
  return UInt32.ofNat report.exit.code

def run (arguments : List String) : IO UInt32 := do
  let seen ← (Request.paths arguments).mapM look
  let seed ← IO.getRandomBytes 8
  let surroundings : Surroundings :=
    { files := known seen
      random := Noise.byte (seed.toList.foldl (fun n b => n * 256 + b.toUInt64) 0)
      windowError := some "there is no window system" }
  match Plan.ofArguments surroundings arguments with
  | .brokenOff error =>
    IO.eprintln error.message
    return 1
  | .finished report _ => print report
  | .save path shots finish => print (finish (← write path shots))

end ChipEight.Program

def main (arguments : List String) : IO UInt32 := ChipEight.Program.run arguments
