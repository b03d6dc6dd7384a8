import ChipEight.CommandLine.Request
import ChipEight.Animation
import ChipEight.Console
import ChipEight.Desktop.Window

/-!
# Carrying out requests

`Plan.ofArguments` turns the arguments of the program into what is to be done. Everything is settled
there but one thing: whether a file can be opened for writing. A plan that has a file to write therefore
holds what goes into it and goes on with the answer of the file system.
-/

namespace ChipEight

/-- What the user does with an open window. -/
inductive UserAction
  | ticks (count : Nat)
  | keyPress (symbol : KeySymbol)
  | keyRelease (symbol : KeySymbol)
  deriving DecidableEq

/-- What a command finds around it. -/
structure Surroundings where
  files : Files
  random : Nat → Nat := fun _ => 0
  /-- Why no window can be opened, if none can be. -/
  windowError : Option String := none
  /-- What happens to a window until the user leaves it alone. -/
  actions : List UserAction := []

/-- What is left to be done. -/
inductive Plan
  /-- The program breaks off without a report. -/
  | brokenOff (error : HostError)
  /-- Nothing is left; `events` are the actions of a window if there was one. -/
  | finished (report : Report) (events : List Event)
  /-- A file is to be opened for writing, and `finish` reports whether that went well. Then the
  pictures are to be written; if they do not fit a file, a new file is to be removed again. -/
  | save (path : String) (shots : Except Animation.Error (List Animation.Shot))
      (finish : Option FileError → Report)

namespace Plan

/-- A plan with nothing left to do. -/
def done (report : Report) : Plan := .finished report []

/-! ## Recording -/

/-- The wiring of a console that records: the animation takes every frame, and nothing is heard. -/
def recorderWiring : Devices Animation Animation.Error where
  draw := Animation.draw

/-- What a recording console finds around it. Nobody presses a key, so it does not wait for one. -/
def recorderHost (settings : Settings) (random : Nat → Nat) : Host where
  dialect := settings.dialect
  random := random
  keyWait := some (.whole 0)

def stopProblem : Console.Stop Animation.Error → Problem
  | .trap trap => .emulation (.trap trap)
  | .abandoned error => .unexpected error.message
  | .display error => .unexpected error.message

/-- The report on a file that was to be opened for writing: `written` if it could be. -/
def openReport (settings : Settings) (log : List String) (written : Report) :
    Option FileError → Report
  | none => written.after log
  | some error =>
    (Problem.ofHostError (error.onPath settings.out)).report.after log

/-- The report on a file with a number of frames. -/
def savedReport (settings : Settings) (frames : Nat) (notices : List Notice) : Report where
  exit := .success
  stdout := [say (toString frames ++ " frames written to " ++ settings.out)]
  stderr := settings.threshold.lines notices

/-- What is to be done with recorded frames. -/
def keep (settings : Settings) (log : List String) (animation : Animation) : Plan :=
  match animation.save settings.out Animation.standardTime with
  | .error .noFrames =>
    .done
      { exit := .emulation
        stderr := log ++
          ["Error: nothing was drawn in " ++ toString settings.cycles ++ " cycles"] }
  | .error error =>
    .save settings.out (.error error)
      (openReport settings log (Problem.unexpected error.message).report)
  | .ok saved =>
    .save settings.out (.ok saved.value)
      (openReport settings log
        (savedReport settings animation.frames.size saved.notices))

/-- Runs a program without a window and records its frames. -/
def record (surroundings : Surroundings) (settings : Settings) (path : String) : Plan :=
  let console : Console Animation := .new { scale := settings.scale } {}
  let console := console.announce path
  let stopped (console : Console Animation) (problem : Problem) : Plan :=
    .done (problem.report.after (settings.threshold.lines console.log.toList))
  match surroundings.files.read path with
  | .error error => stopped console (.ofHostError (error.onPath path))
  | .ok rom =>
    match console.load rom with
    | .error failure => stopped console (.emulation failure)
    | .ok console =>
      let host := recorderHost settings surroundings.random
      match console.runCycles host recorderWiring settings.cycles with
      | (console, some stop) => stopped console (stopProblem stop)
      | (console, none) =>
        keep settings (settings.threshold.lines console.log.toList) console.devices

/-! ## Playing -/

def act (window : Window) : UserAction → Window
  | .keyPress symbol => window.keyPress symbol
  | .keyRelease symbol => window.keyRelease symbol
  | .ticks count => tickUntilClosed count window
where
  /-- Ticks, but no more once the window has closed. -/
  tickUntilClosed : Nat → Window → Window
    | 0, window => window
    | count + 1, window =>
      if window.closings > 0 then window else tickUntilClosed count window.tick

/-- The window after the user's actions, of which those that come after closing it do nothing. -/
def play (window : Window) (actions : List UserAction) : Window :=
  actions.foldl (fun window action => if window.closings > 0 then window else act window action)
    window

/-- The problem that keeps a window from opening. -/
def openProblem : Window.OpenError → Problem
  | .program failure => .emulation failure
  | error => .unexpected error.message

/-- How the window is opened that a file is played in. -/
def setup (surroundings : Surroundings) (settings : Settings) (path : String) : Window.Setup where
  dialect := settings.dialect
  random := surroundings.random
  scale := settings.scale
  ticksPerSecond := .whole settings.rate
  threshold := settings.threshold
  path := some path

/-- Plays a program in a window until the user leaves it. The window is there before the file is read. -/
def playInWindow (surroundings : Surroundings) (settings : Settings) (path : String) : Plan :=
  match surroundings.windowError with
  | some why => .done (Problem.unexpected why).report
  | none =>
    match surroundings.files.read path with
    | .error error =>
      let window := (Window.empty (setup surroundings settings path)).showNotices
      .finished ((Problem.ofHostError (error.onPath path)).report.after window.log.toList)
        window.events.toList
    | .ok rom =>
      let opening := Window.launch (setup surroundings settings path) rom
      match opening.result with
      | .error error =>
        .finished ((openProblem error).report.after opening.log.toList)
          opening.events.toList
      | .ok window =>
        let window := play window surroundings.actions
        let report : Report := match window.failure with
          | none => { exit := .success }
          | some trap => (Problem.emulation (.trap trap)).report
        .finished (report.after window.log.toList) window.events.toList

/-! ## All requests -/

/-- Carries out a request. -/
def ofRequest (surroundings : Surroundings) : Request → Plan
  | .version => .done { exit := .success, stdout := [CommandLine.versionLine] }
  | .programHelp => .done { exit := .success, stdout := CommandLine.help }
  | .commandHelp command => .done { exit := .success, stdout := command.help }
  | .run .record settings rom => record surroundings settings rom
  | .run .play settings rom => playInWindow surroundings settings rom

/-- Carries out the program's arguments. Without any, the help is shown in place of an error. -/
def ofArguments (surroundings : Surroundings) (arguments : List String) : Plan :=
  if arguments.isEmpty then .done { exit := .arguments, stderr := CommandLine.help }
  else
    match Request.ofArguments surroundings.files arguments with
    | .ok request => ofRequest surroundings request
    | .error (command, error) =>
      match error.breakOff? with
      | some cause => .brokenOff cause
      | none => .done (error.report command)

end Plan

end ChipEight
