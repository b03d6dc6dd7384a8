import ChipEight.Failure
import ChipEight.Text.Control

/-!
# What a command leaves behind

A command ends with an exit code and the lines it wrote. A problem that a command meets is reported in
one of three ways, by whose fault it is: the program's that is emulated, the user's, or nobody's.
-/

namespace ChipEight

/-- How a command ends. -/
inductive Exit
  | success
  /-- The program does not fit or failed, or it drew nothing. -/
  | emulation
  /-- The arguments are wrong or a file is missing. -/
  | arguments
  /-- Something unexpected happened. -/
  | internal
  deriving DecidableEq

def Exit.code : Exit → Nat
  | success => 0
  | emulation => 1
  | arguments => 2
  | internal => 3

/-- What a command leaves behind: its exit code and the texts that it wrote, each with a line feed
behind it. -/
structure Report where
  exit : Exit
  stdout : List String := []
  stderr : List String := []
  deriving DecidableEq

namespace Report

/-- The report with more texts in front of its errors. -/
def after (report : Report) (texts : List String) : Report :=
  { report with stderr := texts ++ report.stderr }

end Report

/-- A message to the user, which must not steer the terminal. -/
def say (message : String) : String := Text.withoutControls message

/-- A problem that a command meets. -/
inductive Problem
  /-- The emulated program is at fault. -/
  | emulation (failure : Failure)
  /-- A file is missing or may not be used. -/
  | access (message : String)
  | unexpected (message : String)

namespace Problem

/-- The problem that an error from outside makes. -/
def ofHostError (error : HostError) : Problem :=
  if error.isAccess then .access error.message else .unexpected error.message

def report : Problem → Report
  | emulation failure => { exit := .emulation, stderr := [say ("Error: " ++ failure.message)] }
  | access message => { exit := .arguments, stderr := [say ("Error: " ++ message)] }
  | unexpected message => { exit := .internal, stderr := [say ("Internal error: " ++ message)] }

/-- The line that stands for the place of an error where that is not known. -/
def noPlace : String := "NoneType: None"

/-- Reports a problem of unknown place to a user who wants to know the places of unexpected ones. -/
def verboseReport (problem : Problem) : Report :=
  match problem with
  | unexpected _ => { problem.report with stderr := problem.report.stderr ++ [noPlace] }
  | _ => problem.report

end Problem

end ChipEight
