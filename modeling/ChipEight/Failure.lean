import ChipEight.Number.Quantity
import ChipEight.Text.Hex
import ChipEight.Text.Quoted

/-!
# Failures

What can go wrong, as causes, and the message of each cause. A `Trap` is an instruction that cannot
be carried out; a `Failure` is any error of the emulator's own; a `HostError` is an error that comes
from outside of it, of which only the kind and the arguments are known.
-/

namespace ChipEight

/-! ## Traps -/

/-- An instruction that cannot be carried out. Every cause knows the instruction word and the address
it was fetched from. -/
inductive Trap
  | general (reason : String) (opcode address : Int)
  | unimplemented (opcode address : Int)
  | stackOverflow (opcode address : Int)
  | stackUnderflow (opcode address : Int)
  /-- A step was asked for after the trap `cause`. -/
  | halted (cause : Trap)
  deriving DecidableEq, Inhabited

namespace Trap

def opcode : Trap → Int
  | general _ w _ | unimplemented w _ | stackOverflow w _ | stackUnderflow w _ => w
  | halted cause => cause.opcode

def address : Trap → Int
  | general _ _ a | unimplemented _ a | stackOverflow _ a | stackUnderflow _ a => a
  | halted cause => cause.address

/-- The reason that is given where no other one is known. -/
def generalReason : String := "cannot execute"

/-- What is wrong, in words. -/
def reason : Trap → String
  | general why _ _ => why
  | unimplemented _ _ => "unimplemented instruction"
  | stackOverflow _ _ => "stack overflow on CALL"
  | stackUnderflow _ _ => "stack underflow on RET"
  | halted _ => "machine halted"

/-- The message: the reason, the instruction word and its address. -/
def message (trap : Trap) : String :=
  trap.reason ++ ": opcode " ++ Text.hex 4 trap.opcode ++ " at " ++ Text.hex 3 trap.address

end Trap

/-! ## Arguments of an error -/

/-- A value that an error carries without saying what it means. -/
inductive Argument
  | nothing
  | flag (value : Bool)
  | number (value : Int)
  | measured (value : Binary64)
  | text (value : String)
  | list (values : List Argument)
  /-- Values by name, in order. -/
  | record (names : List String) (values : List Argument)
  deriving Inhabited

namespace Argument

/-- The value with texts in quotes. -/
def quoted : Argument → String
  | nothing => "None"
  | flag value => if value then "True" else "False"
  | number value => toString value
  | measured value => Shortest.text value
  | text value => Text.quoted value
  | list values => "[" ++ ", ".intercalate (values.map quoted) ++ "]"
  | record names values =>
    "\x7b" ++
      ", ".intercalate
        ((names.map Text.quoted).zipWith (fun name value => name ++ ": " ++ value)
          (values.map quoted)) ++ "\x7d"

/-- The whole number that a value stands for, if it stands for one. -/
def whole? : Argument → Option Int
  | number value => some value
  | flag value => some (if value then 1 else 0)
  | _ => none

/-- Whether a value is a number of any sort. -/
def isNumber : Argument → Bool
  | number _ | flag _ | measured _ => true
  | _ => false

/-- The value with a text as it is. -/
def plain : Argument → String
  | text value => value
  | other => other.quoted

/-- The message that arguments make: nothing, the one argument itself, or all of them in brackets. -/
def message : List Argument → String
  | [] => ""
  | [only] => only.plain
  | several => "(" ++ ", ".intercalate (several.map quoted) ++ ")"

end Argument

/-! ## Failures of the emulator -/

/-- An error of the emulator's own. -/
inductive Failure
  | plain (arguments : List Argument)
  /-- A program of `size` bytes where at most `capacity` fit. -/
  | oversized (size capacity : Int)
  | trap (trap : Trap)

namespace Failure

def message : Failure → String
  | plain arguments => Argument.message arguments
  | oversized size capacity =>
    "ROM is " ++ toString size ++ " bytes, program memory holds at most " ++ toString capacity
  | trap t => t.message

end Failure

/-! ## Errors from outside -/

/-- The kinds of error that come from outside of the emulator. -/
inductive HostError.Kind
  | missingFile
  | permission
  | notDirectory
  | system
  | value
  | state
  | key
  deriving DecidableEq

/-- An error from outside of the emulator. -/
structure HostError where
  kind : HostError.Kind
  arguments : List Argument

namespace HostError

/-- Whether errors of a kind carry the error number of the operating system. -/
def Kind.isSystem : Kind → Bool
  | missingFile | permission | notDirectory | system => true
  | value | state | key => false

/-- What an error of the operating system says: its number and text, and the files it is about. -/
structure SystemReport where
  number : Argument
  text : Argument
  file : Option Argument := none
  other : Option Argument := none

/-- The argument at a place, where nothing counts as none. -/
def argument? (arguments : List Argument) (i : Nat) : Option Argument :=
  match arguments[i]? with
  | some .nothing => none
  | found => found

/-- What the arguments of a system error say, if it has a number, a text and at most three more. The
last but one of five says nothing here. -/
def SystemReport.ofArguments? (arguments : List Argument) : Option SystemReport :=
  match arguments with
  | number :: text :: more =>
    if more.length ≤ 3 then some ⟨number, text, argument? more 0, argument? more 2⟩ else none
  | _ => none

/-- The numbers of the errors that say that an operation would have to wait. What stands in the place
of a file may be a count of bytes there. -/
def waitNumbers : List Int := [11, 114, 115]

/-- The count of bytes in the place of a file, if there is one. -/
def SystemReport.count? (report : SystemReport) : Option Argument :=
  if report.number.whole?.any waitNumbers.contains then report.file.filter Argument.isNumber
  else none

/-- Why a number cannot be a count of bytes. -/
inductive CountError
  | notWhole
  /-- The count does not fit 64 bits with a sign. -/
  | tooLarge
  deriving DecidableEq

def CountError.message : CountError → String
  | notWhole => "'float' object cannot be interpreted as an integer"
  | tooLarge => "cannot fit 'int' into an index-sized integer"

def checkCount (count : Argument) : Except CountError Unit :=
  match count.whole? with
  | none => .error .notWhole
  | some value =>
    if -0x8000000000000000 ≤ value ∧ value < 0x8000000000000000 then .ok () else .error .tooLarge

/-- An error of a kind with some arguments. A count of bytes among them has to be one. -/
def ofArguments (kind : Kind) (arguments : List Argument) : Except CountError HostError :=
  let count := if kind = .system then
      (SystemReport.ofArguments? arguments).bind SystemReport.count?
    else none
  match count with
  | none => .ok ⟨kind, arguments⟩
  | some count => (checkCount count).map fun _ => ⟨kind, arguments⟩

/-- What a system error says, if it is one. -/
def report? (error : HostError) : Option SystemReport :=
  if error.kind.isSystem then
    (SystemReport.ofArguments? error.arguments).map fun report =>
      if error.kind = .system && report.count?.isSome then { report with file := none } else report
  else
    none

/-- The message of a system error: its number and text, the file's name if there is one, and the
other file's name if there are two. -/
def SystemReport.message (report : SystemReport) : String :=
  "[Errno " ++ report.number.plain ++ "] " ++ report.text.plain ++
    match report.file, report.other with
    | none, _ => ""
    | some file, none => ": " ++ file.quoted
    | some file, some other => ": " ++ file.quoted ++ " -> " ++ other.quoted

/-- The message of an error. A key error quotes its one argument. -/
def message (error : HostError) : String :=
  match error.report? with
  | some report => report.message
  | none =>
    match error.kind, error.arguments with
    | .key, [only] => only.quoted
    | _, arguments => Argument.message arguments

/-- The numbers of the errors that say that a file is missing or that access to it is refused. -/
def accessNumbers : List Int := [1, 2, 13]

/-- Whether a file was missing or access to it was refused. An error that says no more than that it
is a system error is known by its number. -/
def isAccess (error : HostError) : Bool :=
  match error.kind with
  | .missingFile | .permission => true
  | .system =>
    (error.report?.bind fun report => report.number.whole?).any accessNumbers.contains
  | _ => false

end HostError

end ChipEight
