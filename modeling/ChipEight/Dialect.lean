/-!
# Dialects

CHIP-8 interpreters disagree about two details; a `Dialect` fixes both.
-/

namespace ChipEight

/-- The choices on which interpreters differ. -/
structure Dialect where
  /-- Storing or loading registers leaves the index just past the last byte moved. -/
  loadStoreMovesIndex : Bool := false
  /-- Adding to the index reports in VF whether the sum ran past the top of memory. -/
  indexOverflowFlag : Bool := true
  deriving DecidableEq

namespace Dialect

/-- The dialect of present-day interpreters. -/
def standard : Dialect := {}

/-- A truth value as the settings' text spells it. -/
def flagText (flag : Bool) : String := if flag then "True" else "False"

def text (dialect : Dialect) : String :=
  "Quirks(load_store_increments_index=" ++ flagText dialect.loadStoreMovesIndex ++
    ", index_overflow_flag=" ++ flagText dialect.indexOverflowFlag ++ ")"

end Dialect

end ChipEight
