/-!
# Keys held down by hand

A keyboard whose keys are pressed and released by calls. It reports the keys that are down, each once
and in ascending order. Keys are arbitrary integers here; what they mean is up to the reader of the
report.
-/

namespace ChipEight

/-- The keys that are held down, in ascending order. -/
structure HeldKeys where
  keys : List Int := []
  deriving DecidableEq

namespace HeldKeys

/-- A key put into an ascending list, once. -/
def insertKey (key : Int) : List Int → List Int
  | [] => [key]
  | k :: rest =>
    if key < k then key :: k :: rest
    else if key = k then k :: rest
    else k :: insertKey key rest

/-- Presses a key; a key that is down already stays down. -/
def press (held : HeldKeys) (key : Int) : HeldKeys := ⟨insertKey key held.keys⟩

/-- Releases a key; a key that is up already stays up. -/
def release (held : HeldKeys) (key : Int) : HeldKeys := ⟨held.keys.filter (· != key)⟩

def ofList (keys : List Int) : HeldKeys := keys.foldl press {}

def report (held : HeldKeys) : List Int := held.keys

end HeldKeys

end ChipEight
