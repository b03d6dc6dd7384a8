import ChipEight.Cycle

/-!
# Sessions

What the owner of a computer does with it: programs are loaded, keys are pressed and released, cycles
are made, the computer is reset, in any order and as often as wanted. A call that fails is a call
like any other, and the session goes on after it.

`Computer.call` is the effect of one call and `Computer.calls` that of a list of them. A computer is
`Reachable` if it is new or comes out of calls on a new one.
-/

namespace ChipEight

/-- A computer, and what it has used of its surroundings. -/
structure Computer where
  state : State
  usage : Usage
  deriving DecidableEq

/-- What the owner of a computer can ask for. -/
inductive Call
  | load (rom : Rom)
  | reset
  | pressKey (number : Int)
  | releaseKey (number : Int)
  | setKeys (numbers : List Int)
  /-- A cycle, in which the surroundings let the computer sleep at most `patience` times. -/
  | step (patience : Nat)
  deriving DecidableEq

namespace Computer

/-- A new computer in surroundings of which something may have been used before. -/
def new (usage : Usage) : Computer := ⟨State.initial, usage⟩

/-- The cycle that the computer would make now. -/
def cycle (host : Host) (computer : Computer) (patience : Nat) : Cycle :=
  computer.state.step host { computer.usage with patience := patience }

/-- The computer after a call. A program that is refused leaves it as it was. -/
def call (host : Host) (computer : Computer) : Call → Computer
  | .load rom =>
    match computer.state.load rom with
    | .ok loaded => { computer with state := loaded.value }
    | .error _ => computer
  | .reset => { computer with state := computer.state.reset.value }
  | .pressKey number => { computer with state := computer.state.pressKey number }
  | .releaseKey number => { computer with state := computer.state.releaseKey number }
  | .setKeys numbers => { computer with state := computer.state.setKeys numbers }
  | .step patience =>
    ⟨(computer.cycle host patience).state, (computer.cycle host patience).usage⟩

/-- The computer after calls, the first one first. -/
def calls (host : Host) (computer : Computer) (requests : List Call) : Computer :=
  requests.foldl (call host) computer

/-- How the cycle of a call ends, if it makes one. -/
def outcome? (host : Host) (computer : Computer) : Call → Option Outcome
  | .step patience => some (computer.cycle host patience).outcome
  | _ => none

/-- How the cycles among calls end, the first one first. -/
def outcomes (host : Host) (computer : Computer) : List Call → List Outcome
  | [] => []
  | request :: rest =>
    (computer.outcome? host request).toList ++ (computer.call host request).outcomes host rest

/-- The computer comes out of calls on a new one. -/
def Reachable (host : Host) (computer : Computer) : Prop :=
  ∃ usage requests, (new usage).calls host requests = computer

variable {host : Host} {computer : Computer}

@[simp] theorem new_state (usage : Usage) : (new usage).state = State.initial := rfl

@[simp] theorem new_usage (usage : Usage) : (new usage).usage = usage := rfl

@[simp] theorem calls_nil : computer.calls host [] = computer := rfl

@[simp] theorem calls_cons (request : Call) (rest : List Call) :
    computer.calls host (request :: rest) = (computer.call host request).calls host rest := rfl

theorem calls_append (first second : List Call) :
    computer.calls host (first ++ second) = (computer.calls host first).calls host second :=
  List.foldl_append

/-- What holds of a computer and is kept by the calls that are made holds after all of them. -/
theorem calls_induction {P : Computer → Prop} (allowed : Call → Prop)
    (hkeep : ∀ computer request, allowed request → P computer → P (computer.call host request))
    {requests : List Call} (hall : ∀ request ∈ requests, allowed request) (h : P computer) :
    P (computer.calls host requests) := by
  induction requests generalizing computer with
  | nil => exact h
  | cons request rest ih =>
      rw [calls_cons]
      have hfirst := hkeep computer request (hall request (by simp)) h
      exact ih (fun r hr => hall r (by simp [hr])) hfirst

/-- What holds of every new computer and is kept by every call holds of every reachable one. -/
theorem Reachable.induction {P : Computer → Prop} (hnew : ∀ usage, P (new usage))
    (hkeep : ∀ computer request, P computer → P (computer.call host request))
    (h : Reachable host computer) : P computer := by
  obtain ⟨usage, requests, rfl⟩ := h
  exact calls_induction (fun _ => True) (fun c r _ => hkeep c r) (by simp) (hnew usage)

theorem Reachable.calls (h : Reachable host computer) (requests : List Call) :
    Reachable host (computer.calls host requests) := by
  obtain ⟨usage, before, rfl⟩ := h
  exact ⟨usage, before ++ requests, calls_append before requests⟩

end Computer

end ChipEight
