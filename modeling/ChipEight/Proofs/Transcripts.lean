import ChipEight.Console
import ChipEight.Proofs.Programs

/-!
# Transcripts of consoles

The owner of a console loads programs and asks for cycles, one or many at a time. Reaching past the
console, he can make any call on the computer in it, or change its state at will. All these are a
`Console.Request`.

With a transcribed wiring (`Devices.transcribed`) a console also writes down everything that it tells
its devices. It does nothing else than before (`Console.requests_transcribed`), so what is proved of the
transcript holds of the devices. One cycle of such a console is a `Console.Turn`: it fails and tells
nothing, or the display refuses the frame, or the screen and the tone are both presented.
-/

namespace ChipEight

/-! ## Requests

A request may fail, and the console is as it was then but for what the failing cycle has left
behind. Programs that do not fit are refused without a trace, so loading and refusing are one
function here. -/

namespace Computer

/-- The computer in surroundings that let it sleep at most `patience` times. -/
def ready (computer : Computer) (patience : Nat) : Computer :=
  { computer with usage := { computer.usage with patience := patience } }

end Computer

namespace Console

variable {δ ε : Type}

/-- What the owner of a console can ask for. -/
inductive Request
  /-- A program at hand. -/
  | load (rom : Rom)
  /-- A program in a file, with what the file holds, if it can be read. -/
  | loadFile (path : String) (content : Option Rom)
  | runOnce (patience : Nat)
  /-- A run of cycles, which have their patience together. -/
  | runCycles (limit : Int) (patience : Nat)
  /-- A call on the computer in the console. -/
  | direct (call : Call)
  /-- A change of the computer's state. -/
  | rewrite (change : State → State)

/-- Whether a request leaves it to the console to make cycles, and does not reset the computer or
change its state. -/
def Request.ThroughConsole : Request → Prop
  | .load _ | .loadFile _ _ | .runOnce _ | .runCycles _ _ => True
  | .direct call => call ≠ .reset ∧ ∀ patience, call ≠ .step patience
  | .rewrite _ => False

/-- The computer in the console. -/
def computer (console : Console δ) : Computer := ⟨console.state, console.usage⟩

/-- The console with another computer in it. -/
def withComputer (console : Console δ) (computer : Computer) : Console δ :=
  { console with state := computer.state, usage := computer.usage }

/-- The console in surroundings that let it sleep at most `patience` times. -/
def ready (console : Console δ) (patience : Nat) : Console δ :=
  console.withComputer (console.computer.ready patience)

/-- The console with a program loaded, or as it was if the program is refused. -/
def loadIfFits (console : Console δ) (rom : Rom) : Console δ :=
  match console.load rom with
  | .ok loaded => loaded
  | .error _ => console

/-- The console after a request, whether it fails or not. -/
def request (host : Host) (wiring : Devices δ ε) (console : Console δ) : Request → Console δ
  | .load rom => console.loadIfFits rom
  | .loadFile path content =>
    match content with
    | some rom => (console.announce path).loadIfFits rom
    | none => console.announce path
  | .runOnce patience => ((console.ready patience).runOnce host wiring).1
  | .runCycles limit patience => ((console.ready patience).runCycles host wiring limit).1
  | .direct call => console.withComputer (console.computer.call host call)
  | .rewrite change => { console with state := change console.state }

/-- The console after requests, the first one first. -/
def requests (host : Host) (wiring : Devices δ ε) (console : Console δ) (asked : List Request) :
    Console δ :=
  asked.foldl (request host wiring) console

theorem loadIfFits_eq (console : Console δ) (rom : Rom) :
    console.loadIfFits rom =
      if rom.length ≤ Memory.programCapacity then
        { console with
          state := (console.state.install rom).value
          log := console.log ++ (console.state.install rom).notices.toArray }
      else console := by
  split
  · next hfits => rw [loadIfFits, load, State.load_of_le hfits]
  · next htoo => rw [loadIfFits, load, State.load_of_lt (Nat.lt_of_not_le htoo)]

theorem load_of_le (console : Console δ) {rom : Rom} (h : rom.length ≤ Memory.programCapacity) :
    console.load rom = .ok (console.loadIfFits rom) := by
  rw [loadIfFits, load, State.load_of_le h]

theorem load_of_lt (console : Console δ) {rom : Rom} (h : Memory.programCapacity < rom.length) :
    console.load rom = .error (.oversized rom.length Memory.programCapacity) := by
  rw [load, State.load_of_lt h]

/-- A program changes neither the devices nor the tone. -/
theorem loadIfFits_keeps (console : Console δ) (rom : Rom) :
    let after := console.loadIfFits rom
    after.devices = console.devices ∧ after.playing = console.playing ∧
      after.state.beeping = console.state.beeping := by
  rw [loadIfFits_eq]
  split <;> exact ⟨rfl, rfl, rfl⟩

theorem computer_loadIfFits (host : Host) (console : Console δ) (rom : Rom) :
    (console.loadIfFits rom).computer = console.computer.call host (.load rom) := by
  rw [loadIfFits_eq]
  split
  · next hfits =>
    rw [Computer.call_load_of_le hfits]
    rfl
  · next htoo => rw [Computer.call_load_of_lt (Nat.lt_of_not_le htoo)]

/-! ## One cycle

The console makes the cycle of its computer, hands the screen to the display if it was redrawn, and
tells the speaker what is due. It stops at the first of these that fails, and the cases of `Turn`
are the places where it can. -/

/-- The cycle that the console would make now. -/
def cycle (host : Host) (console : Console δ) : Cycle := console.state.step host console.usage

/-- The console after its cycle, of which its devices do not know yet. -/
def cycled (host : Host) (console : Console δ) : Console δ :=
  { console with
    state := (console.cycle host).state
    usage := (console.cycle host).usage
    log := console.log ++ (console.cycle host).notices.toArray }

end Console

/-- Why a console stops after a cycle, if the cycle is the reason. -/
def Outcome.stop? {ε : Type} : Outcome → Option (Console.Stop ε)
  | completed | stalled => none
  | trapped trap => some (.trap trap)
  | refused cause => some (.trap (.halted cause))
  | abandoned error => some (.abandoned error)

theorem Outcome.stop?_eq_none_iff {ε : Type} {outcome : Outcome} :
    (outcome.stop? : Option (Console.Stop ε)) = none ↔ outcome.goesOn = true := by
  cases outcome <;> simp [stop?, goesOn]

theorem Outcome.goesOn_of_stop? {ε : Type} {outcome : Outcome} {reason : Console.Stop ε}
    (h : outcome.stop? = some reason) : outcome.goesOn = false := by
  cases outcome with
  | completed => cases h
  | stalled => cases h
  | _ => rfl

/-- Hands the screen to the display if the last cycle changed it. -/
def Devices.hand {δ ε : Type} (wiring : Devices δ ε) (devices : δ) (state : State) : δ × Option ε :=
  if state.redrawn then wiring.draw devices state.screen.frame else (devices, none)

/-- The display accepts every frame. -/
def Devices.AcceptsAll {δ ε : Type} (wiring : Devices δ ε) : Prop :=
  ∀ devices rows, (wiring.draw devices rows).2 = none

/-- What a speaker has to be told that plays or does not play, for the tone to sound or not. -/
def Signal.due (playing beeping : Bool) : Option Signal :=
  match playing, beeping with
  | false, true => some .start
  | true, false => some .stop
  | _, _ => none

theorem Devices.AcceptsAll.hand {δ ε : Type} {wiring : Devices δ ε} (h : wiring.AcceptsAll)
    (devices : δ) (state : State) : (wiring.hand devices state).2 = none := by
  unfold Devices.hand
  split
  · exact h devices state.screen.frame
  · rfl

namespace Console

variable {δ ε : Type} {host : Host} {wiring : Devices δ ε}

theorem computer_updateSpeaker (console : Console δ) :
    (updateSpeaker wiring console).computer = console.computer := by
  unfold updateSpeaker
  split <;> rfl

theorem state_updateSpeaker (console : Console δ) :
    (updateSpeaker wiring console).state = console.state :=
  congrArg Computer.state (computer_updateSpeaker console)

theorem present_eq (console : Console δ) :
    present wiring console =
      match wiring.hand console.devices console.state with
      | (devices, none) => (updateSpeaker wiring { console with devices := devices }, none)
      | (devices, some error) => ({ console with devices := devices }, some (.display error)) := by
  obtain ⟨state, usage, devices, playing, log⟩ := console
  simp only [present, Devices.hand]
  split <;> rfl

/-- What a cycle of a console can be, with what is left of the console and why it stops. -/
inductive Turn (host : Host) (wiring : Devices δ ε) (console : Console δ) :
    Console δ × Option (Stop ε) → Prop
  | failed {reason : Stop ε} (stops : (console.cycle host).outcome.stop? = some reason) :
      Turn host wiring console (console.cycled host, some reason)
  | refused {devices : δ} {error : ε}
      (goes_on : (console.cycle host).outcome.goesOn = true)
      (refuses : wiring.hand console.devices (console.cycle host).state = (devices, some error)) :
      Turn host wiring console
        ({ console.cycled host with devices := devices }, some (.display error))
  | presented {devices : δ}
      (goes_on : (console.cycle host).outcome.goesOn = true)
      (accepts : wiring.hand console.devices (console.cycle host).state = (devices, none)) :
      Turn host wiring console
        (updateSpeaker wiring { console.cycled host with devices := devices }, none)

theorem runOnce_eq (console : Console δ) :
    console.runOnce host wiring =
      match ((console.cycle host).outcome.stop? : Option (Stop ε)) with
      | none => present wiring (console.cycled host)
      | some reason => (console.cycled host, some reason) := by
  simp only [runOnce, cycled, cycle]
  cases (console.state.step host console.usage).outcome <;> rfl

/-- A cycle whose frame the display accepts stops the console only if it fails. -/
theorem runOnce_of_hand {console : Console δ} {devices : δ}
    (h : wiring.hand console.devices (console.cycle host).state = (devices, none)) :
    console.runOnce host wiring =
      match ((console.cycle host).outcome.stop? : Option (Stop ε)) with
      | none => (updateSpeaker wiring { console.cycled host with devices := devices }, none)
      | some reason => (console.cycled host, some reason) := by
  have hcycled : wiring.hand (console.cycled host).devices (console.cycled host).state =
    (devices, none) := h
  rw [runOnce_eq, present_eq, hcycled]

theorem turn_runOnce (host : Host) (wiring : Devices δ ε) (console : Console δ) :
    Turn host wiring console (console.runOnce host wiring) := by
  rw [runOnce_eq]
  cases hstop : ((console.cycle host).outcome.stop? : Option (Stop ε)) with
  | some reason => exact .failed hstop
  | none =>
      have hgoes := Outcome.stop?_eq_none_iff.mp hstop
      dsimp only
      rw [present_eq]
      cases hhand : wiring.hand console.devices (console.cycle host).state with
      | mk devices refusal =>
          have hhand' : wiring.hand (console.cycled host).devices (console.cycled host).state =
            (devices, refusal) := hhand
          rw [hhand']
          cases refusal with
          | none => exact .presented hgoes hhand
          | some error => exact .refused hgoes hhand

theorem fst_runTimes_one (console : Console δ) :
    (runTimes host wiring 1 console).1 = (console.runOnce host wiring).1 := by
  rw [runTimes]
  split
  · next after hafter => rw [hafter]; rfl
  · rfl

/-- A run that is not stopped goes on where it has come to, and one that is stopped stays so. -/
theorem runTimes_add (first second : Nat) (console : Console δ) :
    runTimes host wiring (first + second) console =
      match runTimes host wiring first console with
      | (after, none) => runTimes host wiring second after
      | stopped => stopped := by
  induction first generalizing console with
  -- Nothing was done that could have stopped it.
  | zero => rw [Nat.zero_add]; rfl
  | succ first ih =>
      rw [Nat.succ_add, runTimes, runTimes]
      cases runOnce host wiring console with
      | mk after stop =>
          cases stop with
          | none => exact ih after
          | some reason => rfl

/-- What every cycle of a console keeps is kept by a run of them. -/
theorem runTimes_induction {P : Console δ → Prop}
    (hkeep : ∀ console : Console δ, P console → P (console.runOnce host wiring).1) (count : Nat)
    {console : Console δ} (h : P console) : P (runTimes host wiring count console).1 := by
  induction count generalizing console with
  | zero => exact h
  | succ count ih =>
      have hfirst := hkeep console h
      rw [runTimes]
      split
      · next after hafter =>
        rw [hafter] at hfirst
        exact ih hfirst
      · exact hfirst

end Console

/-! ## Transcripts

The transcript is kept in the devices, next to their own state, so a transcribed console is a
console like any other. Forgetting the transcript commutes with everything a console does. -/

/-- What a console tells its devices. -/
inductive Message
  | frame (rows : List Nat)
  | signal (tone : Signal)

namespace Message

def frame? : Message → Option (List Nat)
  | .frame rows => some rows
  | .signal _ => none

def signal? : Message → Option Signal
  | .frame _ => none
  | .signal tone => some tone

end Message

/-- The same devices, which also keep a transcript of all they are told. A frame is in it even if the
display refuses it. -/
def Devices.transcribed {δ ε : Type} (wiring : Devices δ ε) : Devices (δ × List Message) ε where
  draw := fun (devices, told) rows =>
    ((wiring.draw devices rows).map (·, told ++ [.frame rows]) id)
  signal := wiring.signal.map fun signal (devices, told) tone =>
    (signal devices tone, told ++ [.signal tone])

namespace Console

variable {δ ε : Type} {host : Host} {wiring : Devices δ ε}

/-- What the devices of the console have been told. -/
def told (console : Console (δ × List Message)) : List Message := console.devices.2

/-- The frames that the display has been handed. -/
def frames (console : Console (δ × List Message)) : List (List Nat) :=
  console.told.filterMap Message.frame?

/-- The signals that the speaker has been given. -/
def signals (console : Console (δ × List Message)) : List Signal :=
  console.told.filterMap Message.signal?

/-- The console without its transcript. -/
def forget (console : Console (δ × List Message)) : Console δ :=
  { console with devices := console.devices.1 }

/-! ### What is told

Handing over the screen adds one message if it was redrawn, and the speaker one message if a signal
is due. -/

theorem hand_transcribed (wiring : Devices δ ε) (devices : δ) (told : List Message) (state : State) :
    wiring.transcribed.hand (devices, told) state =
      (wiring.hand devices state).map
        (·, told ++ (if state.redrawn then [.frame state.screen.frame] else [])) id := by
  unfold Devices.hand
  split
  · rfl
  · simp

theorem told_of_hand {before after : δ × List Message} {state : State} {refusal : Option ε}
    (h : wiring.transcribed.hand before state = (after, refusal)) :
    after.2 = before.2 ++ (if state.redrawn then [.frame state.screen.frame] else []) := by
  rw [hand_transcribed] at h
  exact (congrArg (·.1.2) h).symm

/-- The display of a transcribed console accepts what it accepts without the transcript. -/
theorem acceptsAll_transcribed (h : wiring.AcceptsAll) : wiring.transcribed.AcceptsAll :=
  fun devices rows => h devices.1 rows

/-- A speaker is told what is due, and nothing is told if there is none. -/
theorem told_updateSpeaker (wiring : Devices δ ε) (console : Console (δ × List Message)) :
    (updateSpeaker wiring.transcribed console).told = console.told ++
      (if wiring.signal.isSome then
        (Signal.due console.playing console.state.beeping).toList.map .signal
      else []) := by
  obtain ⟨draw, signal⟩ := wiring
  obtain ⟨state, usage, ⟨devices, told⟩, playing, log⟩ := console
  cases signal with
  | none => exact (List.append_nil told).symm
  | some signal =>
      cases playing <;> cases hbeeping : state.beeping <;>
        simp [updateSpeaker, Devices.transcribed, Console.told, Signal.due, hbeeping]

/-! ### Nothing else changes

From the speaker up to whole lists of requests, each layer by the one below it. -/

theorem updateSpeaker_transcribed (wiring : Devices δ ε) (console : Console (δ × List Message)) :
    (updateSpeaker wiring.transcribed console).forget = updateSpeaker wiring console.forget := by
  obtain ⟨draw, signal⟩ := wiring
  obtain ⟨state, usage, devices, playing, log⟩ := console
  cases signal with
  | none => rfl
  | some signal =>
      -- The transcript gets longer, and what is left without it is the same.
      cases playing <;> cases hbeeping : state.beeping <;>
        simp [updateSpeaker, Devices.transcribed, forget, hbeeping]

theorem present_transcribed (wiring : Devices δ ε) (console : Console (δ × List Message)) :
    (present wiring.transcribed console).map forget id = present wiring console.forget := by
  have hhand := hand_transcribed wiring console.devices.1 console.devices.2 console.state
  have hforget : wiring.hand console.forget.devices console.forget.state =
    wiring.hand console.devices.1 console.state := rfl
  rw [present_eq, present_eq, hhand, hforget]
  cases wiring.hand console.devices.1 console.state with
  | mk devices refusal =>
      cases refusal with
      | none => exact congrArg (·, none) (updateSpeaker_transcribed wiring _)
      | some error => rfl

theorem runOnce_transcribed (host : Host) (wiring : Devices δ ε)
    (console : Console (δ × List Message)) :
    (runOnce host wiring.transcribed console).map forget id = runOnce host wiring console.forget := by
  rw [runOnce_eq, runOnce_eq]
  have hcycle : console.forget.cycle host = console.cycle host := rfl
  rw [hcycle]
  cases ((console.cycle host).outcome.stop? : Option (Stop ε)) with
  | none => exact present_transcribed wiring _
  | some reason => rfl

theorem runTimes_transcribed (host : Host) (wiring : Devices δ ε) (count : Nat)
    (console : Console (δ × List Message)) :
    (runTimes host wiring.transcribed count console).map forget id =
      runTimes host wiring count console.forget := by
  induction count generalizing console with
  | zero => rfl
  | succ count ih =>
      have hfirst := runOnce_transcribed host wiring console
      rw [runTimes, runTimes, ← hfirst]
      cases runOnce host wiring.transcribed console with
      | mk after stop =>
          cases stop with
          -- Not stopped, with a transcript and without, and the run goes on in both.
          | none => exact ih after
          | some reason => rfl

theorem loadIfFits_transcribed (console : Console (δ × List Message)) (rom : Rom) :
    (console.loadIfFits rom).forget = console.forget.loadIfFits rom := by
  rw [loadIfFits_eq, loadIfFits_eq]
  split <;> rfl

theorem request_transcribed (host : Host) (wiring : Devices δ ε)
    (console : Console (δ × List Message)) (asked : Request) :
    (console.request host wiring.transcribed asked).forget =
      console.forget.request host wiring asked := by
  cases asked with
  | load rom => exact loadIfFits_transcribed console rom
  | loadFile path content =>
      cases content with
      | none => rfl
      | some rom => exact loadIfFits_transcribed _ rom
  | runOnce patience => exact congrArg Prod.fst (runOnce_transcribed host wiring _)
  | runCycles limit patience => exact congrArg Prod.fst (runTimes_transcribed host wiring _ _)
  | direct call => rfl
  | rewrite change => rfl

/-- Writing a transcript changes nothing else. -/
theorem requests_transcribed (host : Host) (wiring : Devices δ ε)
    (console : Console (δ × List Message)) (asked : List Request) :
    (console.requests host wiring.transcribed asked).forget =
      console.forget.requests host wiring asked := by
  induction asked generalizing console with
  | nil => rfl
  | cons first rest ih =>
      show ((console.request host wiring.transcribed first).requests host wiring.transcribed
        rest).forget = (console.forget.request host wiring first).requests host wiring rest
      rw [ih, request_transcribed]

end Console

end ChipEight
