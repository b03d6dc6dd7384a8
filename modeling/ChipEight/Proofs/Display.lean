import ChipEight.Proofs.History
import ChipEight.Proofs.Transcripts

/-!
# What the display is shown

Two instructions paint: one clears the screen and one draws on it. The frames of a computer
(`Computer.frames`) are its screens right after these instructions, and since nothing else touches the
screen, the last of them is the screen as it is (`Computer.getLastD_frames`).

A console hands its display exactly the frames of its computer, as long as the display accepts them
and nobody reaches past the console; and its computer is the same as without a console around it
(`frames_follow_screen`).
-/

namespace ChipEight

/-! ## Painting

A cycle marks the screen as redrawn, and the mark is what the console goes by. Here it is tied to
the instruction: the cycle that completes leaves the mark if and only if its instruction paints,
because fetching has taken the old mark away. -/

/-- Whether an instruction clears the screen or draws on it. -/
def Instruction.paints : Instruction → Bool
  | .clear | .draw _ _ _ => true
  | _ => false

section

variable {host : Host} {word : Nat} {instruction : Instruction} {state : State} {usage : Usage}

theorem redrawn_execute :
    (execute host word instruction state usage).state.redrawn =
      (instruction.paints || state.redrawn) := by
  cases instruction with
  | clear => rfl
  | draw x y rows => rfl
  | _ => exact (execute_display (by simp) (by simp)).2.1

theorem screen_execute (h : instruction.paints = false) :
    (execute host word instruction state usage).state.screen = state.screen := by
  cases instruction with
  | clear => cases h
  | draw x y rows => cases h
  | _ => exact (execute_display (by simp) (by simp)).1

/-- A wait that goes on has not painted. -/
theorem State.redrawn_of_stalled (h : (state.step host usage).outcome = .stalled) :
    (state.step host usage).state.redrawn = false := by
  cases hhalt : state.halt with
  | some cause =>
      rw [State.step, State.stepWith_of_halted hhalt] at h
      cases h
  | none =>
      cases State.step_ends hhalt host usage with
      | stalled x decoded result result_eq expired state_eq =>
          rw [state_eq]
          rfl
      | abandoned x decoded result result_eq error given_up state_eq usage_eq outcome_eq =>
          rw [outcome_eq] at h
          cases h
      | completed instruction decoded carried state_eq usage_eq outcome_eq =>
          rw [outcome_eq] at h
          cases h
      | trapped trap traps state_eq usage_eq outcome_eq =>
          rw [outcome_eq] at h
          cases h

end

namespace Computer

variable {host : Host} {computer : Computer}

/-- The screen right after a call, if the call carries out an instruction that paints. -/
def frame? (host : Host) (computer : Computer) (request : Call) : Option (List Nat) :=
  match computer.executed? host request with
  | some executed =>
    if executed.instruction.paints then some (computer.call host request).state.screen.frame else none
  | none => none

/-- The screens right after the instructions that paint, the first one first. -/
def frames (host : Host) (computer : Computer) : List Call → List (List Nat)
  | [] => []
  | request :: rest =>
    (computer.frame? host request).toList ++ (computer.call host request).frames host rest

theorem frames_append (first second : List Call) :
    computer.frames host (first ++ second) =
      computer.frames host first ++ (computer.calls host first).frames host second := by
  induction first generalizing computer with
  | nil => rfl
  | cons request rest ih =>
      rw [List.cons_append, frames, frames, ih, calls_cons, List.append_assoc]

theorem frame?_of_not_completed {patience : Nat}
    (h : (computer.cycle host patience).outcome ≠ .completed) :
    computer.frame? host (.step patience) = none := by
  rw [frame?, executed?, if_neg h]

/-- A cycle that does not fail has painted just when it says so. -/
theorem frame?_step (patience : Nat) :
    let cycle := computer.cycle host patience
    computer.frame? host (.step patience) =
      if cycle.outcome.goesOn && cycle.state.redrawn then some cycle.state.screen.frame
      else none := by
  intro cycle
  by_cases hcompleted : cycle.outcome = .completed
  · obtain ⟨instruction, decoded, -, state_eq⟩ := State.step_of_completed hcompleted
    have hredrawn : cycle.state.redrawn = instruction.paints := by
      -- Fetching takes the mark of the cycle before away, so only a painting instruction can set it.
      rw [show cycle.state = _ from state_eq]
      exact redrawn_execute.trans (Bool.or_false _)
    rw [frame?, executed?_of_completed hcompleted decoded, hredrawn, hcompleted]
    rfl
  · rw [frame?_of_not_completed hcompleted]
    by_cases hstalled : cycle.outcome = .stalled
    · -- A stalled wait goes on too, but it has not painted.
      have hredrawn : cycle.state.redrawn = false := State.redrawn_of_stalled hstalled
      simp [hredrawn]
    · have hfailed : cycle.outcome.goesOn = false := by
        cases houtcome : cycle.outcome with
        | completed => exact absurd houtcome hcompleted
        | stalled => exact absurd houtcome hstalled
        | _ => rfl
      simp [hfailed]

/-- A call other than a reset leaves the screen alone if it does not paint. -/
theorem screen_of_frame?_none {request : Call} (hreset : request ≠ .reset)
    (h : computer.frame? host request = none) :
    (computer.call host request).state.screen = computer.state.screen := by
  cases call_does host computer hreset with
  | carriedOut usage instruction executed decoded carried state_eq =>
      have hpaints : instruction.paints = false := by
        rw [frame?, executed] at h
        simpa using h
      rw [state_eq]
      exact screen_execute hpaints
  | idle executed state_eq => rw [state_eq]

theorem screen_of_frame?_some {request : Call} {rows : List Nat}
    (h : computer.frame? host request = some rows) :
    (computer.call host request).state.screen.frame = rows := by
  unfold frame? at h
  split at h
  · split at h
    · exact Option.some.inj h
    · cases h
  · cases h

/-- Without a reset the screen is what was painted last. -/
theorem getLastD_frames (host : Host) (computer : Computer) {requests : List Call}
    (hreset : Call.reset ∉ requests) :
    (computer.frames host requests).getLastD computer.state.screen.frame =
      (computer.calls host requests).state.screen.frame := by
  induction requests generalizing computer with
  | nil => rfl
  | cons request rest ih =>
      have hfirst : request ≠ .reset := fun h => hreset (by simp [h])
      have hrest := ih (computer.call host request) (fun h => hreset (by simp [h]))
      -- The screen as it was stands in for the frame that a call without painting does not add.
      rw [calls_cons, frames, ← hrest]
      cases hframe : computer.frame? host request with
      | none =>
          rw [screen_of_frame?_none hfirst hframe]
          rfl
      | some rows =>
          rw [screen_of_frame?_some hframe]
          exact List.getLastD_cons

/-! ## Runs of cycles

`stepsUpTo` is the run that a console makes, told as calls of a computer: the cycles before the
first that fails, and this one. The patience of the surroundings is used up along the run, so each
cycle gets what the one before has left. -/

/-- The cycles that are made of `count` when the first that fails is the last, with a patience that they
have together. -/
def stepsUpTo (host : Host) : (count : Nat) → Computer → List Call
  | 0, _ => []
  | count + 1, computer =>
    let first := Call.step computer.usage.patience
    let cycle := computer.cycle host computer.usage.patience
    first :: if cycle.outcome.goesOn then stepsUpTo host count (computer.call host first) else []

theorem reset_not_mem_stepsUpTo {count : Nat} : Call.reset ∉ computer.stepsUpTo host count := by
  induction count generalizing computer with
  | zero => exact List.not_mem_nil
  | succ count ih =>
      rw [stepsUpTo]
      split
      · simp [ih]
      · simp

/-- A run of cycles makes `count` of them, or stops at the first that fails and passes the reason on. -/
inductive Propagates {ε : Type} : (count : Nat) → List Outcome → Option (Console.Stop ε) → Prop
  | exhausted : Propagates 0 [] none
  | went_on {count : Nat} {outcome : Outcome} {later : List Outcome} {stop : Option (Console.Stop ε)}
      (goes_on : outcome.goesOn = true) (rest : Propagates count later stop) :
      Propagates (count + 1) (outcome :: later) stop
  | failed {count : Nat} {outcome : Outcome} {reason : Console.Stop ε}
      (stops : outcome.stop? = some reason) : Propagates (count + 1) [outcome] (some reason)

/-! ### Patience

How patient the surroundings have been so far is of no account for a call: only a cycle depends on
it, and it brings its own. -/

theorem call_ready (host : Host) (computer : Computer) (patience : Nat) (request : Call) :
    ∃ left, (computer.ready patience).call host request =
      (computer.call host request).ready left := by
  cases request with
  | load rom =>
      refine ⟨patience, ?_⟩
      by_cases hfits : rom.length ≤ Memory.programCapacity
      · rw [call_load_of_le hfits, call_load_of_le hfits]
        rfl
      · rw [call_load_of_lt (Nat.lt_of_not_le hfits), call_load_of_lt (Nat.lt_of_not_le hfits)]
  | step own => exact ⟨_, rfl⟩
  | _ => exact ⟨patience, rfl⟩

theorem calls_ready (host : Host) (computer : Computer) (patience : Nat) (requests : List Call) :
    ∃ left, (computer.ready patience).calls host requests =
      (computer.calls host requests).ready left := by
  induction requests generalizing computer patience with
  | nil => exact ⟨patience, rfl⟩
  | cons request rest ih =>
      obtain ⟨left, hcall⟩ := call_ready host computer patience request
      rw [calls_cons, calls_cons, hcall]
      exact ih _ left

theorem outcomes_ready (host : Host) (computer : Computer) (patience : Nat) (requests : List Call) :
    (computer.ready patience).outcomes host requests = computer.outcomes host requests := by
  induction requests generalizing computer patience with
  | nil => rfl
  | cons request rest ih =>
      obtain ⟨left, hcall⟩ := call_ready host computer patience request
      have hfirst : (computer.ready patience).outcome? host request =
        computer.outcome? host request := by cases request <;> rfl
      rw [outcomes, outcomes, hfirst, hcall, ih]

theorem frames_ready (host : Host) (computer : Computer) (patience : Nat) (requests : List Call) :
    (computer.ready patience).frames host requests = computer.frames host requests := by
  induction requests generalizing computer patience with
  | nil => rfl
  | cons request rest ih =>
      obtain ⟨left, hcall⟩ := call_ready host computer patience request
      have hfirst : (computer.ready patience).frame? host request = computer.frame? host request := by
        cases request <;> rfl
      rw [frames, frames, hfirst, hcall, ih]

end Computer

/-! ## Consoles

A request comes down to calls of the computer in the console (`Request.calls`), and the frames
handed over are those of these calls. Each layer is one lemma: a cycle, a run of cycles, a request,
a list of requests. The last two go by induction on what they iterate, with the state of the console
arbitrary. -/

namespace Console

variable {δ ε : Type} {host : Host} {wiring : Devices δ ε}

/-- The calls that the computer in a console gets by a request. -/
def Request.calls (host : Host) (computer : Computer) : Request → List Call
  | .load rom => [.load rom]
  | .loadFile _ content => (content.map Call.load).toList
  | .runOnce patience => [.step patience]
  | .runCycles limit patience => (computer.ready patience).stepsUpTo host limit.toNat
  | .direct call => [call]
  | .rewrite _ => []

/-- The calls that the computer in a console gets by requests. -/
def callsOf (host : Host) (computer : Computer) : List Request → List Call
  | [] => []
  | asked :: rest =>
    let calls := asked.calls host computer
    calls ++ callsOf host (computer.calls host calls) rest

/-- The computer in the console, with whatever patience is left. -/
def Holds (console : Console δ) (computer : Computer) : Prop :=
  ∃ left, console.computer = computer.ready left

theorem Holds.ready {console : Console δ} {computer : Computer} (h : console.Holds computer)
    (patience : Nat) : (console.ready patience).computer = computer.ready patience := by
  obtain ⟨left, hcomputer⟩ := h
  show console.computer.ready patience = _
  rw [hcomputer]
  rfl

theorem Holds.call {console : Console δ} {computer : Computer} (h : console.Holds computer)
    (host : Host) (request : Call) :
    ∃ left, console.computer.call host request = (computer.call host request).ready left := by
  obtain ⟨left, hcomputer⟩ := h
  rw [hcomputer]
  exact Computer.call_ready host computer left request

theorem Holds.loadIfFits {console : Console δ} {computer : Computer} (h : console.Holds computer)
    (host : Host) (rom : Rom) :
    (console.loadIfFits rom).Holds (computer.call host (.load rom)) := by
  rw [Holds, computer_loadIfFits host]
  exact h.call host (.load rom)

theorem frames_loadIfFits (console : Console (δ × List Message)) (rom : Rom) :
    (console.loadIfFits rom).frames = console.frames := by
  rw [frames, Console.told, (loadIfFits_keeps console rom).1]
  rfl

theorem computer_runOnce (host : Host) (wiring : Devices δ ε) (console : Console δ) :
    (console.runOnce host wiring).1.computer =
      console.computer.call host (.step console.usage.patience) := by
  have hturn := turn_runOnce host wiring console
  generalize console.runOnce host wiring = result at hturn ⊢
  cases hturn with
  | failed stops => rfl
  | refused goes_on refuses => rfl
  | presented goes_on accepts => exact computer_updateSpeaker _

/-- What the speaker is told is no frame. -/
theorem frames_updateSpeaker (console : Console (δ × List Message)) :
    (updateSpeaker wiring.transcribed console).frames = console.frames := by
  rw [frames, told_updateSpeaker, List.filterMap_append]
  cases Signal.due console.playing console.state.beeping <;> simp [frames, Message.frame?]

/-- With a display that accepts every frame a cycle stops the console only if it fails, and the
frame that is handed over is the one that was painted. -/
theorem runOnce_of_accepts (host : Host) (haccepts : wiring.AcceptsAll)
    (console : Console (δ × List Message)) :
    let result := console.runOnce host wiring.transcribed
    result.2 = (console.cycle host).outcome.stop? ∧
      result.1.frames = console.frames ++
        (console.computer.frame? host (.step console.usage.patience)).toList := by
  have hpainted : console.computer.frame? host (.step console.usage.patience) =
      if (console.cycle host).outcome.goesOn && (console.cycle host).state.redrawn then
        some (console.cycle host).state.screen.frame
      else none := Computer.frame?_step _
  have hturn := turn_runOnce host wiring.transcribed console
  generalize console.runOnce host wiring.transcribed = result at hturn ⊢
  cases hturn with
  | failed stops =>
      have hfails := Outcome.goesOn_of_stop? stops
      refine ⟨stops.symm, ?_⟩
      rw [hpainted, hfails]
      exact (List.append_nil _).symm
  | refused goes_on refuses =>
      have haccepted :=
        (acceptsAll_transcribed haccepts).hand console.devices (console.cycle host).state
      rw [refuses] at haccepted
      cases haccepted
  -- The frame, if there is one, is told first, and the speaker comes after it.
  | @presented devices goes_on accepts =>
      refine ⟨(Outcome.stop?_eq_none_iff.mpr goes_on).symm, ?_⟩
      rw [frames_updateSpeaker, hpainted, goes_on]
      show devices.2.filterMap Message.frame? = _
      rw [told_of_hand accepts, List.filterMap_append]
      cases (console.cycle host).state.redrawn <;> rfl

/-- With such a display a run makes the cycles that its computer would make without a console. -/
theorem runTimes_of_accepts (host : Host) (haccepts : wiring.AcceptsAll) (count : Nat)
    (console : Console (δ × List Message)) :
    let result := runTimes host wiring.transcribed count console
    let steps := console.computer.stepsUpTo host count
    result.1.computer = console.computer.calls host steps ∧
      result.1.frames = console.frames ++ console.computer.frames host steps ∧
      Computer.Propagates count (console.computer.outcomes host steps) result.2 := by
  induction count generalizing console with
  | zero => exact ⟨rfl, (List.append_nil _).symm, .exhausted⟩
  | succ count ih =>
      have hcomputer := computer_runOnce host wiring.transcribed console
      obtain ⟨hstop, hframes⟩ := runOnce_of_accepts host haccepts console
      have hcycle : console.computer.cycle host console.usage.patience = console.cycle host := rfl
      have husage : console.computer.usage = console.usage := rfl
      dsimp only
      rw [runTimes, Computer.stepsUpTo, husage, hcycle]
      generalize console.runOnce host wiring.transcribed = first at hcomputer hstop hframes
      obtain ⟨after, stop⟩ := first
      cases stop with
      | none =>
          -- The patience that is left goes on to the later cycles, with a console and without.
          have hgoes : (console.cycle host).outcome.goesOn = true :=
            Outcome.stop?_eq_none_iff.mp hstop.symm
          obtain ⟨hcalls, hlater, hrest⟩ := ih after
          rw [hcomputer] at hcalls hlater hrest
          rw [if_pos hgoes]
          refine ⟨hcalls, ?_, .went_on hgoes hrest⟩
          show (runTimes host wiring.transcribed count after).1.frames = _
          rw [hlater, hframes, Computer.frames, List.append_assoc]
      | some reason =>
          have hfails := Outcome.goesOn_of_stop? hstop.symm
          rw [if_neg (Bool.eq_false_iff.mp hfails)]
          refine ⟨hcomputer, ?_, .failed hstop.symm⟩
          show after.frames = _
          rw [hframes, Computer.frames, Computer.frames, List.append_nil]

/-- A request through the console hands over what its calls paint. -/
theorem request_of_accepts (host : Host) (haccepts : wiring.AcceptsAll)
    {console : Console (δ × List Message)} {computer : Computer} (hholds : console.Holds computer)
    {asked : Request} (hthrough : asked.ThroughConsole) :
    let after := console.request host wiring.transcribed asked
    let calls := asked.calls host computer
    after.Holds (computer.calls host calls) ∧
      after.frames = console.frames ++ computer.frames host calls ∧ Call.reset ∉ calls := by
  have hready := hholds.ready
  cases asked with
  | load rom =>
      refine ⟨hholds.loadIfFits host rom, ?_, by simp [Request.calls]⟩
      exact (frames_loadIfFits console rom).trans (List.append_nil _).symm
  | loadFile path content =>
      have hannounced : (console.announce path).Holds computer := hholds
      cases content with
      | none => exact ⟨hannounced, (List.append_nil _).symm, by simp [Request.calls]⟩
      | some rom =>
          refine ⟨hannounced.loadIfFits host rom, ?_, by simp [Request.calls]⟩
          exact (frames_loadIfFits (console.announce path) rom).trans (List.append_nil _).symm
  | runOnce patience =>
      have hstep := computer_runOnce host wiring.transcribed (console.ready patience)
      have hframes := (runOnce_of_accepts host haccepts (console.ready patience)).2
      rw [hready] at hstep hframes
      refine ⟨⟨_, hstep⟩, ?_, by simp [Request.calls]⟩
      exact hframes.trans (congrArg (console.frames ++ ·) (List.append_nil _).symm)
  | runCycles limit patience =>
      obtain ⟨hcalls, hframes, -⟩ :=
        runTimes_of_accepts host haccepts limit.toNat (console.ready patience)
      obtain ⟨rest, hrest⟩ := Computer.calls_ready host computer patience
        ((computer.ready patience).stepsUpTo host limit.toNat)
      rw [hready] at hcalls hframes
      rw [Computer.frames_ready] at hframes
      exact ⟨⟨rest, hcalls.trans hrest⟩, hframes, Computer.reset_not_mem_stepsUpTo⟩
  | direct call =>
      obtain ⟨hreset, hstep⟩ := hthrough
      have hnone : computer.frame? host call = none := by
        cases call with
        | step patience => exact absurd rfl (hstep patience)
        | _ => rfl
      refine ⟨hholds.call host call, ?_, by simpa [Request.calls] using hreset.symm⟩
      show console.frames = console.frames ++ ((computer.frame? host call).toList ++ [])
      simp [hnone]
  | rewrite change => cases hthrough

theorem requests_of_accepts (host : Host) (haccepts : wiring.AcceptsAll)
    {console : Console (δ × List Message)} {computer : Computer} (hholds : console.Holds computer)
    {asked : List Request} (hthrough : ∀ request ∈ asked, request.ThroughConsole) :
    let after := console.requests host wiring.transcribed asked
    let calls := callsOf host computer asked
    after.Holds (computer.calls host calls) ∧
      after.frames = console.frames ++ computer.frames host calls ∧ Call.reset ∉ calls := by
  induction asked generalizing console computer with
  | nil => exact ⟨hholds, (List.append_nil _).symm, List.not_mem_nil⟩
  | cons first rest ih =>
      obtain ⟨hholds, hframes, hreset⟩ :=
        request_of_accepts host haccepts hholds (hthrough first (by simp))
      obtain ⟨hlater, hlaterFrames, hlaterReset⟩ := ih hholds (fun r hr => hthrough r (by simp [hr]))
      refine ⟨?_, ?_, ?_⟩
      · rw [callsOf, Computer.calls_append]
        exact hlater
      · rw [callsOf, Computer.frames_append, ← List.append_assoc, ← hframes]
        exact hlaterFrames
      · rw [callsOf, List.mem_append]
        exact fun h => h.elim hreset hlaterReset

/-- Take a console whose display accepts every frame, and any requests through the console. Its
display is handed the screens right after the completed instructions that paint, in order and once
each; the last of them is the screen as it is now. The computer in the console is in the state of a
bare one that gets the same programs, keys and cycles, where a run of cycles makes as many as its limit
says, none if it is negative, or stops at the first that fails and passes the reason on. -/
theorem frames_follow_screen (host : Host) (wiring : Devices δ ε) (haccepts : wiring.AcceptsAll)
    (devices : δ) (usage : Usage) (asked : List Request)
    (hthrough : ∀ request ∈ asked, request.ThroughConsole) :
    let plain := (Console.new devices usage).requests host wiring asked
    let console := (Console.new (devices, []) usage).requests host wiring.transcribed asked
    let calls := callsOf host (Computer.new usage) asked
    let bare := (Computer.new usage).calls host calls
    console.forget = plain ∧
    console.frames = (Computer.new usage).frames host calls ∧
    console.frames.getLastD Screen.blank.frame = console.state.screen.frame ∧
    console.state = bare.state ∧
    (∃ left, console.usage = { bare.usage with patience := left }) ∧
    ∀ limit patience,
      let run := (plain.ready patience).runCycles host wiring limit
      let steps := (Request.runCycles limit patience).calls host bare
      Computer.Propagates limit.toNat (bare.outcomes host steps) run.2 := by
  intro plain console calls bare
  have hnew : (Console.new (devices, ([] : List Message)) usage).Holds (Computer.new usage) :=
    ⟨usage.patience, rfl⟩
  obtain ⟨hholds, hframes, hreset⟩ := requests_of_accepts host haccepts hnew hthrough
  have hforget : console.forget = plain := requests_transcribed host wiring _ _
  have hready := hholds.ready
  obtain ⟨left, hcomputer⟩ : ∃ left, console.computer = bare.ready left := hholds
  have hstate : console.state = bare.state := congrArg Computer.state hcomputer
  have husage : console.usage = (bare.ready left).usage := congrArg Computer.usage hcomputer
  refine ⟨hforget, hframes, ?_, hstate, ⟨left, husage⟩, ?_⟩
  · have hlast := Computer.getLastD_frames host (Computer.new usage) hreset
    rw [hstate, ← hlast]
    exact congrArg (·.getLastD Screen.blank.frame) hframes
  · intro limit patience run steps
    obtain ⟨-, -, hrun⟩ :=
      runTimes_of_accepts host haccepts limit.toNat (console.ready patience)
    rw [hready, Computer.outcomes_ready] at hrun
    have hplain := runTimes_transcribed host wiring limit.toNat (console.ready patience)
    show Computer.Propagates limit.toNat _ (runTimes host wiring limit.toNat (plain.ready patience)).2
    rw [← hforget]
    exact congrArg Prod.snd hplain ▸ hrun

/-- A program that clears the screen, draws, and comes to a word that is no instruction. -/
def painter : Rom := [0x00, 0xE0, 0xD0, 0x05, 0xFF, 0xFF]

/-- A program that does not fit. -/
def oversized : Rom := List.replicate 3585 0

/-- A display that accepts every frame, and no speaker. -/
def patientWiring : Devices Unit Empty where
  draw devices _ := (devices, none)

theorem painter_frames_follow_screen :
    let asked : List Request :=
      [.load painter, .runCycles 5 0, .runOnce 0, .load oversized, .runCycles (-1) 0]
    let plain := (Console.new () {}).requests {} patientWiring asked
    let console := (Console.new ((), []) {}).requests {} patientWiring.transcribed asked
    patientWiring.AcceptsAll ∧
      (∀ request ∈ asked, request.ThroughConsole) ∧
      console.frames.length = 2 ∧
      console.frames.getLastD Screen.blank.frame = console.state.screen.frame ∧
      console.state.screen.frame.take 5 = [0xF0, 0x90, 0x90, 0x90, 0xF0].map (· <<< 56) ∧
      Computer.Propagates 3 [.refused (.unimplemented 0xFFFF 0x204)]
        ((plain.ready 0).runCycles {} patientWiring 3).2 := by
  intro asked plain console
  have haccepts : patientWiring.AcceptsAll := fun _ _ => rfl
  have hthrough : ∀ request ∈ asked, request.ThroughConsole := by
    simp [asked, Request.ThroughConsole]
  have hrun :
      let calls := callsOf {} (Computer.new {}) asked
      let bare := (Computer.new {}).calls {} calls
      ((Computer.new {}).frames {} calls).length = 2 ∧
        bare.state.screen.frame.take 5 = [0xF0, 0x90, 0x90, 0x90, 0xF0].map (· <<< 56) ∧
        bare.outcomes {} ((Request.runCycles 3 0).calls {} bare) =
          [.refused (.unimplemented 0xFFFF 0x204)] := by decide +kernel
  obtain ⟨hlength, hscreen, houtcomes⟩ := hrun
  obtain ⟨-, hframes, hlast, hstate, -, hruns⟩ :=
    frames_follow_screen {} patientWiring haccepts () {} asked hthrough
  have hpropagates := hruns 3 0
  dsimp only at hpropagates
  rw [houtcomes] at hpropagates
  exact ⟨haccepts, hthrough, hframes ▸ hlength, hlast, hstate ▸ hscreen, hpropagates⟩

end Console

end ChipEight
