import ChipEight.CommandLine.Plan
import ChipEight.Proofs.Pictures
import ChipEight.Proofs.Shots
import ChipEight.Proofs.Unattended

/-!
# Recordings

A recording console hands every screen that is painted to its animation, which takes it, because no lit
pixel of it is outside. So after any number of cycles the animation shows the frames of a bare computer,
one for each cycle that has painted (`Console.runTimes_recorder`), and the recording fails only by a trap.

`Plan.record` reports what has become of that. `Plan.report?` and `Plan.written?` are what is left in the
end where files can be opened: the report, and the file. `Plan.record_outcome` tells both from the cycles
of a bare computer, and compares recordings of different lengths. What is written are the pictures of the
frames, in order, where equal ones that follow one another are written once and shown for longer
(`Animation.pictures_of_shots`).
-/

namespace ChipEight

/-! ## Animations that get frames

A refused frame leaves an animation as it is, and a screen is never refused. So an animation that only gets
screens is told by the list of these (`Animation.withFrames`), and it shows each of them in a picture of
its own. -/

namespace Animation

/-- Drawing takes no frame away. -/
theorem prefix_draw (animation : Animation) (frame : List Nat) :
    animation.frames.toList <+: (animation.draw frame).1.frames.toList := by
  rw [draw]
  cases paintFrame frame with
  | none => exact List.prefix_refl _
  | some canvas =>
      dsimp only
      split
      · exact List.prefix_refl _
      · rw [Array.toList_push]
        exact List.prefix_append _ _

/-- The animation when more frames have been drawn. -/
def withFrames (animation : Animation) (frames : List (List Nat)) : Animation :=
  { animation with frames := animation.frames ++ (frames.map canvasOf).toArray }

variable {animation : Animation}

@[simp] theorem withFrames_nil : animation.withFrames [] = animation := by simp [withFrames]

theorem withFrames_withFrames (first second : List (List Nat)) :
    (animation.withFrames first).withFrames second = animation.withFrames (first ++ second) := by
  simp [withFrames]

theorem size_withFrames (frames : List (List Nat)) :
    (animation.withFrames frames).frames.size = animation.frames.size + frames.length := by
  simp [withFrames]

/-- A screen is always drawn. -/
theorem draw_screen {screen : Screen} (hrows : screen.rows.size = 32) (hscale : 0 < animation.scale) :
    animation.draw screen.frame = (animation.withFrames [screen.frame], none) := by
  have hlength : screen.frame.length ≤ 32 := Nat.le_of_eq (screen.length_frame.trans hrows)
  rw [draw_of_onScreen (onScreen_of_length_le hlength) hscale, withFrames, List.map_singleton,
    ← Array.append_singleton]

/-- The pictures of the frames that a new animation has got show them, one each. -/
theorem pictures_show (scale : Int) (frames : List (List Nat)) :
    List.Forall₂ (fun picture frame => picture.ShowsFrame scale.toNat frame)
      (withFrames { scale := scale } frames).pictures frames := by
  rw [pictures, withFrames, Array.empty_append, List.map_map, List.forall₂_map_left_iff,
    List.forall₂_same]
  exact fun frame _ => .enlarged scale.toNat frame

end Animation

/-! ## Consoles that record

The animation is the display of a console, so what holds of all consoles holds of this one. One
cycle hands over one frame at most. The run goes by induction on the cycles with the console
arbitrary, and what carries it is that the computer is reachable, running and without patience. -/

namespace Console

open Plan (recorderWiring)

variable {host : Host} {console : Console Animation}

/-- A recording takes every screen that a cycle has painted. -/
theorem hand_recorder (hscale : 0 < console.devices.scale) {state : State}
    (hrows : state.screen.rows.size = 32) :
    recorderWiring.hand console.devices state =
      (console.devices.withFrames (if state.redrawn then [state.screen.frame] else []), none) := by
  rw [Devices.hand]
  cases state.redrawn with
  | false => simp
  | true => exact Animation.draw_screen hrows hscale

/-- No cycle takes a frame away from a recording. -/
theorem prefix_runOnce (console : Console Animation) :
    console.devices.frames.toList <+:
      (console.runOnce host recorderWiring).1.devices.frames.toList := by
  have hhand : ∀ state, console.devices.frames.toList <+:
      (recorderWiring.hand console.devices state).1.frames.toList := by
    intro state
    rw [Devices.hand]
    split
    · exact console.devices.prefix_draw _
    · exact List.prefix_refl _
  have turn := turn_runOnce host recorderWiring console
  generalize console.runOnce host recorderWiring = result at turn ⊢
  cases turn with
  | failed stops => exact List.prefix_refl _
  | refused goes_on refuses =>
      have hframes := hhand (console.cycle host).state
      rw [refuses] at hframes
      exact hframes
  | presented goes_on accepts =>
      have hframes := hhand (console.cycle host).state
      rw [accepts] at hframes
      exact hframes

/-- Without patience a console makes the cycles that `Computer.steps` makes. -/
theorem cycle_eq_of_no_patience {δ : Type} {console : Console δ}
    (h : console.computer.usage.patience = 0) :
    console.cycle host = console.computer.cycle host 0 := by
  rw [Computer.cycle, ← h]
  rfl

/-- A cycle of a recording fails, or it adds the frame that it has painted, if any. -/
theorem runOnce_recorder (hscale : 0 < console.devices.scale)
    (hreachable : Computer.Reachable host console.computer)
    (hpatience : console.computer.usage.patience = 0) :
    let result := console.runOnce host recorderWiring
    result.1.computer = console.computer.call host (.step 0) ∧
      result.2 = (console.computer.cycle host 0).outcome.stop? ∧
      result.1.devices =
        console.devices.withFrames (console.computer.frame? host (.step 0)).toList := by
  intro result
  have hcycle : console.cycle host = console.computer.cycle host 0 :=
    cycle_eq_of_no_patience hpatience
  have hrows : (console.cycle host).state.screen.rows.size = 32 := by
    rw [hcycle]
    exact (hreachable.steps 1).wellFormed.rows.size_eq
  have hcomputer := computer_runOnce host recorderWiring console
  rw [show console.usage.patience = 0 from hpatience] at hcomputer
  refine ⟨hcomputer, ?_⟩
  rw [show result = _ from runOnce_of_hand (hand_recorder hscale hrows), Computer.frame?_step,
    ← hcycle]
  cases hends : ((console.cycle host).outcome.stop? : Option (Stop Animation.Error)) with
  | none =>
      refine ⟨rfl, ?_⟩
      rw [Outcome.stop?_eq_none_iff.mp hends, Bool.true_and]
      cases (console.cycle host).state.redrawn <;> rfl
  | some reason =>
      -- What fails is handed to nobody.
      refine ⟨rfl, ?_⟩
      rw [Outcome.goesOn_of_stop? hends]
      exact Animation.withFrames_nil.symm

/-- After so many cycles, or as many as there are before the first trap, a recording has got the frames
of its computer. What stops it is the trap that halts its computer. -/
theorem runTimes_recorder (hwait : host.keyWait = some (.whole 0))
    (hreachable : Computer.Reachable host console.computer) (hhalt : console.computer.state.halt = none)
    (hpatience : console.computer.usage.patience = 0) (hscale : 0 < console.devices.scale) (count : Nat) :
    let result := runTimes host recorderWiring count console
    let later := console.computer.steps host count
    result.1.computer = later ∧ result.2 = later.state.halt.map .trap ∧
      result.1.devices =
        console.devices.withFrames
          (console.computer.frames host (List.replicate count (.step 0))) := by
  induction count generalizing console with
  | zero =>
      refine ⟨rfl, ?_, Animation.withFrames_nil.symm⟩
      rw [Computer.steps_zero, hhalt]
      rfl
  | succ count ih =>
      have hcall : Computer.Reachable host (console.computer.call host (.step 0)) :=
        hreachable.steps 1
      have hpatient : (console.computer.call host (.step 0)).usage.patience = 0 :=
        State.patience_step hwait
      obtain ⟨hcomputer, hstop, hdevices⟩ := runOnce_recorder hscale hreachable hpatience
      dsimp only
      rw [runTimes, Computer.steps_succ, List.replicate_succ, Computer.frames,
        ← Animation.withFrames_withFrames, ← hdevices]
      generalize console.runOnce host recorderWiring = first at hcomputer hstop hdevices
      obtain ⟨after, stop⟩ := first
      dsimp only at hcomputer hstop hdevices
      rcases Computer.cycle_goesOn_or_trapped hhalt hwait with
        ⟨hgoes, hrunning⟩ | ⟨trap, htrapped, hhalted⟩
      · -- The cycle goes on, and so does the run.
        obtain rfl : stop = none := hstop.trans (Outcome.stop?_eq_none_iff.mpr hgoes)
        have hafter : Computer.Reachable host after.computer := by
          rw [hcomputer]
          exact hcall
        have hlater := ih hafter
          ((congrArg (·.state.halt) hcomputer).trans hrunning)
          ((congrArg (·.usage.patience) hcomputer).trans hpatient)
          (by rw [hdevices]; exact hscale)
        rw [hcomputer] at hlater
        exact hlater
      · -- The computer is halted, so what it would do after the run has stopped is nothing.
        have hreason : stop = some (.trap trap) :=
          hstop.trans (congrArg Outcome.stop? htrapped)
        obtain ⟨hsteps, hnone⟩ := Computer.steps_of_halted hhalted hpatient count
        have hframes := List.length_eq_zero_iff.mp ((Computer.length_frames count).trans hnone)
        rw [hreason, hsteps, hframes, hhalted]
        exact ⟨hcomputer, rfl, Animation.withFrames_nil.symm⟩

end Console

/-! ## Recordings of files

`recording` is the loop of the command by itself: the console after so many cycles, and what has
stopped it. `record` makes a report of it. So statements about the report come down to statements
about the loop, and these to the cycles of a bare computer. -/

theorem Settings.contains_scales_iff {scale : Int} :
    scales.contains scale = true ↔ 1 ≤ scale ∧ scale ≤ 40 := by
  rw [Interval.contains, Bool.and_eq_true, decide_eq_true_iff]
  simp [scales]

namespace Plan

/-- The report in the end, if a file can be opened that is to be written. -/
def report? : Plan → Option Report
  | .brokenOff _ => none
  | .finished report _ => some report
  | .save _ _ finish => some (finish none)

/-- The code that the program exits with in the end. -/
def exitCode? (plan : Plan) : Option Nat := plan.report?.map (·.exit.code)

/-- The file that is written in the end if it can be opened: its path and what goes into it. -/
def written? : Plan → Option (String × List Animation.Shot)
  | .save path (.ok shots) _ => some (path, shots)
  | _ => none

/-- The console that a file is recorded with, when its program is yet to be loaded. -/
def recorder (settings : Settings) (path : String) : Console Animation :=
  (Console.new { scale := settings.scale } {}).announce path

/-- The console that has recorded a program for so many cycles, or for as many as there are before one
fails, with the reason to stop there. A program that is too long is not run. -/
def recording (surroundings : Surroundings) (settings : Settings) (path : String) (rom : Rom)
    (cycles : Nat) : Console Animation × Option (Console.Stop Animation.Error) :=
  match (recorder settings path).load rom with
  | .ok console =>
    console.runTimes (recorderHost settings surroundings.random) recorderWiring cycles
  | .error _ => (recorder settings path, none)

section

variable {surroundings : Surroundings} {settings : Settings} {path : String} {rom : Rom}

/-! ### One recording -/

theorem recording_eq_of_le (h : rom.length ≤ Memory.programCapacity) (cycles : Nat) :
    recording surroundings settings path rom cycles =
      ((recorder settings path).loadIfFits rom).runTimes
        (recorderHost settings surroundings.random) recorderWiring cycles := by
  rw [recording, Console.load_of_le _ h]

/-- A recording that is not stopped can be gone on with. -/
theorem recording_add (h : rom.length ≤ Memory.programCapacity) (n more : Nat) :
    recording surroundings settings path rom (n + more) =
      match recording surroundings settings path rom n with
      | (after, none) =>
        after.runTimes (recorderHost settings surroundings.random) recorderWiring more
      | stopped => stopped := by
  rw [recording_eq_of_le h, recording_eq_of_le h, Console.runTimes_add]
  generalize Console.runTimes (recorderHost settings surroundings.random) recorderWiring n
    ((recorder settings path).loadIfFits rom) = result
  obtain ⟨after, stop⟩ := result
  cases stop <;> rfl

/-- A recording of a program that fits has made the cycles of a bare computer and has got the frames of
it. -/
theorem recording_of_le (surroundings : Surroundings) (path : String) (hscale : 0 < settings.scale)
    (hfits : rom.length ≤ Memory.programCapacity) (cycles : Nat) :
    let host := recorderHost settings surroundings.random
    let result := recording surroundings settings path rom cycles
    let later := (rom.started host).steps host cycles
    result.1.computer = later ∧ result.2 = later.state.halt.map .trap ∧
      result.1.devices =
        Animation.withFrames { scale := settings.scale }
          ((rom.started host).frames host (List.replicate cycles (.step 0))) := by
  intro host result later
  have hloaded : ((recorder settings path).loadIfFits rom).computer = rom.started host :=
    Console.computer_loadIfFits host _ rom
  have hdevices : ((recorder settings path).loadIfFits rom).devices = { scale := settings.scale } :=
    (Console.loadIfFits_keeps (recorder settings path) rom).1
  have hreachable :
      Computer.Reachable host ((recorder settings path).loadIfFits rom).computer := by
    rw [hloaded]
    exact rom.reachable_started host
  have hrun := Console.runTimes_recorder (by rfl) hreachable
    (by rw [hloaded, Rom.started_of_le hfits]; rfl)
    (by rw [hloaded, Rom.started_of_le hfits])
    (by rw [hdevices]; exact hscale)
    cycles
  rw [← show result = _ from recording_eq_of_le hfits cycles, hloaded, hdevices] at hrun
  exact hrun

/-- What a recording has come to when it stops is what it comes to with more cycles, too. -/
theorem recording_of_stop {reason : Console.Stop Animation.Error} {n m : Nat} (hnm : n ≤ m)
    (h : (recording surroundings settings path rom n).2 = some reason) :
    recording surroundings settings path rom m = recording surroundings settings path rom n := by
  obtain ⟨more, rfl⟩ := Nat.exists_eq_add_of_le hnm
  rcases Nat.lt_or_ge Memory.programCapacity rom.length with hlong | hfits
  · simp only [recording, Console.load_of_lt _ hlong]
  · rw [recording_add hfits]
    generalize recording surroundings settings path rom n = result at h
    obtain ⟨after, stop⟩ := result
    obtain rfl : stop = some reason := h
    rfl

/-- The frames of a recording are the first ones of every longer recording. -/
theorem recording_prefix {n m : Nat} (hnm : n ≤ m) :
    (recording surroundings settings path rom n).1.devices.frames.toList <+:
      (recording surroundings settings path rom m).1.devices.frames.toList := by
  obtain ⟨more, rfl⟩ := Nat.exists_eq_add_of_le hnm
  rcases Nat.lt_or_ge Memory.programCapacity rom.length with hlong | hfits
  · simp only [recording, Console.load_of_lt _ hlong]
    exact List.prefix_refl _
  · rw [recording_add hfits]
    generalize recording surroundings settings path rom n = result
    obtain ⟨after, stop⟩ := result
    cases stop with
    | some reason => exact List.prefix_refl _
    | none =>
        have hkeep : ∀ console : Console Animation,
            after.devices.frames.toList <+: console.devices.frames.toList →
            after.devices.frames.toList <+: (console.runOnce (recorderHost settings
              surroundings.random) recorderWiring).1.devices.frames.toList :=
          fun console hconsole => hconsole.trans (Console.prefix_runOnce console)
        exact Console.runTimes_induction hkeep more (List.prefix_refl _)

theorem record_of_lt (hread : surroundings.files.read path = .ok rom)
    (h : Memory.programCapacity < rom.length) :
    record surroundings settings path =
      .done ((Problem.emulation (.oversized rom.length Memory.programCapacity)).report.after
        (settings.threshold.lines [.reading path])) := by
  have hload := (recorder settings path).load_of_lt h
  rw [recorder] at hload
  simp only [record, hread, hload]
  rfl

/-- What a program that fits is recorded to. -/
theorem record_of_le (hread : surroundings.files.read path = .ok rom)
    (h : rom.length ≤ Memory.programCapacity) (cycles : Nat) :
    record surroundings { settings with cycles := cycles } path =
      match recording surroundings settings path rom cycles with
      | (console, some stop) =>
        .done ((stopProblem stop).report.after (settings.threshold.lines console.log.toList))
      | (console, none) =>
        keep { settings with cycles := cycles } (settings.threshold.lines console.log.toList)
          console.devices := by
  have hload := (recorder settings path).load_of_le h
  rw [recording, hload]
  rw [recorder] at hload
  simp only [record, hread, hload]
  rfl

theorem keep_of_empty {log : List String} {animation : Animation}
    (h : animation.frames.size = 0) :
    keep settings log animation =
      .done
        { exit := .emulation
          stderr := log ++
            ["Error: nothing was drawn in " ++ toString settings.cycles ++ " cycles"] } := by
  have hempty : animation.frames.isEmpty = true := by simpa [Array.isEmpty] using h
  rw [keep, Animation.save, if_pos hempty]

theorem keep_of_shots {log : List String} {animation : Animation} {shots : List Animation.Shot}
    (h : animation.frames.size ≠ 0) (hshots : animation.shots Animation.standardTime = .ok shots) :
    keep settings log animation =
      .save settings.out (.ok shots)
        (openReport settings log
          (savedReport settings animation.frames.size
            [.saved animation.frames.size settings.out])) := by
  have hempty : ¬ animation.frames.isEmpty = true := by simpa [Array.isEmpty] using h
  rw [keep, Animation.save, if_neg hempty, hshots]
  rfl

/-- A recording that fails is reported in the same way however many more cycles it is given. -/
theorem record_of_failsWithin (hread : surroundings.files.read path = .ok rom)
    (hscale : 0 < settings.scale) {n : Nat} {failure : Failure}
    (hfails : rom.FailsWithin (recorderHost settings surroundings.random) n failure) :
    ∃ log, ∀ m ≥ n, record surroundings { settings with cycles := m } path =
      .done ((Problem.emulation failure).report.after log) := by
  rcases Nat.lt_or_ge Memory.programCapacity rom.length with hlong | hfits
  · -- The program is too long, and the number of cycles is not even looked at.
    obtain rfl := (Rom.failsWithin_of_lt hlong).mp hfails
    exact ⟨settings.threshold.lines [.reading path], fun m _ => record_of_lt hread hlong⟩
  · -- A trap has stopped the recording, and it stops longer ones at the same cycle.
    obtain ⟨-, hstop, -⟩ :=
      recording_of_le surroundings path hscale hfits n
    have hhalt := (Rom.failsWithin_of_le rfl hfits).mp hfails
    obtain ⟨trap, htrap, rfl⟩ := Option.map_eq_some_iff.mp hhalt
    rw [htrap] at hstop
    refine ⟨settings.threshold.lines
      (recording surroundings settings path rom n).1.log.toList, fun m hm => ?_⟩
    rw [record_of_le hread hfits, recording_of_stop hm hstop]
    generalize recording surroundings settings path rom n = result at hstop
    obtain ⟨console, stop⟩ := result
    obtain rfl : stop = some (.trap trap) := hstop
    rfl

/-- A recording that does not fail keeps the frames of a bare computer. -/
theorem record_of_not_failing (hread : surroundings.files.read path = .ok rom)
    (hscale : 0 < settings.scale) {n : Nat}
    (hsound : ∀ failure,
      ¬ rom.FailsWithin (recorderHost settings surroundings.random) n failure) :
    let host := recorderHost settings surroundings.random
    let animation := (recording surroundings settings path rom n).1.devices
    animation = Animation.withFrames { scale := settings.scale }
        ((rom.started host).frames host (List.replicate n (.step 0))) ∧
      ∃ log, record surroundings { settings with cycles := n } path =
        keep { settings with cycles := n } log animation := by
  obtain ⟨hfits, hhalt⟩ := (Rom.sound_iff rfl).mp hsound
  obtain ⟨-, hstop, hframes⟩ := recording_of_le surroundings path hscale hfits n
  refine ⟨hframes, settings.threshold.lines
    (recording surroundings settings path rom n).1.log.toList, ?_⟩
  rw [hhalt] at hstop
  rw [record_of_le hread hfits]
  generalize recording surroundings settings path rom n = result at hstop
  obtain ⟨console, stop⟩ := result
  obtain rfl : stop = none := hstop
  rfl

/-- A recording that does not fail has a frame for every cycle that has painted. -/
theorem size_recording (hscale : 0 < settings.scale) {n : Nat}
    (hfits : rom.length ≤ Memory.programCapacity) :
    (recording surroundings settings path rom n).1.devices.frames.size =
      (rom.started (recorderHost settings surroundings.random)).paintings
        (recorderHost settings surroundings.random) n := by
  rw [(recording_of_le surroundings path hscale hfits n).2.2, Animation.size_withFrames,
    Computer.length_frames]
  exact Nat.zero_add _

/-- What comes out of recording a file for a number of cycles, told from the cycles of a bare computer
that has no keyboard and no time to wait for a key.

* The program fails: that is reported, and nothing is written.
* No cycle paints: that is an error, and nothing is written.
* Otherwise the frames of all cycles that have painted are written, if one file can hold them: it has a
  picture for each of them, in order, where a picture that is shown for longer stands for equal ones.

One file can hold the frames if no more than 32767 equal ones follow one another.

More cycles add frames to those that there are, but none once a cycle has stalled, and they do not
change how the program has failed. -/
theorem record_outcome (settings : Settings) (hread : surroundings.files.read path = .ok rom)
    (hscale : Settings.scales.contains settings.scale = true) :
    let host : Host :=
      { dialect := settings.dialect, random := surroundings.random, keyWait := some (.whole 0) }
    let computer := rom.started host
    let plan (n : Nat) := record surroundings { settings with cycles := n } path
    let animation (n : Nat) := (recording surroundings settings path rom n).1.devices
    (∀ n, ((∃ failure, rom.FailsWithin host n failure) ∨ computer.paintings host n = 0) →
      (plan n).exitCode? = some 1 ∧ (plan n).written? = none) ∧
    (∀ n, (∀ failure, ¬ rom.FailsWithin host n failure) → computer.paintings host n ≠ 0 →
      ∀ shots, (animation n).shots Animation.standardTime = .ok shots →
        (animation n).frames.size = computer.paintings host n ∧
        List.Forall₂ (fun picture frame => picture.ShowsFrame settings.scale.toNat frame)
          (animation n).pictures (computer.frames host (List.replicate n (.step 0))) ∧
        (plan n).written? = some (settings.out, shots) ∧
        (shots.flatMap fun shot => List.replicate (shot.time / 2) shot.picture) =
          (animation n).pictures ∧
        (∀ shot ∈ shots, ∃ count > 0, shot.time = 2 * count) ∧
        ∃ log, (plan n).report? = some
          { exit := .success
            stdout := [say (toString (computer.paintings host n) ++ " frames written to " ++
              settings.out)]
            stderr := log }) ∧
    (∀ n, (∃ shots, (animation n).shots Animation.standardTime = .ok shots) ↔
      ∀ k canvas, List.replicate k canvas <:+: (animation n).frames.toList → k ≤ 32767) ∧
    (∀ n m, n ≤ m → (animation n).frames.toList <+: (animation m).frames.toList) ∧
    (∀ n failure, rom.FailsWithin host n failure →
      ∃ log, ∀ m ≥ n,
        (plan m).report? = some ((Problem.emulation failure).report.after log)) ∧
    (∀ i, rom.length ≤ Memory.programCapacity → computer.outcomeAt host i = .stalled →
      ∀ j > i,
        (computer.steps host j).state =
            { (computer.steps host i).state with redrawn := false, changes := [] } ∧
          (animation j).frames = (animation i).frames) := by
  intro host computer plan animation
  have hpositive : 0 < settings.scale := (Settings.contains_scales_iff.mp hscale).1
  refine ⟨?_, ?_, fun n => Animation.exists_shots_iff, fun n m hnm => recording_prefix hnm, ?_, ?_⟩
  · intro n hno
    by_cases hfails : ∃ failure, rom.FailsWithin host n failure
    · -- The program fails.
      obtain ⟨failure, hfailure⟩ := hfails
      obtain ⟨log, hlog⟩ := record_of_failsWithin hread hpositive hfailure
      have hplan : plan n = _ := hlog n (Nat.le_refl n)
      rw [hplan]
      exact ⟨rfl, rfl⟩
    · -- It does not, so there is nothing to keep.
      have hnothing := hno.resolve_left hfails
      have hsound : ∀ failure, ¬ rom.FailsWithin host n failure :=
        fun failure hfailure => hfails ⟨failure, hfailure⟩
      have hsize : (animation n).frames.size = computer.paintings host n :=
        size_recording hpositive ((Rom.sound_iff rfl).mp hsound).1
      obtain ⟨-, log, hlog⟩ := record_of_not_failing hread hpositive hsound
      have hplan : plan n = _ := hlog.trans (keep_of_empty (hsize.trans hnothing))
      rw [hplan]
      exact ⟨rfl, rfl⟩
  · -- There is something to keep, and a file for it.
    intro n hsound hpaints shots hshots
    obtain ⟨hanimation, log, hlog⟩ := record_of_not_failing hread hpositive hsound
    have hsize : (animation n).frames.size = computer.paintings host n :=
      size_recording hpositive ((Rom.sound_iff rfl).mp hsound).1
    have hplan : plan n = _ := hlog.trans (keep_of_shots (hsize.trans_ne hpaints) hshots)
    obtain ⟨hpictures, htimes⟩ := Animation.pictures_of_shots hshots
    refine ⟨hsize, ?_, ?_, hpictures, htimes, log ++ settings.threshold.lines
      [.saved (animation n).frames.size settings.out], ?_⟩
    · -- the pictures
      rw [show animation n = _ from hanimation]
      exact Animation.pictures_show _ _
    · -- the file
      rw [hplan]
      rfl
    · -- the report
      rw [hplan, ← hsize]
      rfl
  · -- A failure is not changed by more cycles.
    intro n failure hfailure
    obtain ⟨log, hlog⟩ := record_of_failsWithin hread hpositive hfailure
    refine ⟨log, fun m hm => ?_⟩
    have hplan : plan m = _ := hlog m hm
    rw [hplan]
    rfl
  · -- Nothing is left to happen once a cycle has stalled.
    intro i hfits hstalled j hj
    obtain ⟨more, rfl⟩ := Nat.exists_eq_add_of_lt hj
    have halone : host.LeavesAlone := .of_no_keyboard rfl rfl
    have hreleased : (rom.started host).state.keys = Keypad.released := by
      rw [Rom.started_of_le hfits]
      rfl
    obtain ⟨hstate, hnothing⟩ := Computer.steps_of_stalled halone
      ((rom.reachable_started host).steps i) (Computer.keys_steps_leftAlone halone hreleased i)
      hstalled more
    have hframes : (animation (i + more + 1)).frames.size = (animation i).frames.size := by
      rw [size_recording hpositive hfits, size_recording hpositive hfits, Nat.add_assoc,
        Computer.paintings_add]
      exact congrArg _ hnothing
    refine ⟨?_, ?_⟩
    · rw [Nat.add_assoc, Computer.steps_add]
      exact hstate
    · -- Frames are never taken away, and there are as many as before.
      have hframes' : (animation i).frames.toList <+: (animation (i + more + 1)).frames.toList :=
        recording_prefix (by omega)
      exact (Array.toList_inj.mp (hframes'.eq_of_length (by simpa using hframes.symm))).symm

end

/-- Two programs that paint, of which five cycles are recorded. One clears the screen twice, draws and
waits for a key: the picture of the empty screen is written once, for two frames. The other draws, too,
but then comes to a word that is no instruction. -/
theorem record_outcome_of_waiting :
    let surroundings (rom : Rom) : Surroundings :=
      { files := { kind := fun _ => some .file, read := fun _ => .ok rom } }
    let plan (rom : Rom) (n : Nat) :=
      record (surroundings rom) { Settings.standard .record with cycles := n } "logo.ch8"
    let waiting : Rom := [0x00, 0xE0, 0x00, 0xE0, 0xD0, 0x05, 0xF0, 0x0A]
    let ending : Rom := [0x00, 0xE0, 0xD0, 0x05]
    (∃ empty drawn : Image Nat,
      (plan waiting 5).written? = some ("out.gif", [⟨empty, 4⟩, ⟨drawn, 2⟩]) ∧
      empty.ShowsFrame 4 (List.replicate 32 0) ∧
      drawn.ShowsFrame 4
        ([0xF0, 0x90, 0x90, 0x90, 0xF0].map (· <<< 56) ++ List.replicate 27 0)) ∧
      (plan waiting 5).report?.map (·.stdout) = some ["3 frames written to out.gif"] ∧
      (plan ending 5).exitCode? = some 1 ∧ (plan ending 5).written? = none := by
  intro surroundings plan waiting ending
  let host : Host := recorderHost (Settings.standard .record) fun _ => 0
  let empty : List Nat := List.replicate 32 0
  let drawn : List Nat := [0xF0, 0x90, 0x90, 0x90, 0xF0].map (· <<< 56) ++ List.replicate 27 0
  let animation := (recording (surroundings waiting) (.standard .record) "logo.ch8" waiting 5).1.devices
  have hread : ∀ rom, (surroundings rom).files.read "logo.ch8" = .ok rom := fun _ => rfl
  obtain ⟨-, hwaiting, -⟩ := record_outcome (.standard .record) (hread waiting) (by decide)
  obtain ⟨hending, -⟩ := record_outcome (.standard .record) (hread ending) (by decide)
  have hpaints : (waiting.started host).paintings host 5 = 3 := by decide +kernel
  have hframes : (waiting.started host).frames host (List.replicate 5 (.step 0)) =
      [empty, empty, drawn] := by decide +kernel
  have hsound : ∀ failure, ¬ waiting.FailsWithin host 5 failure :=
    (Rom.sound_iff rfl).mpr ⟨by decide, by decide +kernel⟩
  have htrap : (ending.started host).outcomeAt host 2 = .trapped (.unimplemented 0 0x204) := by
    decide +kernel
  -- The leftmost pixel of the first row is enough to tell the two canvases apart.
  have hdiffer : Animation.canvasOf drawn ≠ Animation.canvasOf empty := fun hsame => by
    have hpixel := congrArg (fun canvas => canvas.image.pixel 0 0) hsame
    simp only [Animation.pixel_canvasOf _ (show 0 < Screen.width by decide)
      (show 0 < Screen.height by decide)] at hpixel
    exact absurd hpixel (by decide)
  have hanimation : animation = Animation.withFrames { scale := 4 } [empty, empty, drawn] := by
    rw [← hframes]
    exact (recording_of_le (surroundings waiting) "logo.ch8" (by decide) (by decide) 5).2.2
  -- Two of the three frames are equal, and follow one another.
  have hcounted : animation.counted =
      [(2, Animation.canvasOf empty), (1, Animation.canvasOf drawn)] := by
    rw [hanimation]
    simp [Animation.counted, Animation.withFrames, Animation.count, hdiffer]
  have hshots : animation.shots Animation.standardTime =
      .ok [⟨animation.enlarged (Animation.canvasOf empty), 4⟩,
        ⟨animation.enlarged (Animation.canvasOf drawn), 2⟩] := by
    rw [Animation.shots_standard_eq_ok_iff, hcounted]
    exact ⟨by simp, rfl⟩
  obtain ⟨-, hshown, hwritten, hpictures, -, log, hreport⟩ :=
    hwaiting 5 hsound (by decide +kernel) _ hshots
  obtain ⟨hcode, hnone⟩ := hending 5 (.inl ⟨_, .trapped (by decide) (by decide) htrap⟩)
  refine ⟨⟨_, _, hwritten, ?_⟩, ?_, hcode, hnone⟩
  · -- The pictures are those of the shots, expanded by their times.
    dsimp only at hshown
    rw [← hpictures] at hshown
    simp only [List.flatMap_cons, List.flatMap_nil, Nat.reduceDiv, List.replicate, List.append_nil,
      List.cons_append, List.nil_append] at hshown
    have hall : List.Forall₂ (fun (picture : Image Nat) frame => picture.ShowsFrame 4 frame)
        [animation.enlarged (Animation.canvasOf empty), animation.enlarged (Animation.canvasOf empty),
          animation.enlarged (Animation.canvasOf drawn)]
        ((waiting.started host).frames host (List.replicate 5 (.step 0))) := hshown
    rw [hframes, List.forall₂_cons, List.forall₂_cons, List.forall₂_cons] at hall
    exact hall.2.imp_right And.left
  · let line (count : Nat) : String :=
      say (toString count ++ " frames written to " ++ (Settings.standard .record).out)
    have hline : line 3 = "3 frames written to out.gif" := by decide +kernel
    rw [hreport]
    exact congrArg (fun text => some [text]) ((congrArg line hpaints).trans hline)

end Plan

end ChipEight
