import ChipEight.Proofs.Recording
import ChipEight.Proofs.Requests
import ChipEight.Proofs.Windows

/-!
# Two front ends

A program can be recorded, or it can be played in a window. If nobody presses a key, the window makes the
cycles that the recording makes: both are those of a computer that is left alone, and whether it has a
keyboard makes no difference to it (`Computer.steps_leftAlone`). A recording stops at a trap, and a window
is closed by it.

So both commands end in the same way (`Plan.front_ends_agree`), but for a recording that has nothing to
write.
-/

namespace ChipEight

/-! ## Windows that tick

`Unattended` is what a tick preserves: the window is open, its host has not changed, and its
computer is running without patience. A tick makes one cycle then. If the cycle goes on, the window
is unattended again; if it traps, the window closes, the computer is halted, and neither does
anything any more. The recording counts the frames of its computer in the same way, so the pictures
of the window are counted by cycles too. -/

/-- Whether an event replaces the image. -/
def Event.isPicture : Event → Bool
  | .imageSet _ _ => true
  | _ => false

theorem Panel.countP_reply (panel : Panel) (due : Option Signal) :
    (panel.reply due).countP Event.isPicture = 0 := by
  unfold reply
  split
  · rfl
  · split <;> rfl
  · rfl

namespace Window

open Plan.act (tickUntilClosed)

/-- How often the image of the window has been replaced. -/
def pictures (window : Window) : Nat := window.events.toList.countP Event.isPicture

/-- The window is open, and its computer has been left alone. -/
structure Unattended (host : Host) (window : Window) : Prop where
  host_eq : window.host = host
  reachable : Computer.Reachable host window.console.computer
  patience_eq : window.console.computer.usage.patience = 0
  running : window.console.computer.state.halt = none
  failure_eq : window.failure = none
  closings_eq : window.closings = 0

variable {host : Host} {setup : Setup} {rom : Rom} {window : Window}

theorem unattended_of_opened (h : Opened setup rom window) : Unattended window.host window := by
  have hcomputer := h.computer_eq
  refine ⟨rfl, ?_, ?_, ?_, h.failure_eq, h.closings_eq⟩
  · rw [hcomputer]
    exact rom.reachable_started window.host
  · rw [hcomputer, Rom.started_of_le h.fits]
  · rw [hcomputer, Rom.started_of_le h.fits]
    rfl

theorem tickUntilClosed_of_closed (h : window.closings ≠ 0) (count : Nat) :
    tickUntilClosed count window = window := by
  cases count with
  | zero => rfl
  | succ count => exact if_pos (Nat.pos_of_ne_zero h)

theorem tickUntilClosed_of_open (h : window.closings = 0) (count : Nat) :
    tickUntilClosed (count + 1) window = tickUntilClosed count window.tick :=
  if_neg (by omega)

theorem computer_tick (window : Window) :
    window.tick.console.computer =
      window.console.computer.call window.host (.step window.console.computer.usage.patience) := by
  rcases goesOn_or_trap window with hgoes | ⟨trap, htrap⟩
  · rw [(tick_of_goesOn hgoes).1]
    rfl
  · rw [(tick_of_trap htrap).1]
    rfl

/-- The image is replaced by a tick whose cycle goes on and has painted. -/
theorem pictures_tick (window : Window) :
    window.tick.pictures = window.pictures +
      if window.cycle.outcome.goesOn && window.cycle.state.redrawn then 1 else 0 := by
  rcases goesOn_or_trap window with hgoes | ⟨trap, htrap⟩
  · -- Telling the speaker adds no picture.
    rw [pictures, Window.events, (tick_of_goesOn hgoes).1, events_presented, hgoes, Bool.true_and,
      List.countP_append, List.countP_append, Panel.countP_reply]
    split <;> rfl
  · have hfails : window.cycle.outcome.goesOn = false :=
      Outcome.goesOn_of_stop? (Outcome.stop?_of_trap? (ε := Empty) htrap)
    rw [pictures, Window.events, (tick_of_trap htrap).1, Panel.events_shutDown, hfails,
      List.countP_append, List.countP_append]
    split <;> rfl

/-- After so many ticks, or as many as there are before it closes, a window has made the cycles of its
computer, and its image was replaced at each of them that has painted. It has failed by the trap that
halts the computer. -/
theorem Unattended.ticks (h : Unattended host window) (hwait : host.keyWait = some (.whole 0))
    (count : Nat) :
    let after := tickUntilClosed count window
    let later := window.console.computer.steps host count
    after.console.computer = later ∧ after.failure = later.state.halt ∧
      after.pictures = window.pictures + window.console.computer.paintings host count := by
  induction count generalizing window with
  | zero => exact ⟨rfl, h.failure_eq.trans h.running.symm, rfl⟩
  | succ count ih =>
      have hcycle : window.cycle = window.console.computer.cycle host 0 := by
        rw [cycle, h.host_eq]
        exact Console.cycle_eq_of_no_patience h.patience_eq
      have hcomputer := computer_tick window
      rw [h.host_eq, h.patience_eq] at hcomputer
      have hpictures := pictures_tick window
      rw [hcycle, ← Computer.paintsAt_zero] at hpictures
      have hpatient : (window.console.computer.call host (.step 0)).usage.patience = 0 :=
        State.patience_step hwait
      dsimp only
      rw [tickUntilClosed_of_open h.closings_eq, Computer.steps_succ, Computer.paintings_succ,
        ← Nat.add_assoc, ← hpictures]
      rcases Computer.cycle_goesOn_or_trapped h.running hwait with
        ⟨hgoes, hrunning⟩ | ⟨trap, htrapped, hhalted⟩
      · have hgoes' : window.cycle.outcome.goesOn = true := by rw [hcycle, hgoes]
        obtain ⟨-, hfailure, hclosings⟩ := tick_of_goesOn hgoes'
        have htick : Unattended host window.tick :=
          { host_eq := (host_tick window).trans h.host_eq
            reachable := hcomputer ▸ h.reachable.steps 1
            patience_eq := hcomputer ▸ hpatient
            running := hcomputer ▸ hrunning
            failure_eq := hfailure.trans h.failure_eq
            closings_eq := hclosings.trans h.closings_eq }
        have hlater := ih htick
        rw [hcomputer] at hlater
        exact hlater
      · -- The window is closed and its computer is halted, so nothing happens any more.
        have htrap : window.cycle.outcome.trap? = some trap := by
          rw [hcycle, htrapped]
          rfl
        obtain ⟨-, hfailure, hclosings⟩ := tick_of_trap htrap
        obtain ⟨hsteps, hnone⟩ := Computer.steps_of_halted hhalted hpatient count
        rw [tickUntilClosed_of_closed (by omega), hsteps, hnone]
        exact ⟨hcomputer, hfailure.trans hhalted.symm, rfl⟩

/-- There is a block of pixels for every scale that can be asked for. -/
theorem exists_block {scale : Int} (h : Settings.scales.contains scale = true) :
    ∃ block, PixelBlock.ofScale none scale = .ok block := by
  obtain ⟨hlow, hhigh⟩ := Settings.contains_scales_iff.mp h
  obtain ⟨scale, rfl⟩ := Int.eq_ofNat_of_zero_le (a := scale) (by omega)
  refine (PixelBlock.exists_ofScale_iff (by omega)).mpr (.inr ⟨?_, nofun⟩)
  have hpixels : 64 * scale * (32 * scale) ≤ 64 * 40 * (32 * 40) :=
    Nat.mul_le_mul (by omega) (by omega)
  omega

end Window

/-! ## Playing files

Before the first tick the file is read, the window is opened, and the program is loaded, and any of
these can fail. The lemmas take the failures one at a time, and what is left is a window that ticks. -/

namespace Plan

variable {surroundings : Surroundings} {settings : Settings} {path : String} {rom : Rom}
  {opened : Window}

theorem exists_opened (surroundings : Surroundings) (path : String)
    (hscale : Settings.scales.contains settings.scale = true) (hrate : settings.rate ≠ 0)
    (hfits : rom.length ≤ Memory.programCapacity) :
    ∃ opened, (Window.launch (setup surroundings settings path) rom).result = .ok opened := by
  obtain ⟨block, hblock⟩ := Window.exists_block hscale
  exact ⟨_, Window.launch_eq_ok hfits hblock (if_neg hrate)⟩

/-- A program that is too long is not played. -/
theorem playInWindow_of_lt (hread : surroundings.files.read path = .ok rom)
    (hwindow : surroundings.windowError = none) (hlong : Memory.programCapacity < rom.length)
    (actions : List UserAction) :
    ∃ log, (playInWindow { surroundings with actions := actions } settings path).report? =
      some ((Problem.emulation (.oversized rom.length Memory.programCapacity)).report.after log) := by
  have hrefused : (Window.launch (setup surroundings settings path) rom).result =
      .error (.program (.oversized rom.length Memory.programCapacity)) := Window.launch_of_lt hlong
  rw [setup] at hrefused
  rw [playInWindow, hwindow]
  dsimp only [setup]
  rw [hread]
  dsimp only
  rw [hrefused]
  exact ⟨_, rfl⟩

/-- A window in which a file is played is left by itself after so many ticks. -/
theorem playInWindow_of_launch (hread : surroundings.files.read path = .ok rom)
    (hwindow : surroundings.windowError = none)
    (hlaunch : (Window.launch (setup surroundings settings path) rom).result = .ok opened)
    (count : Nat) :
    ∃ log, (playInWindow { surroundings with actions := [.ticks count] } settings path).report? =
      some (Report.after
        (match (act opened (.ticks count)).failure with
        | none => { exit := .success }
        | some trap => (Problem.emulation (.trap trap)).report)
        log) := by
  have hclosings := (Window.opened_of_launch hlaunch).closings_eq
  have hplay : play opened [.ticks count] = act opened (.ticks count) := if_neg (by omega)
  rw [setup] at hlaunch
  rw [playInWindow, hwindow]
  dsimp only [setup]
  rw [hread]
  dsimp only
  rw [hlaunch]
  dsimp only
  rw [hplay]
  exact ⟨_, rfl⟩

/-- The arguments of a command are carried out as the request that they make. -/
theorem ofArguments_of_command {command : Command} {typed : List String} {request : Request}
    (h : Request.ofCommand surroundings.files command typed = .ok request) :
    ofArguments surroundings (command.name :: typed) = ofRequest surroundings request := by
  rw [ofArguments, if_neg (by simp), Request.ofArguments_of_command h]

/-! ## Agreement

Both commands are compared with one computer that is left alone on the host of the recording. The
window reaches its states by ticks and the recording by cycles, and neither is compared with the
other one directly. -/

/-- A window that ticks by itself makes the cycles of any computer that is left alone with the same
program, dialect and random bytes. -/
theorem ticks_leftAlone
    (hlaunch : (Window.launch (setup surroundings settings path) rom).result = .ok opened)
    (host : Host) (halone : host.LeavesAlone) (hdialect : settings.dialect = host.dialect)
    (hrandom : surroundings.random = host.random) (count : Nat) :
    let window := act opened (.ticks count)
    let later := (rom.started host).steps host count
    window.console.state = later.state ∧ window.console.usage.drawn = later.usage.drawn ∧
      window.failure = later.state.halt ∧
      window.pictures = (rom.started host).paintings host count := by
  intro window later
  have hopened := Window.opened_of_launch hlaunch
  -- The window's keyboard has nothing to report, for nobody has pressed a key in a new window.
  have hwindow : opened.host.LeavesAlone := by
    refine .of_no_keys rfl ?_
    rw [Window.host, Window.pressedKeys, hopened.pressed_eq]
    rfl
  have hdialects : opened.host.dialect = host.dialect := hopened.dialect_eq.trans hdialect
  have hrandoms : opened.host.random = host.random := hopened.random_eq.trans hrandom
  have hstarted : opened.console.computer = rom.started host := by
    rw [hopened.computer_eq, Rom.started_of_le hopened.fits, Rom.started_of_le hopened.fits]
  have hreachable := rom.reachable_started host
  have hkeys : (rom.started host).state.keys = Keypad.released := by
    rw [Rom.started_of_le hopened.fits]
    rfl
  have hnone : opened.pictures = 0 := by
    obtain ⟨interval, -, hdevices⟩ := hopened.devices_eq
    rw [Window.pictures, Window.events, hdevices]
    rfl
  obtain ⟨hcomputer, hfailure, hpictures⟩ :=
    (Window.unattended_of_opened hopened).ticks rfl count
  obtain ⟨hstates, hdrawn, -⟩ :=
    Computer.steps_leftAlone halone hwindow hdialects hrandoms hreachable rfl rfl hkeys count
  have hpaintings :=
    Computer.paintings_leftAlone halone hwindow hdialects hrandoms hreachable rfl rfl hkeys count
  rw [hstarted] at hcomputer hfailure hpictures
  refine ⟨(congrArg Computer.state hcomputer).trans hstates,
    (congrArg (·.usage.drawn) hcomputer).trans hdrawn,
    hfailure.trans (congrArg State.halt hstates), hpictures.trans ?_⟩
  rw [hnone, Nat.zero_add, hpaintings]

/-- So it is what a recording of the same program is after as many cycles: the computers are in the same
state, as many frames were drawn, and what has stopped the recording has closed the window. -/
theorem ticks_follow_recording {played recorded : Settings}
    (hdialect : played.dialect = recorded.dialect) (hscale : 0 < recorded.scale)
    (hlaunch : (Window.launch (setup surroundings played path) rom).result = .ok opened)
    (count : Nat) :
    let window := act opened (.ticks count)
    let result := recording surroundings recorded path rom count
    window.console.state = result.1.state ∧
      window.console.usage.drawn = result.1.usage.drawn ∧
      result.2 = window.failure.map .trap ∧
      window.pictures = result.1.devices.frames.size := by
  intro window result
  obtain ⟨hstate, hdrawn, hfailure, hpictures⟩ :=
    ticks_leftAlone hlaunch (recorderHost recorded surroundings.random)
      (.of_no_keyboard rfl rfl) hdialect rfl count
  have hfits := (Window.opened_of_launch hlaunch).fits
  obtain ⟨hcomputer, hstop, -⟩ := recording_of_le surroundings path hscale hfits count
  exact ⟨hstate.trans (congrArg Computer.state hcomputer).symm,
    hdrawn.trans (congrArg (·.usage.drawn) hcomputer).symm,
    hstop.trans (congrArg (Option.map Console.Stop.trap) hfailure.symm),
    hpictures.trans (size_recording hscale hfits).symm⟩

/-- A failure ends a recording, and a window that ticks as often, with the same report. -/
theorem report_of_failsWithin {played recorded : Settings}
    (hread : surroundings.files.read path = .ok rom)
    (hwindow : surroundings.windowError = none) (hdialect : played.dialect = recorded.dialect)
    (hplayed : Settings.scales.contains played.scale = true)
    (hrecorded : Settings.scales.contains recorded.scale = true)
    (hrate : played.rate ≠ 0)
    {count : Nat} {failure : Failure}
    (hfails : rom.FailsWithin (recorderHost recorded surroundings.random) count failure) :
    (∃ log, (record surroundings { recorded with cycles := count } path).report? =
        some ((Problem.emulation failure).report.after log)) ∧
      ∃ log, (playInWindow { surroundings with actions := [.ticks count] } played path).report? =
        some ((Problem.emulation failure).report.after log) := by
  have hscale : 0 < recorded.scale := (Settings.contains_scales_iff.mp hrecorded).1
  refine ⟨?_, ?_⟩
  · obtain ⟨log, hlog⟩ := record_of_failsWithin hread hscale hfails
    refine ⟨log, ?_⟩
    rw [hlog count (Nat.le_refl count)]
    rfl
  · rcases Nat.lt_or_ge Memory.programCapacity rom.length with hlong | hfits
    · -- The program does not fit, and no window makes a cycle.
      obtain rfl := (Rom.failsWithin_of_lt hlong).mp hfails
      exact playInWindow_of_lt hread hwindow hlong [.ticks count]
    · -- It fits, so the failure is the trap of one of the cycles.
      obtain ⟨opened, hlaunch⟩ :=
        exists_opened surroundings path hplayed hrate hfits
      obtain ⟨log, hlog⟩ := playInWindow_of_launch hread hwindow hlaunch count
      obtain ⟨-, -, hfailure, -⟩ :=
        ticks_leftAlone hlaunch (recorderHost recorded surroundings.random)
          (.of_no_keyboard rfl rfl) hdialect rfl count
      obtain ⟨trap, htrap, rfl⟩ := Option.map_eq_some_iff.mp
        ((Rom.failsWithin_of_le rfl hfits).mp hfails)
      rw [hfailure, htrap] at hlog
      exact ⟨log, hlog⟩

/-- A window that ticks and does not fail is left with success. -/
theorem exitCode?_of_not_failing {played recorded : Settings}
    (hread : surroundings.files.read path = .ok rom)
    (hwindow : surroundings.windowError = none) (hdialect : played.dialect = recorded.dialect)
    (hplayed : Settings.scales.contains played.scale = true)
    (hrate : played.rate ≠ 0) {count : Nat}
    (hsound : ∀ failure,
      ¬ rom.FailsWithin (recorderHost recorded surroundings.random) count failure) :
    (playInWindow { surroundings with actions := [.ticks count] } played path).exitCode? =
      some 0 := by
  obtain ⟨hfits, hhalt⟩ := (Rom.sound_iff rfl).mp hsound
  obtain ⟨opened, hlaunch⟩ := exists_opened surroundings path hplayed hrate hfits
  obtain ⟨log, hlog⟩ := playInWindow_of_launch hread hwindow hlaunch count
  obtain ⟨-, -, hfailure, -⟩ := ticks_leftAlone hlaunch (recorderHost recorded surroundings.random)
    (.of_no_keyboard rfl rfl) hdialect rfl count
  rw [hfailure, hhalt] at hlog
  rw [exitCode?, hlog]
  rfl

/-- Playing a file and recording it agree, where a window in which nobody presses a key ticks `n` times
and the recording makes `n` cycles.

* If the program fits, the window opens. The computer in it is in the state that the recorded one is in
  after as many cycles, and as many pictures were drawn. Both are stopped by the same trap after the same
  cycle, if they are.
* If the program does not fit or fails, both commands report that failure.
* Otherwise the window is left with success. So is the recording, unless nothing was drawn.

What the hypotheses ask of the settings is true of all that the arguments of the two commands can ask for,
if the same switches for the dialect are among them (`Request.agree_of_run`). -/
theorem front_ends_agree (played recorded : Settings)
    (hread : surroundings.files.read path = .ok rom)
    (hwindow : surroundings.windowError = none) (hdialect : played.dialect = recorded.dialect)
    (hplayed : Settings.scales.contains played.scale = true)
    (hrecorded : Settings.scales.contains recorded.scale = true)
    (hrate : played.rate ≠ 0) :
    let host : Host :=
      { dialect := recorded.dialect, random := surroundings.random, keyWait := some (.whole 0) }
    let shown (n : Nat) := playInWindow { surroundings with actions := [.ticks n] } played path
    let kept (n : Nat) := record surroundings { recorded with cycles := n } path
    let result (n : Nat) := recording surroundings recorded path rom n
    (rom.length ≤ Memory.programCapacity →
      ∃ opened, (Window.launch (setup surroundings played path) rom).result = .ok opened ∧
        ∀ n, let window := act opened (.ticks n)
          window.console.state = (result n).1.state ∧
          window.console.usage.drawn = (result n).1.usage.drawn ∧
          (result n).2 = window.failure.map .trap ∧
          window.pictures = (result n).1.devices.frames.size) ∧
    (∀ n failure, rom.FailsWithin host n failure →
      (Problem.emulation failure).report.exit.code = 1 ∧
      (∃ log, (kept n).report? = some ((Problem.emulation failure).report.after log)) ∧
      ∃ log, (shown n).report? = some ((Problem.emulation failure).report.after log)) ∧
    (∀ n, (∀ failure, ¬ rom.FailsWithin host n failure) →
      (shown n).exitCode? = some 0 ∧
      ((result n).1.devices.frames.size = 0 → (kept n).exitCode? = some 1) ∧
      ((result n).1.devices.frames.size ≠ 0 →
        ∀ shots, (result n).1.devices.shots Animation.standardTime = .ok shots →
          (kept n).exitCode? = some 0)) := by
  intro host shown kept result
  have hscale : 0 < recorded.scale := (Settings.contains_scales_iff.mp hrecorded).1
  refine ⟨?_, ?_, ?_⟩
  · -- a program that fits, window and recording side by side
    intro hfits
    obtain ⟨opened, hlaunch⟩ := exists_opened surroundings path hplayed hrate hfits
    exact ⟨opened, hlaunch, ticks_follow_recording hdialect hscale hlaunch⟩
  · -- a failure of both
    intro n failure hfails
    exact ⟨rfl, report_of_failsWithin hread hwindow hdialect hplayed hrecorded hrate hfails⟩
  · -- no failure
    intro n hsound
    obtain ⟨-, log, hlog⟩ := record_of_not_failing hread hscale hsound
    refine ⟨exitCode?_of_not_failing hread hwindow hdialect hplayed hrate hsound, ?_, ?_⟩
    · -- Nothing was drawn, and the recording has nothing to write.
      intro hempty
      have hkeep : kept n = _ := hlog.trans (keep_of_empty hempty)
      rw [hkeep]
      rfl
    · intro hpainted shots hshots
      have hkeep : kept n = _ := hlog.trans (keep_of_shots hpainted hshots)
      rw [hkeep]
      rfl

/-- Two programs that clear the screen, played and recorded for three cycles with a switch for the dialect.
One stores two registers then, which moves the index in that dialect, and waits for a key. The other draws,
and comes to a word that is no instruction. -/
theorem front_ends_agree_of_waiting :
    let surroundings (rom : Rom) : Surroundings :=
      { files := { kind := fun _ => some .file, read := fun _ => .ok rom }, actions := [.ticks 3] }
    let shown (rom : Rom) :=
      ofArguments (surroundings rom) ["run", "--legacy-load-store", "logo.ch8"]
    let kept (rom : Rom) :=
      ofArguments (surroundings rom) ["record", "-n", "3", "--legacy-load-store", "logo.ch8"]
    let played : Settings := { scale := 10, dialect := { loadStoreMovesIndex := true } }
    let recorded : Settings := { scale := 4, cycles := 3, dialect := { loadStoreMovesIndex := true } }
    let waiting : Rom := [0x00, 0xE0, 0xF1, 0x55, 0xF0, 0x0A]
    let ending : Rom := [0x00, 0xE0, 0xD0, 0x05]
    let result (rom : Rom) := recording (surroundings rom) recorded "logo.ch8" rom 3
    let trap : Trap := .unimplemented 0 0x204
    let line := "Error: unimplemented instruction: opcode 0000 at 204"
    (∃ opened,
      (Window.launch (setup (surroundings waiting) played "logo.ch8") waiting).result = .ok opened ∧
      let window := act opened (.ticks 3)
      window.console.state = (result waiting).1.state ∧ window.console.state.index = 2 ∧
        window.failure = none ∧ (result waiting).2 = none ∧
        window.pictures = 1 ∧ (result waiting).1.devices.frames.size = 1) ∧
    (∃ opened,
      (Window.launch (setup (surroundings ending) played "logo.ch8") ending).result = .ok opened ∧
      let window := act opened (.ticks 3)
      window.console.state = (result ending).1.state ∧
        window.failure = some trap ∧ (result ending).2 = some (.trap trap) ∧
        window.pictures = 2 ∧ (result ending).1.devices.frames.size = 2) ∧
    (shown waiting).exitCode? = some 0 ∧ (kept waiting).exitCode? = some 0 ∧
      (∃ log, (shown ending).report? = some { exit := .emulation, stderr := log ++ [line] }) ∧
      ∃ log, (kept ending).report? = some { exit := .emulation, stderr := log ++ [line] } := by
  intro surroundings shown kept played recorded waiting ending result trap line
  let host : Host := recorderHost recorded fun _ => 0
  have hplayed : ∀ rom, Request.ofCommand (surroundings rom).files .play
      ["--legacy-load-store", "logo.ch8"] = .ok (.run .play played "logo.ch8") := fun _ => rfl
  have hrecorded : ∀ rom, Request.ofCommand (surroundings rom).files .record
      ["-n", "3", "--legacy-load-store", "logo.ch8"] = .ok (.run .record recorded "logo.ch8") :=
    fun _ => rfl
  have hshown : ∀ rom, shown rom = playInWindow (surroundings rom) played "logo.ch8" :=
    fun rom => ofArguments_of_command (hplayed rom)
  have hkept : ∀ rom, kept rom = record (surroundings rom) recorded "logo.ch8" :=
    fun rom => ofArguments_of_command (hrecorded rom)
  have hread : ∀ rom, (surroundings rom).files.read "logo.ch8" = .ok rom := fun _ => rfl
  obtain ⟨hdialect, hscale, hscale', hrate⟩ :=
    Request.agree_of_run (hplayed waiting) (hrecorded waiting) rfl rfl rfl rfl
  obtain ⟨hsame, -, hwaiting⟩ :=
    front_ends_agree played recorded (hread waiting) rfl hdialect hscale hscale' hrate
  obtain ⟨hsame', hending, -⟩ :=
    front_ends_agree played recorded (hread ending) rfl hdialect hscale hscale' hrate
  -- What the recordings come to is what bare computers do in three cycles.
  have hcycles : ∀ rom : Rom, rom.length ≤ Memory.programCapacity →
      let later := (rom.started host).steps host 3
      (result rom).1.state.index = later.state.index ∧
        (result rom).2 = later.state.halt.map .trap ∧
        (result rom).1.devices.frames.size = (rom.started host).paintings host 3 := by
    intro rom hfits later
    obtain ⟨hcomputer, hstop, -⟩ :=
      recording_of_le (surroundings rom) "logo.ch8" (by decide : 0 < recorded.scale) hfits 3
    exact ⟨congrArg (·.state.index) hcomputer, hstop, size_recording (by decide) hfits⟩
  obtain ⟨hindex, hstop, hsize⟩ := hcycles waiting (by decide)
  obtain ⟨-, hstop', hsize'⟩ := hcycles ending (by decide)
  have hsound : ∀ failure, ¬ waiting.FailsWithin host 3 failure :=
    (Rom.sound_iff rfl).mpr ⟨by decide, by decide +kernel⟩
  have hhalt : ((waiting.started host).steps host 3).state.halt = none := by decide +kernel
  have hhalt' : ((ending.started host).steps host 3).state.halt = some trap := by decide +kernel
  rw [hhalt] at hstop
  rw [hhalt'] at hstop'
  rw [show (waiting.started host).paintings host 3 = 1 by decide +kernel] at hsize
  rw [show (ending.started host).paintings host 3 = 2 by decide +kernel] at hsize'
  have htrap : (ending.started host).outcomeAt host 2 = .trapped trap := by decide +kernel
  have hline : (Problem.emulation (.trap trap)).report = { exit := .emulation, stderr := [line] } := by
    decide +kernel
  obtain ⟨shots, hshots⟩ : ∃ shots,
      (result waiting).1.devices.shots Animation.standardTime = .ok shots := by
    -- One frame cannot be too long a row of equal ones.
    refine Animation.exists_shots_iff.mpr fun k canvas hrow => ?_
    have hlength := hrow.length_le
    rw [List.length_replicate, Array.length_toList, hsize] at hlength
    omega
  obtain ⟨hleft, -, hwritten⟩ := hwaiting 3 hsound
  obtain ⟨-, ⟨log, hreported⟩, log', hreported'⟩ :=
    hending 3 _ (.trapped (by decide) (by decide) htrap)
  rw [hline] at hreported hreported'
  rw [hshown, hkept, hshown, hkept]
  refine ⟨?_, ?_, hleft, hwritten (hsize.trans_ne Nat.one_ne_zero) shots hshots,
    ⟨log', hreported'⟩, log, hreported⟩
  · obtain ⟨opened, hlaunch, hticks⟩ := hsame (by decide)
    obtain ⟨hstate, -, hstopped, hpictures⟩ := hticks 3
    have hmoved : (result waiting).1.state.index = 2 := hindex.trans (by decide +kernel)
    exact ⟨opened, hlaunch, hstate, hstate ▸ hmoved,
      Option.map_eq_none_iff.mp (hstopped.symm.trans hstop), hstop, hpictures.trans hsize, hsize⟩
  · obtain ⟨opened, hlaunch, hticks⟩ := hsame' (by decide)
    obtain ⟨hstate, -, hstopped, hpictures⟩ := hticks 3
    obtain ⟨cause, hcause, hsame⟩ := Option.map_eq_some_iff.mp (hstopped.symm.trans hstop')
    obtain rfl : cause = trap := Console.Stop.trap.inj hsame
    exact ⟨opened, hlaunch, hstate, hcause, hstop', hpictures.trans hsize', hsize'⟩

end Plan

end ChipEight
