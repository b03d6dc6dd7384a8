import ChipEight.Desktop.Window
import ChipEight.Proofs.PixelBlocks
import ChipEight.Proofs.Unattended

/-!
# Windows

What happens to a window: ticks and measurements, redraws, keys, and the wish to close it, in any order
(`Happening`). A tick or a measurement comes only while the window asks for such calls, which its record
of events tells (`Window.awaits`). Everything else may come at any time, even to a window that has been
closed.

A tick presents a cycle of the console, or it closes the window because the cycle has failed. What can
become of a window is one of four things (`Window.Step`), and what all of them keep is kept whatever
happens (`Window.after_induction`).
-/

namespace ChipEight

/-! ## Calls

Whether a call is asked for is read off the record of events: it is, if it was scheduled and has not
been unscheduled since. Events that do neither leave that as it was. -/

namespace Callback

/-- Whether a call is asked for after one more event. -/
def heed (callback : Callback) (awaited : Bool) : Event → Bool
  | .scheduled asked _ => awaited || asked == callback
  | .unscheduled declined => awaited && declined != callback
  | _ => awaited

/-- Whether a call is asked for at the end of a record of events. -/
def awaited (callback : Callback) (events : List Event) : Bool :=
  events.foldl callback.heed false

end Callback

/-- Whether an event asks for calls, or asks for no more of them. -/
def Event.isRequest : Event → Bool
  | .scheduled _ _ | .unscheduled _ => true
  | _ => false

/-- Whether an event shows something that there is already. -/
def Event.isShow : Event → Bool
  | .cleared | .imageDrawn | .labelDrawn _ => true
  | _ => false

theorem Event.isRequest_of_isShow {event : Event} (h : event.isShow = true) :
    event.isRequest = false := by
  cases event with
  | cleared | imageDrawn | labelDrawn => rfl
  | _ => cases h

namespace Callback

variable {callback : Callback} {events more : List Event}

theorem awaited_append (events more : List Event) :
    callback.awaited (events ++ more) = more.foldl callback.heed (callback.awaited events) := by
  rw [awaited, List.foldl_append]
  rfl

/-- Other events do not matter to calls. -/
theorem awaited_append_of_no_request (h : ∀ event ∈ more, event.isRequest = false) :
    callback.awaited (events ++ more) = callback.awaited events := by
  rw [awaited_append]
  generalize callback.awaited events = before
  -- The induction is on the events that come later, for calls that are asked for or not.
  induction more with
  | nil => rfl
  | cons first rest ih =>
      have hfirst : callback.heed before first = before := by
        have hno := h first (by simp)
        cases first with
        | scheduled asked interval => cases hno
        | unscheduled declined => cases hno
        | _ => rfl
      rw [List.foldl_cons, hfirst]
      exact ih fun event hevent => h event (by simp [hevent])

end Callback

theorem Outcome.stop?_of_trap? {ε : Type} {outcome : Outcome} {trap : Trap}
    (h : outcome.trap? = some trap) :
    (outcome.stop? : Option (Console.Stop ε)) = some (.trap trap) := by
  cases outcome with
  | trapped | refused =>
      rw [Outcome.trap?, Option.some_inj] at h
      rw [h.symm]
      rfl
  | completed | stalled | abandoned => cases h

/-! ## Panels

Each action of a panel adds events at the end of its record. How many players there are follows from
whether it is sounding. -/

namespace Panel

variable {panel : Panel}

/-- Follows a signal, if there is one. -/
def tell (panel : Panel) : Option Signal → Panel
  | some tone => panel.signal tone
  | none => panel

/-- What is done with a new player. -/
def begun : List Event := [.toneQueued {}, .tonePlayed]

/-- What is done with a player in the end. -/
def ended : List Event := [.tonePaused, .toneDeleted]

/-- What is done with players to follow a signal. -/
def reply (panel : Panel) : Option Signal → List Event
  | some .start => begun
  | some .stop => if panel.sounding then ended else []
  | none => []

/-- Takes the tone away, stops the calls and closes. -/
def shutDown (panel : Panel) : Panel :=
  panel.stopTone.act [.unscheduled .tick, .unscheduled .measure, .closed]

@[simp] theorem act_nil : panel.act [] = panel := by simp [act]

@[simp] theorem events_act (events : List Event) :
    (panel.act events).events.toList = panel.events.toList ++ events := by simp [act]

theorem events_stopTone :
    panel.stopTone.events.toList = panel.events.toList ++ if panel.sounding then ended else [] := by
  rw [stopTone]
  split
  · exact events_act _
  · exact (List.append_nil _).symm

theorem sounding_stopTone : panel.stopTone.sounding = false := by
  rw [stopTone]
  split
  · rfl
  · next hsilent => exact Bool.eq_false_iff.mpr hsilent

theorem events_tell (tone : Option Signal) :
    (panel.tell tone).events.toList = panel.events.toList ++ panel.reply tone := by
  cases tone with
  | none => exact (List.append_nil _).symm
  | some tone =>
      cases tone with
      | start =>
          rw [tell, signal, startTone, events_act]
          rfl
      | stop => exact events_stopTone

theorem sounding_tell (due : Option Signal) :
    (panel.tell due).sounding =
      match due with
      | some .start => true
      | some .stop => false
      | none => panel.sounding := by
  cases due with
  | none => rfl
  | some tone =>
      cases tone with
      | start =>
          rfl
      | stop => exact sounding_stopTone

theorem events_shutDown :
    panel.shutDown.events.toList = panel.events.toList ++
      ((if panel.sounding then ended else []) ++
        [.unscheduled .tick, .unscheduled .measure, .closed]) := by
  rw [shutDown, events_act, events_stopTone, List.append_assoc]

end Panel

/-! ## What happens

The happenings are those that the event loop knows. `Step` tells them apart by what they do to the
console, and every case says how the failure and the number of closings are afterwards. -/

/-- What can happen to a window. -/
inductive Happening
  | tick
  /-- A measurement, and the time that has gone by since the last one. -/
  | measure (elapsed : Quantity)
  | redraw
  | keyPress (symbol : KeySymbol)
  | keyRelease (symbol : KeySymbol)
  /-- The user wishes the window to close. -/
  | close

namespace Window

/-- Whether the window asks for a call. -/
def awaits (window : Window) (callback : Callback) : Bool :=
  callback.awaited window.events.toList

/-- The window after something has happened. Calls that it does not ask for do not come, and a
measurement that cannot be made changes nothing. -/
def happen (window : Window) : Happening → Window
  | .tick => if window.awaits .tick then window.tick else window
  | .measure elapsed =>
    if window.awaits .measure then
      match window.measure elapsed with
      | .ok after => after
      | .error _ => window
    else window
  | .redraw => window.redraw
  | .keyPress symbol => window.keyPress symbol
  | .keyRelease symbol => window.keyRelease symbol
  | .close => window.close

/-- The window after all that has happened, the first thing first. -/
def after (window : Window) (happenings : List Happening) : Window :=
  happenings.foldl happen window

/-- The cycle that a tick would make now. -/
def cycle (window : Window) : Cycle := window.console.cycle window.host

/-- The console after a cycle that has been presented: the panel has the screen, if it was painted on,
and the tone that is due. -/
def presented (window : Window) : Console Panel :=
  { window.console.cycled window.host with
    devices := (wiring.hand window.console.devices window.cycle.state).1.tell
      (Signal.due window.console.playing window.cycle.state.beeping)
    playing := window.cycle.state.beeping
    log := #[] }

/-- What can become of a window when something happens. -/
inductive Step (window : Window) : Happening → Window → Prop
  /-- At most the picture is shown. -/
  | idle {happening : Happening} {after : Window} (events : List Event)
      (no_tick : happening = .tick → window.awaits .tick = false)
      (shows : ∀ event ∈ events, event.isShow = true)
      (console_eq : after.console =
        { window.console with devices := window.console.devices.act events })
      (failure_eq : after.failure = window.failure)
      (closings_eq : after.closings = window.closings) : Step window happening after
  /-- The user closes the window. -/
  | closed {happening : Happening} {after : Window} (no_tick : happening ≠ .tick)
      (console_eq : after.console =
        { window.console with devices := window.console.devices.shutDown })
      (failure_eq : after.failure = window.failure)
      (closings_eq : after.closings = window.closings + 1) : Step window happening after
  /-- A tick presents a cycle. -/
  | presented {after : Window} (awaited : window.awaits .tick = true)
      (goes_on : window.cycle.outcome.goesOn = true)
      (console_eq : after.console = window.presented)
      (failure_eq : after.failure = window.failure)
      (closings_eq : after.closings = window.closings) : Step window .tick after
  /-- A tick fails, and the window closes. -/
  | failed {after : Window} {trap : Trap} (awaited : window.awaits .tick = true)
      (traps : window.cycle.outcome.trap? = some trap)
      (console_eq : after.console =
        { window.console.cycled window.host with
          devices := window.console.devices.shutDown
          log := #[] })
      (failure_eq : after.failure = some trap)
      (closings_eq : after.closings = window.closings + 1) : Step window .tick after

variable {window : Window}

/-! ### Ticks

A tick runs the console once with the panel as its devices. The panel takes every frame and every
signal, so only a trap can stop it. -/

/-- A window does not wait in a tick, so no wait is given up. -/
theorem goesOn_or_trap (window : Window) :
    window.cycle.outcome.goesOn = true ∨ ∃ trap, window.cycle.outcome.trap? = some trap := by
  cases houtcome : window.cycle.outcome with
  | completed => exact .inl rfl
  | stalled => exact .inl rfl
  | trapped trap => exact .inr ⟨trap, rfl⟩
  | refused cause => exact .inr ⟨.halted cause, rfl⟩
  | abandoned error => exact absurd houtcome (State.step_ne_abandoned rfl error)

/-- The panel accepts every frame. -/
theorem hand_wiring (panel : Panel) (state : State) :
    wiring.hand panel state = ((wiring.hand panel state).1, none) := by
  unfold Devices.hand
  split <;> rfl

/-- A frame leaves one event. -/
theorem events_hand (panel : Panel) (state : State) :
    (wiring.hand panel state).1.events.toList = panel.events.toList ++
      if state.redrawn then
        [.imageSet (panel.width * Rgba.size) (PixelBlock.enlarged panel.scale).size]
      else [] := by
  unfold Devices.hand
  split
  · exact Panel.events_act _
  · exact (List.append_nil _).symm

theorem sounding_hand (panel : Panel) (state : State) :
    (wiring.hand panel state).1.sounding = panel.sounding := by
  unfold Devices.hand
  split <;> rfl

theorem updateSpeaker_wiring (console : Console Panel) :
    Console.updateSpeaker wiring console =
      { console with
        devices := console.devices.tell (Signal.due console.playing console.state.beeping)
        playing := console.state.beeping } := by
  obtain ⟨state, usage, panel, playing, log⟩ := console
  -- One case for each way in which the tone and the timer may agree or not.
  cases playing <;> cases hbeeping : state.beeping <;>
    simp [Console.updateSpeaker, wiring, Panel.tell, Signal.due, hbeeping]

theorem runOnce_of_goesOn (h : window.cycle.outcome.goesOn = true) :
    window.console.runOnce window.host wiring =
      ({ window.presented with log := (window.console.cycled window.host).log }, none) := by
  have hstop : ((window.console.cycle window.host).outcome.stop? : Option (Console.Stop Empty)) =
    none := Outcome.stop?_eq_none_iff.mpr h
  rw [Console.runOnce_of_hand (hand_wiring window.console.devices window.cycle.state), hstop,
    updateSpeaker_wiring]
  rfl

theorem runOnce_of_trap {trap : Trap} (h : window.cycle.outcome.trap? = some trap) :
    window.console.runOnce window.host wiring =
      (window.console.cycled window.host, some (.trap trap)) := by
  have hstop : ((window.console.cycle window.host).outcome.stop? : Option (Console.Stop Empty)) =
    some (.trap trap) := Outcome.stop?_of_trap? h
  rw [Console.runOnce_of_hand (hand_wiring window.console.devices window.cycle.state), hstop]

theorem tick_of_goesOn (h : window.cycle.outcome.goesOn = true) :
    window.tick.console = window.presented ∧ window.tick.failure = window.failure ∧
      window.tick.closings = window.closings := by
  rw [tick, runOnce_of_goesOn h]
  exact ⟨rfl, rfl, rfl⟩

theorem tick_of_trap {trap : Trap} (h : window.cycle.outcome.trap? = some trap) :
    window.tick.console =
        { window.console.cycled window.host with
          devices := window.console.devices.shutDown
          log := #[] } ∧
      window.tick.failure = some trap ∧ window.tick.closings = window.closings + 1 := by
  rw [tick, runOnce_of_trap h]
  exact ⟨rfl, rfl, rfl⟩

/-- A tick does not press or release keys. -/
theorem host_tick (window : Window) : window.tick.host = window.host := by
  rcases goesOn_or_trap window with hgoes | ⟨trap, htrap⟩
  · rw [tick, runOnce_of_goesOn hgoes]
    rfl
  · rw [tick, runOnce_of_trap htrap]
    rfl

/-- A tick that is asked for presents a cycle, or it closes the window. -/
theorem step_tick (hawaits : window.awaits .tick = true) : Step window .tick window.tick := by
  rcases goesOn_or_trap window with hgoes | ⟨trap, htrap⟩
  · obtain ⟨hconsole, hfailure, hclosings⟩ := tick_of_goesOn hgoes
    exact .presented hawaits hgoes hconsole hfailure hclosings
  · obtain ⟨hconsole, hfailure, hclosings⟩ := tick_of_trap htrap
    exact .failed hawaits htrap hconsole hfailure hclosings

/-! ### Keys and pictures

No other happening runs a cycle. Escape closes the window, as the user does. -/

theorem step_keyPress (window : Window) (symbol : KeySymbol) :
    Step window (.keyPress symbol) (window.keyPress symbol) := by
  -- Escape, the key that switches the debug log, and keys that are on the keypad or not.
  rw [keyPress]
  split
  · exact .closed nofun rfl rfl rfl
  · split
    · exact .idle [] nofun nofun (by simp [note]) rfl rfl
    · split <;> exact .idle [] nofun nofun (by simp) rfl rfl

theorem step_keyRelease (window : Window) (symbol : KeySymbol) :
    Step window (.keyRelease symbol) (window.keyRelease symbol) := by
  rw [keyRelease]
  split <;> exact .idle [] nofun nofun (by simp) rfl rfl

theorem step_measure (window : Window) (elapsed : Quantity) :
    Step window (.measure elapsed) (window.happen (.measure elapsed)) := by
  -- Nothing happens if it does not come, or if the time cannot be divided by.
  have hnothing : Step window (.measure elapsed) window :=
    .idle [] nofun nofun (by simp) rfl rfl
  rw [happen]
  split
  · split
    · next after hmeasured =>
      rw [measure] at hmeasured
      split at hmeasured
      · cases hmeasured
      · obtain rfl := Except.ok.inj hmeasured
        exact .idle [] nofun nofun (by simp) rfl rfl
    · exact hnothing
  · exact hnothing

theorem step_redraw (window : Window) : Step window .redraw window.redraw := by
  refine .idle [.cleared, .imageDrawn, .labelDrawn window.redrawLabel,
    .labelDrawn window.tickLabel] nofun ?_ rfl rfl rfl
  simp [Event.isShow]

/-- Whatever happens is one of the four things. -/
theorem step_happen (window : Window) (happening : Happening) :
    Step window happening (window.happen happening) := by
  cases happening with
  | tick =>
      cases hawaits : window.awaits .tick with
      | true =>
          rw [happen, if_pos hawaits]
          exact step_tick hawaits
      | false =>
          rw [happen, if_neg (by simp [hawaits])]
          exact .idle [] (fun _ => hawaits) nofun (by simp) rfl rfl
  | measure elapsed => exact step_measure window elapsed
  | redraw => exact step_redraw window
  | keyPress symbol => exact step_keyPress window symbol
  | keyRelease symbol => exact step_keyRelease window symbol
  | close => exact .closed nofun rfl rfl rfl

/-! ### Opening

A window is not opened if its program is too long, if there is no memory for the image, or if there
is no time between two ticks. All else about a window that has just been opened is in `Opened`. -/

/-- A window whose program is in memory and that has yet to be furnished. -/
def unfurnished (setup : Setup) (rom : Rom) : Window :=
  { empty setup with console := (empty setup).console.loadIfFits rom }.showNotices

/-- A window that has just been opened and ticks at an interval. -/
def furnished (setup : Setup) (rom : Rom) (interval : Binary64) : Window :=
  ((unfurnished setup rom).label setup).schedule interval

theorem launch_of_le {setup : Setup} {rom : Rom} (h : rom.length ≤ Memory.programCapacity) :
    (launch setup rom).result =
      match PixelBlock.ofScale setup.memory setup.scale with
      | .error error => .error (.image error)
      | .ok _ =>
        match Quantity.rate 1 setup.ticksPerSecond with
        | .error error => .error (.noTicks error)
        | .ok interval => .ok (furnished setup rom interval) := by
  rw [launch]
  simp only [Console.load_of_le _ h]
  cases PixelBlock.ofScale setup.memory setup.scale with
  | error error => rfl
  | ok block => cases Quantity.rate 1 setup.ticksPerSecond <;> rfl

theorem launch_of_lt {setup : Setup} {rom : Rom} (h : Memory.programCapacity < rom.length) :
    (launch setup rom).result =
      .error (.program (.oversized rom.length Memory.programCapacity)) := by
  rw [launch]
  simp only [Console.load_of_lt _ h]
  rfl

theorem launch_eq_ok {setup : Setup} {rom : Rom} {interval : Binary64} {block : PixelBlock}
    (hfits : rom.length ≤ Memory.programCapacity)
    (hblock : PixelBlock.ofScale setup.memory setup.scale = .ok block)
    (hinterval : Quantity.rate 1 setup.ticksPerSecond = .ok interval) :
    (launch setup rom).result = .ok (furnished setup rom interval) := by
  rw [launch_of_le hfits, hblock, hinterval]

/-- What a window does when it is opened. -/
def openingEvents (setup : Setup) (interval : Binary64) : List Event :=
  [.opened (Screen.width * setup.scale) (Screen.height * setup.scale),
    .labelled "FPS: 0" 5 (Screen.height * setup.scale - 15),
    .labelled "Cycles/s: 0" 5 (Screen.height * setup.scale - 30),
    .scheduled .tick interval, .scheduled .measure measureInterval]

/-- What is true of a window when it has just been opened. -/
structure Opened (setup : Setup) (rom : Rom) (window : Window) : Prop where
  fits : rom.length ≤ Memory.programCapacity
  reserved : ∃ block, PixelBlock.ofScale setup.memory setup.scale = .ok block
  computer_eq : window.console.computer = rom.started window.host
  playing_eq : window.console.playing = false
  devices_eq : ∃ interval, Quantity.rate 1 setup.ticksPerSecond = .ok interval ∧
    window.console.devices = .new setup.scale (openingEvents setup interval).toArray
  dialect_eq : window.dialect = setup.dialect
  random_eq : window.random = setup.random
  pressed_eq : window.pressed = {}
  failure_eq : window.failure = none
  closings_eq : window.closings = 0

/-- The console of a window without a program is a new one, but for what it has told. -/
theorem console_empty (setup : Setup) :
    (empty setup).console.computer = .new {} ∧ (empty setup).console.playing = false ∧
      (empty setup).console.devices = .new setup.scale
        #[.opened (Screen.width * setup.scale) (Screen.height * setup.scale)] := by
  unfold empty
  cases setup.path <;> exact ⟨rfl, rfl, rfl⟩

theorem opened_furnished {setup : Setup} {rom : Rom} {interval : Binary64} {block : PixelBlock}
    (hfits : rom.length ≤ Memory.programCapacity)
    (hblock : PixelBlock.ofScale setup.memory setup.scale = .ok block)
    (hinterval : Quantity.rate 1 setup.ticksPerSecond = .ok interval) :
    Opened setup rom (furnished setup rom interval) := by
  obtain ⟨hcomputer, hplaying, hdevices⟩ := console_empty setup
  obtain ⟨hsame, hstill, -⟩ := Console.loadIfFits_keeps (empty setup).console rom
  refine ⟨hfits, ⟨block, hblock⟩, ?_, hstill.trans hplaying, ⟨interval, hinterval, ?_⟩, rfl, rfl,
    rfl, rfl, rfl⟩
  · -- Nothing but its console knows of the program of a window.
    have hloaded := Console.computer_loadIfFits (furnished setup rom interval).host
      (empty setup).console rom
    rw [hcomputer] at hloaded
    exact hloaded
  · show ((((empty setup).console.loadIfFits rom).devices.act _).act _) = _
    rw [hsame, hdevices]
    rfl

/-- The interval of the standard rate. -/
def standardInterval : Binary64 := Binary64.nearest false ⟨1, 500⟩

theorem rate_standard : Quantity.rate 1 (.whole standardRate) = .ok standardInterval := rfl

/-- A program that fits is opened at every scale for which the bytes of the image can be counted. -/
theorem launch_at_scale (scale : Nat) {rom : Rom} (hscale : 1 < scale)
    (hcountable : 4 * (64 * scale * (32 * scale)) < 2 ^ 63)
    (hfits : rom.length ≤ Memory.programCapacity) :
    (launch { scale := scale } rom).result = .ok (furnished { scale := scale } rom standardInterval) :=
  launch_eq_ok hfits ((PixelBlock.ofScale_eq_ok_iff hscale).mpr ⟨rfl, hcountable, nofun⟩)
    rate_standard

/-- Only what fits is opened. -/
theorem opened_of_launch {setup : Setup} {rom : Rom} (h : (launch setup rom).result = .ok window) :
    Opened setup rom window := by
  rcases Nat.lt_or_ge Memory.programCapacity rom.length with hlong | hfits
  · rw [launch_of_lt hlong] at h
    cases h
  · -- There is memory for the image, and there is a time between two ticks: else it had not opened.
    rw [launch_of_le hfits] at h
    cases hblock : PixelBlock.ofScale setup.memory setup.scale with
    | error error =>
        rw [hblock] at h
        cases h
    | ok block =>
        cases hinterval : Quantity.rate 1 setup.ticksPerSecond with
        | error error =>
            rw [hblock, hinterval] at h
            cases h
        | ok interval =>
            rw [hblock, hinterval] at h
            obtain rfl := Except.ok.inj h
            exact opened_furnished hfits hblock hinterval

/-! ### One thing after the other

Later modules prove what is kept by a `Step` and leave the induction to `after_induction`. -/

@[simp] theorem after_nil : window.after [] = window := rfl

@[simp] theorem after_cons (first : Happening) (rest : List Happening) :
    window.after (first :: rest) = (window.happen first).after rest := rfl

theorem after_append (earlier later : List Happening) :
    window.after (earlier ++ later) = (window.after earlier).after later := List.foldl_append

theorem after_concat (earlier : List Happening) (last : Happening) :
    window.after (earlier ++ [last]) = (window.after earlier).happen last :=
  after_append earlier [last]

/-- What is kept whatever happens to a window holds of it always. -/
theorem after_induction {P : Window → Prop}
    (hkeep : ∀ window happening after, Step window happening after → P window → P after)
    (happenings : List Happening) (h : P window) : P (window.after happenings) := by
  induction happenings generalizing window with
  | nil => exact h
  | cons first rest ih => exact ih (hkeep window first _ (step_happen window first) h)

/-! ### Calls

A window asks for ticks and measurements when it is opened, and closing it is the only thing that
ends this. Frames and tones are no requests. -/

theorem events_presented (window : Window) :
    window.presented.devices.events.toList = window.events.toList ++
      ((if window.cycle.state.redrawn then
        [.imageSet (window.console.devices.width * Rgba.size)
          (PixelBlock.enlarged window.console.devices.scale).size]
      else []) ++
        window.console.devices.reply
          (Signal.due window.console.playing window.cycle.state.beeping)) := by
  rw [presented]
  dsimp only
  have hreply : ∀ tone, (wiring.hand window.console.devices window.cycle.state).1.reply tone =
      window.console.devices.reply tone := by
    intro tone
    unfold Panel.reply
    rw [sounding_hand]
  rw [Panel.events_tell, events_hand, List.append_assoc, hreply]
  rfl

theorem no_request_reply (panel : Panel) (tone : Option Signal) :
    ∀ event ∈ panel.reply tone, event.isRequest = false := by
  unfold Panel.reply
  split
  · decide
  · split <;> decide
  · nofun

/-- A window that has been shut down asks for no call. -/
theorem awaits_of_shutDown {after : Window} {callback : Callback}
    (h : after.console.devices = window.console.devices.shutDown) :
    after.awaits callback = false := by
  rw [awaits, Window.events, h, Panel.events_shutDown, ← List.append_assoc, Callback.awaited_append]
  cases callback <;> simp [Callback.heed]

/-- A window asks for calls as long as it has not been closed. -/
theorem awaits_after {setup : Setup} {rom : Rom} (hopened : Opened setup rom window)
    (happenings : List Happening) (callback : Callback) :
    (window.after happenings).awaits callback =
      decide ((window.after happenings).closings = 0) := by
  revert callback
  apply after_induction (P := fun window => ∀ callback, window.awaits callback =
    decide (window.closings = 0))
  · intro window happening after hstep hbefore callback
    cases hstep with
    | idle events no_tick shows console_eq failure_eq closings_eq =>
        have hevents : after.events.toList = window.events.toList ++ events := by
          rw [Window.events, console_eq]
          exact Panel.events_act events
        rw [awaits, hevents, closings_eq, Callback.awaited_append_of_no_request
          fun event hevent => Event.isRequest_of_isShow (shows event hevent)]
        exact hbefore callback
    | closed no_tick console_eq failure_eq closings_eq =>
        rw [awaits_of_shutDown (congrArg Console.devices console_eq), closings_eq]
        rfl
    | presented awaited goes_on console_eq failure_eq closings_eq =>
        have hevents := events_presented window
        rw [← console_eq] at hevents
        rw [awaits, Window.events, hevents, closings_eq, Callback.awaited_append_of_no_request]
        · exact hbefore callback
        · intro event hevent
          rcases List.mem_append.mp hevent with hframe | htone
          · split at hframe
            · rw [List.mem_singleton.mp hframe]
              rfl
            · cases hframe
          · exact no_request_reply _ _ event htone
    | failed awaited traps console_eq failure_eq closings_eq =>
        rw [awaits_of_shutDown (congrArg Console.devices console_eq), closings_eq]
        rfl
  · intro callback
    obtain ⟨interval, -, hdevices⟩ := hopened.devices_eq
    rw [awaits, Window.events, hdevices, hopened.closings_eq]
    cases callback <;> rfl

end Window

end ChipEight
