import Mathlib.Data.List.Induction
import Mathlib.Data.List.ModifyLast
import ChipEight.Proofs.Speaker
import ChipEight.Proofs.Windows

/-!
# Tone players

A window makes a player for every tone and has to give it back. What was done with each player can be
read off the window's record of events (`Event.players`): every one of them is given a tone, played, and
then paused and deleted before there is another. So there is at most one at a time that has not been
deleted. There is one just when the tone sounds, and none once the window has closed
(`Window.players_follow_tone`).
-/

namespace ChipEight

/-! ## Players

The record of a window is one list of events, with those of the players among others. A new player
begins with the tone that is queued, and what comes later is done with the newest player, because
the window keeps no other. So the list falls apart into lives, one for each player. -/

namespace Event

/-- Whether an event is something done with a player. -/
def isTone : Event → Bool
  | .toneQueued _ | .tonePlayed | .tonePaused | .toneDeleted => true
  | _ => false

theorem isTone_of_isShow {event : Event} (h : event.isShow = true) : event.isTone = false := by
  cases event with
  | cleared | imageDrawn | labelDrawn => rfl
  | _ => cases h

/-- The players after one more event. A new one is given a tone first; everything else is done with the
newest. -/
def enlist (players : List (List Event)) (event : Event) : List (List Event) :=
  match event with
  | .toneQueued _ => players ++ [[event]]
  | .tonePlayed | .tonePaused | .toneDeleted => players.modifyLast (· ++ [event])
  | _ => players

/-- The players in a record of events, the oldest first, each as what was done with it. -/
def players (events : List Event) : List (List Event) := events.foldl enlist []

variable {events more : List Event}

theorem players_append (events more : List Event) :
    players (events ++ more) = more.foldl enlist (players events) := List.foldl_append

theorem players_append_of_no_tone (h : ∀ event ∈ more, event.isTone = false) :
    players (events ++ more) = players events := by
  rw [players_append]
  generalize players events = before
  induction more with
  | nil => rfl
  | cons first rest ih =>
      have hfirst : enlist before first = before := by
        have hno := h first (by simp)
        cases first with
        | toneQueued tone => cases hno
        | tonePlayed | tonePaused | toneDeleted => cases hno
        | _ => rfl
      rw [List.foldl_cons, hfirst]
      exact ih fun event hevent => h event (by simp [hevent])

theorem players_append_begun (events : List Event) :
    players (events ++ Panel.begun) = players events ++ [Panel.begun] := by
  rw [players_append]
  simp [Panel.begun, enlist, List.modifyLast_concat]

theorem players_append_ended {lives : List (List Event)} {life : List Event}
    (h : players events = lives ++ [life]) :
    players (events ++ Panel.ended) = lives ++ [life ++ Panel.ended] := by
  rw [players_append, h]
  simp [Panel.ended, enlist, List.modifyLast_concat]

end Event

/-! ## Windows

`Tuned` is the invariant of a window, through everything that can happen to it. All lives are
complete but that of a player which is sounding, and while the window is open the players follow the
speaker of the console. A window closes in two ways, by a stroke and by a trap, and in both the
sounding player is taken away. -/

namespace Window

/-- The players of the window, the oldest first. -/
def players (window : Window) : List (List Event) := Event.players window.events.toList

/-- The players that have been given a tone and have not been deleted. -/
def undeleted (window : Window) : List (List Event) :=
  window.players.filter fun player => Event.toneDeleted ∉ player

/-- What holds of a window in all its states: all players but one that is sounding have come to their
end, and one is sounding just when the window is open and its tone is on. -/
structure Tuned (window : Window) : Prop where
  players_eq : ∃ count, window.players =
    List.replicate count (Panel.begun ++ Panel.ended) ++
      if window.sounding then [Panel.begun] else []
  sounding_eq : window.sounding = (decide (window.closings = 0) && window.console.playing)
  in_step : window.closings = 0 → window.console.InStep
  sound : window.closings = 0 → window.failure = none

variable {setup : Setup} {rom : Rom} {window : Window}

theorem tuned_of_opened (h : Opened setup rom window) : Tuned window := by
  obtain ⟨interval, -, hdevices⟩ := h.devices_eq
  have hsounding : window.sounding = false := by
    rw [sounding, hdevices]
    rfl
  refine ⟨⟨0, ?_⟩, ?_, fun _ => ?_, fun _ => h.failure_eq⟩
  · rw [hsounding, players, Window.events, hdevices]
    rfl
  · rw [hsounding, h.playing_eq, Bool.and_false]
  · rw [Console.InStep, h.playing_eq,
      show window.console.state = _ from congrArg Computer.state h.computer_eq,
      Rom.started_of_le h.fits]
    rfl

/-- Whatever closes a window takes the player away that is sounding. -/
theorem Tuned.shutDown {after : Window} (h : Tuned window)
    (hdevices : after.console.devices = window.console.devices.shutDown)
    (hclosings : after.closings = window.closings + 1) : Tuned after := by
  have hsilent : after.sounding = false := by
    rw [sounding, hdevices]
    exact Panel.sounding_stopTone
  have hopen : after.closings ≠ 0 := by omega
  refine ⟨?_, by simp [hsilent, hopen], fun hzero => absurd hzero hopen,
    fun hzero => absurd hzero hopen⟩
  obtain ⟨count, hplayers⟩ := h.players_eq
  have hevents : after.players = Event.players
      (window.events.toList ++ if window.sounding then Panel.ended else []) := by
    rw [players, Window.events, hdevices, Panel.events_shutDown, ← List.append_assoc]
    exact Event.players_append_of_no_tone (by decide)
  rw [hevents, hsilent]
  -- A player that sounds comes to its end now; if there is none, nothing is done.
  cases hsounding : window.sounding with
  | false =>
      rw [hsounding] at hplayers
      exact ⟨count, (congrArg Event.players (List.append_nil _)).trans hplayers⟩
  | true =>
      rw [hsounding] at hplayers
      refine ⟨count + 1, ?_⟩
      rw [if_pos rfl, Event.players_append_ended hplayers, List.replicate_succ']
      exact (List.append_nil _).symm

/-- A frame is no matter of players. -/
theorem players_presented (window : Window) :
    Event.players window.presented.devices.events.toList =
      Event.players (window.events.toList ++
        window.console.devices.reply
          (Signal.due window.console.playing window.cycle.state.beeping)) := by
  have hframe : Event.players (window.events.toList ++
      if window.cycle.state.redrawn then
        [.imageSet (window.console.devices.width * Rgba.size)
          (PixelBlock.enlarged window.console.devices.scale).size]
      else []) = window.players := by
    apply Event.players_append_of_no_tone
    split
    · intro event hevent
      rw [List.mem_singleton.mp hevent]
      rfl
    · nofun
  rw [events_presented, ← List.append_assoc, Event.players_append, hframe]
  exact (Event.players_append _ _).symm

theorem Tuned.present {after : Window} (h : Tuned window) (hopen : window.closings = 0)
    (hconsole : after.console = window.presented) (hfailure : after.failure = window.failure)
    (hclosings : after.closings = window.closings) : Tuned after := by
  obtain ⟨count, hplayers⟩ := h.players_eq
  have hbefore : window.console.devices.sounding = window.console.playing := by
    have hsounding := h.sounding_eq
    rw [hopen] at hsounding
    exact hsounding.trans (Bool.true_and _)
  have hafter : after.sounding = window.cycle.state.beeping := by
    rw [sounding, hconsole, presented, Panel.sounding_tell, sounding_hand, hbefore]
    cases window.console.playing <;> cases window.cycle.state.beeping <;> rfl
  refine ⟨?_, ?_, fun _ => ?_, fun hzero => ?_⟩
  · have hsame : after.players = Event.players (window.events.toList ++
        window.console.devices.reply
          (Signal.due window.console.playing window.cycle.state.beeping)) := by
      rw [players, Window.events, hconsole]
      exact players_presented window
    have hnothing : Event.players (window.events.toList ++ []) = window.players :=
      congrArg Event.players (List.append_nil _)
    rw [show window.sounding = window.console.playing from hbefore] at hplayers
    rw [hsame, hafter]
    -- The tone stays off, starts, stops or stays on, in this order.
    cases hplaying : window.console.playing <;> rw [hplaying] at hplayers <;>
      cases window.cycle.state.beeping
    · exact ⟨count, hnothing.trans hplayers⟩
    · refine ⟨count, (Event.players_append_begun _).trans ?_⟩
      exact congrArg (· ++ [Panel.begun]) (hplayers.trans (List.append_nil _))
    · have hreply : window.console.devices.reply (Signal.due true false) = Panel.ended :=
        if_pos (hbefore.trans hplaying)
      refine ⟨count + 1, ?_⟩
      rw [hreply, Event.players_append_ended hplayers, List.replicate_succ']
      exact (List.append_nil _).symm
    · exact ⟨count, hnothing.trans hplayers⟩
  · rw [hafter, hclosings, hopen, hconsole]
    exact (Bool.true_and _).symm
  · rw [Console.InStep, hconsole]
    rfl
  · rw [hfailure]
    exact h.sound hopen

theorem Tuned.step {happening : Happening} {after : Window} (h : Tuned window)
    (hawaits : window.awaits .tick = decide (window.closings = 0))
    (hstep : Step window happening after) : Tuned after := by
  cases hstep with
  -- Only pictures and text are shown, and neither has to do with players.
  | idle events no_tick shows console_eq failure_eq closings_eq =>
      have hsounding : after.sounding = window.sounding := by
        rw [sounding, console_eq]
        rfl
      refine ⟨?_, ?_, fun hopen => ?_, fun hopen => ?_⟩
      · have hplayers : after.players = window.players := by
          rw [players, Window.events, console_eq, Panel.events_act]
          exact Event.players_append_of_no_tone
            fun event hevent => Event.isTone_of_isShow (shows event hevent)
        rw [hplayers, hsounding]
        exact h.players_eq
      · rw [hsounding, closings_eq, console_eq]
        exact h.sounding_eq
      · rw [Console.InStep, console_eq]
        exact h.in_step (closings_eq.symm.trans hopen)
      · rw [failure_eq]
        exact h.sound (closings_eq.symm.trans hopen)
  | closed no_tick console_eq failure_eq closings_eq =>
      exact h.shutDown (by rw [console_eq]) closings_eq
  -- a tick that goes well, which only an open window asks for
  | presented awaited goes_on console_eq failure_eq closings_eq =>
      have hopen : window.closings = 0 := of_decide_eq_true (hawaits.symm.trans awaited)
      exact h.present hopen console_eq failure_eq closings_eq
  | failed awaited traps console_eq failure_eq closings_eq =>
      exact h.shutDown (by rw [console_eq]) closings_eq

theorem tuned_after (hopened : Opened setup rom window) (happenings : List Happening) :
    Tuned (window.after happenings) := by
  induction happenings using List.reverseRecOn with
  | nil => exact tuned_of_opened hopened
  | append_singleton earlier last ih =>
      rw [after_concat]
      exact ih.step (awaits_after hopened earlier .tick) (step_happen _ last)

/-- The players that are not deleted are the one that sounds. -/
theorem Tuned.undeleted_eq (h : Tuned window) :
    window.undeleted = if window.sounding then [Panel.begun] else [] := by
  obtain ⟨count, hplayers⟩ := h.players_eq
  -- Every complete life ends with the player deleted.
  have hcomplete : (List.replicate count (Panel.begun ++ Panel.ended)).filter
      (fun player => Event.toneDeleted ∉ player) = [] := by
    rw [List.filter_replicate]
    rfl
  rw [undeleted, hplayers, List.filter_append, hcomplete]
  cases window.sounding <;> rfl

/-- An open window sounds just when the tone of its computer is on. -/
theorem Tuned.sounding_eq_beeping (h : Tuned window) (hopen : window.closings = 0) :
    window.sounding = window.console.state.beeping := by
  rw [h.sounding_eq, hopen, ← h.in_step hopen]
  exact Bool.true_and _

theorem Tuned.silent (h : Tuned window) (hclosed : window.closings ≠ 0) :
    window.sounding = false := by
  rw [h.sounding_eq, decide_eq_false hclosed]
  exact Bool.false_and _

/-! ### Ticks among what happens

What is said about the last tick has to survive what happens after it. The state of the computer
does, since only ticks change it, and so does the failure, since a window that has failed is closed
and asks for no more ticks. -/

/-- Only a tick changes the state of the computer. -/
theorem state_after_of_no_tick {happenings : List Happening} (h : .tick ∉ happenings) :
    (window.after happenings).console.state = window.console.state := by
  induction happenings generalizing window with
  | nil => rfl
  | cons first rest ih =>
      rw [List.mem_cons, not_or] at h
      rw [after_cons, ih h.2]
      cases step_happen window first with
      | idle events no_tick shows console_eq => rw [console_eq]
      | closed no_tick console_eq => rw [console_eq]
      | presented => exact absurd rfl h.1
      | failed => exact absurd rfl h.1

/-- Something among what happens is the last thing, or it comes before that. -/
theorem exists_eq_append_cons_concat {earlier : List Happening} {last : Happening}
    {P : List Happening → Happening → Prop} :
    (∃ before happening later, earlier ++ [last] = before ++ happening :: later ∧
        P before happening) ↔
      (∃ before happening later, earlier = before ++ happening :: later ∧ P before happening) ∨
        P earlier last := by
  constructor
  · rintro ⟨before, happening, later, heq, h⟩
    -- Either nothing comes later, or the last thing is also the last of what comes later.
    rcases List.eq_nil_or_concat later with rfl | ⟨rest, final, rfl⟩
    · obtain ⟨rfl, hlast⟩ := List.append_inj' heq rfl
      obtain rfl := List.singleton_inj.mp hlast
      exact .inr h
    · rw [List.concat_eq_append, ← List.cons_append, ← List.append_assoc] at heq
      obtain ⟨rfl, -⟩ := List.append_inj' heq rfl
      exact .inl ⟨before, happening, rest, rfl, h⟩
  · rintro (⟨before, happening, later, rfl, h⟩ | h)
    · exact ⟨before, happening, later ++ [last], by simp, h⟩
    · exact ⟨earlier, last, [], rfl, h⟩

/-- Something that happens runs into a trap: a tick that has been asked for. -/
def RunsInto (window : Window) (happening : Happening) (trap : Trap) : Prop :=
  happening = .tick ∧ window.awaits .tick = true ∧
    (window.console.runOnce window.host wiring).2 = some (.trap trap)

/-- The failure of a window is the trap that one of its ticks has run into. -/
theorem failure_after (hopened : Opened setup rom window) (happenings : List Happening)
    (trap : Trap) :
    (window.after happenings).failure = some trap ↔
      ∃ earlier happening later, happenings = earlier ++ happening :: later ∧
        (window.after earlier).RunsInto happening trap := by
  induction happenings using List.reverseRecOn with
  | nil =>
      rw [after_nil, hopened.failure_eq]
      simp
  | append_singleton earlier last ih =>
      have htuned := tuned_after hopened earlier
      have hawaits := awaits_after hopened earlier .tick
      rw [exists_eq_append_cons_concat, ← ih, after_concat]
      generalize window.after earlier = before at htuned hawaits
      cases step_happen before last with
      -- In the first three cases nothing runs into a trap, and the failure is as before.
      | idle events no_tick shows console_eq failure_eq closings_eq =>
          have hnot : ¬ before.RunsInto last trap := by
            rintro ⟨rfl, hawaited, -⟩
            rw [no_tick rfl] at hawaited
            cases hawaited
          rw [failure_eq, or_iff_left hnot]
      | closed no_tick console_eq failure_eq closings_eq =>
          have hnot : ¬ before.RunsInto last trap := fun h => no_tick h.1
          rw [failure_eq, or_iff_left hnot]
      | presented awaited goes_on console_eq failure_eq closings_eq =>
          have hnot : ¬ before.RunsInto .tick trap := by
            rintro ⟨-, -, hstops⟩
            rw [runOnce_of_goesOn goes_on] at hstops
            cases hstops
          rw [failure_eq, or_iff_left hnot]
      -- The window has been open, so this is its first failure.
      | failed awaited traps console_eq failure_eq closings_eq =>
          have hnone : before.failure = none :=
            htuned.sound (of_decide_eq_true (hawaits.symm.trans awaited))
          rw [failure_eq, hnone, RunsInto, runOnce_of_trap traps]
          simp [awaited]

theorem closings_le_after (window : Window) (happenings : List Happening) :
    window.closings ≤ (window.after happenings).closings := by
  apply after_induction (P := fun after => window.closings ≤ after.closings)
  · intro before happening after hstep hle
    cases hstep with
    | idle events no_tick shows console_eq failure_eq closings_eq => omega
    | closed no_tick console_eq failure_eq closings_eq => omega
    | presented awaited goes_on console_eq failure_eq closings_eq => omega
    | failed awaited traps console_eq failure_eq closings_eq => omega
  · exact Nat.le_refl _

/-- A tick that does not close an open window has presented a cycle. -/
theorem goesOn_of_open (hopened : Opened setup rom window) {earlier later : List Happening}
    (hopen : (window.after (earlier ++ .tick :: later)).closings = 0) :
    (window.after earlier).cycle.outcome.goesOn = true := by
  have hafter : ((window.after earlier).happen .tick).closings = 0 := by
    have hle := closings_le_after ((window.after earlier).happen .tick) later
    rw [after_append, after_cons] at hopen
    omega
  have hbefore : (window.after earlier).closings = 0 := by
    have hle := closings_le_after (window.after earlier) [.tick]
    rw [after_cons, after_nil] at hle
    omega
  have hawaits := awaits_after hopened earlier .tick
  generalize window.after earlier = before at hafter hbefore hawaits
  rw [hbefore] at hawaits
  cases step_happen before .tick with
  | idle events no_tick => rw [no_tick rfl] at hawaits; cases hawaits
  | closed no_tick => exact absurd rfl no_tick
  | presented awaited goes_on => exact goes_on
  | failed awaited traps console_eq failure_eq closings_eq => omega

/-- Take a window in which a program has been opened, and anything that happens to it, before and after
it is closed. There is at most one player that has been given a tone and not been deleted. Every player
is played once, and paused and deleted at most once, in that order and before the next one is there.

* As long as the window is open, all its ticks have gone well, and there is such a player just when the
  tone was on after the last of them.
* Once it is closed, there is none, and the window asks for no more calls.

Its failure is the trap that one of its ticks has run into, if one has. -/
theorem players_follow_tone (setup : Setup) (rom : Rom) {opened : Window}
    (hlaunch : (launch setup rom).result = .ok opened) (happenings : List Happening) :
    let window := opened.after happenings
    window.undeleted.length ≤ 1 ∧
    (∀ player ∈ window.players,
      player = Panel.begun ∨ player = Panel.begun ++ Panel.ended) ∧
    (∀ player ∈ window.players.dropLast, player = Panel.begun ++ Panel.ended) ∧
    (window.closings = 0 →
      (.tick ∉ happenings → window.undeleted = []) ∧
      ∀ earlier later, happenings = earlier ++ .tick :: later → .tick ∉ later →
        (opened.after earlier).cycle.outcome.goesOn = true ∧
        (window.undeleted ≠ [] ↔
          (opened.after (earlier ++ [.tick])).console.state.beeping = true)) ∧
    (window.closings ≠ 0 →
      window.undeleted = [] ∧ ∀ callback, window.awaits callback = false) ∧
    (∀ trap, window.failure = some trap ↔
      ∃ earlier happening later, happenings = earlier ++ happening :: later ∧
        (opened.after earlier).RunsInto happening trap) := by
  intro window
  have hopened := opened_of_launch hlaunch
  have htuned : Tuned window := tuned_after hopened happenings
  have hundeleted := htuned.undeleted_eq
  obtain ⟨count, hplayers⟩ := htuned.players_eq
  refine ⟨?_, ?_, ?_, fun hopen => ⟨?_, ?_⟩, fun hclosed => ⟨?_, ?_⟩,
    failure_after hopened happenings⟩
  · -- at most one player that is not deleted
    rw [hundeleted]
    split <;> decide
  · -- every player
    intro player hplayer
    rw [hplayers, List.mem_append] at hplayer
    rcases hplayer with hcomplete | hlast
    · exact .inr (List.eq_of_mem_replicate hcomplete)
    · split at hlast
      · exact .inl (List.mem_singleton.mp hlast)
      · cases hlast
  · -- every player but the newest
    intro player hplayer
    rw [hplayers] at hplayer
    split at hplayer
    · rw [List.dropLast_concat] at hplayer
      exact List.eq_of_mem_replicate hplayer
    · rw [List.append_nil] at hplayer
      exact List.eq_of_mem_replicate (List.dropLast_subset _ hplayer)
  · -- open, without a tick
    intro hno
    have hstate : window.console.state = opened.console.state := state_after_of_no_tick hno
    rw [hundeleted, htuned.sounding_eq_beeping hopen, hstate,
      ← (tuned_of_opened hopened).in_step hopened.closings_eq, hopened.playing_eq]
    rfl
  · -- open, and the last tick
    rintro earlier later rfl hno
    have hstate : window.console.state =
        (opened.after (earlier ++ [.tick])).console.state := by
      rw [show window = (opened.after (earlier ++ [.tick])).after later by
        rw [← after_append, List.append_assoc]
        rfl]
      exact state_after_of_no_tick hno
    refine ⟨goesOn_of_open hopened hopen, ?_⟩
    rw [hundeleted, htuned.sounding_eq_beeping hopen, hstate]
    cases (opened.after (earlier ++ [.tick])).console.state.beeping <;> simp
  · -- closed: no player
    rw [hundeleted, htuned.silent hclosed]
    rfl
  · -- closed: no more calls
    intro callback
    rw [awaits_after hopened happenings callback]
    exact decide_eq_false hclosed

/-- A program that sounds for one tick, in a window that is closed by a key right then. -/
theorem players_follow_tone_of_beeper :
    let rom : Rom := [0x60, 0x02, 0xF0, 0x18, 0x12, 0x04]
    let opened := furnished {} rom standardInterval
    let beeping := opened.after [.tick, .tick]
    let closed := opened.after [.tick, .tick, .keyPress .escape]
    (launch {} rom).result = .ok opened ∧
      beeping.undeleted ≠ [] ∧ beeping.failure = none ∧
      closed.undeleted = [] ∧ closed.awaits .tick = false := by
  intro rom opened beeping closed
  have hlaunch : (launch {} rom).result = .ok opened :=
    launch_at_scale 10 (by decide) (by decide) (by decide)
  obtain ⟨-, -, -, hopen, -, hfailure⟩ := players_follow_tone {} rom hlaunch [.tick, .tick]
  obtain ⟨-, -, -, -, hclosed, -⟩ :=
    players_follow_tone {} rom hlaunch [.tick, .tick, .keyPress .escape]
  have hsounds := ((hopen (by decide +kernel)).2 [.tick] [] rfl (by simp)).2
  obtain ⟨hdeleted, hawaits⟩ := hclosed (by decide +kernel)
  exact ⟨hlaunch, hsounds.mpr (by decide +kernel), by decide +kernel, hdeleted, hawaits .tick⟩

end Window

end ChipEight
