import ChipEight.Proofs.History
import ChipEight.Proofs.Transcripts

/-!
# What the speaker is told

A console remembers what it has told its speaker last. It gives a signal only where the tone of its
computer is different from that, so starts and stops come in turn, whatever goes wrong in between and
whoever has reached past the console (`InTurn`). A cycle that does not stop the console ends with the
speaker in step with the tone; one that fails, or whose frame is refused, tells the speaker nothing.

Refused frames, resets, cycles past the console and changes of the state can bring the tone and the
speaker out of step until the next such cycle. Without them the two are always in step
(`signals_follow_tone`).
-/

namespace ChipEight

/-! ## Starts and stops in turn

A console gives a signal only where the tone has changed since the last one, so the signals
alternate. `InTurn` keeps the alternation, the parity of their number and the counts of a speaker
together, because none of them is preserved without the others. -/

theorem Signal.length_due {playing beeping : Bool} : (due playing beeping).toList.length ≤ 1 := by
  cases playing <;> cases beeping <;> decide

/-- The speaker after signals, the first one first. -/
def CountingSpeaker.hear (signals : List Signal) : CountingSpeaker :=
  signals.foldl CountingSpeaker.signal {}

theorem CountingSpeaker.hear_concat (signals : List Signal) (tone : Signal) :
    hear (signals ++ [tone]) = (hear signals).signal tone := by
  rw [hear, List.foldl_append]
  rfl

/-- Starts and stops come in turn, a start first, and leave the speaker playing or not. -/
structure InTurn (signals : List Signal) (playing : Bool) : Prop where
  alternate : ∀ i tone, signals[i]? = some tone → tone = if i % 2 = 0 then .start else .stop
  length_mod : signals.length % 2 = if playing then 1 else 0
  playing_eq : (CountingSpeaker.hear signals).playing = playing
  starts_eq : (CountingSpeaker.hear signals).starts =
    (CountingSpeaker.hear signals).stops + if playing then 1 else 0

namespace InTurn

variable {signals : List Signal} {playing : Bool}

theorem nil : InTurn [] false where
  alternate i tone h := by cases h
  length_mod := rfl
  playing_eq := rfl
  starts_eq := rfl

theorem alternate_concat (h : InTurn signals playing) {tone : Signal}
    (htone : tone = if signals.length % 2 = 0 then .start else .stop) :
    ∀ i tone', (signals ++ [tone])[i]? = some tone' →
      tone' = if i % 2 = 0 then .start else .stop := by
  intro i tone' hi
  rw [List.getElem?_append, List.getElem?_singleton] at hi
  split at hi
  · exact h.alternate i tone' hi
  · next hbehind =>
    split at hi
    · next hlast =>
      -- The new signal stands behind the others, at an index of its own parity.
      have hi' : i = signals.length := by omega
      cases hi
      rw [hi', htone]
    · cases hi

theorem start (h : InTurn signals false) : InTurn (signals ++ [.start]) true where
  alternate := h.alternate_concat (if_pos h.length_mod).symm
  length_mod := by
    have hlength : signals.length % 2 = 0 := h.length_mod
    rw [List.length_append, List.length_singleton, if_pos rfl]
    omega
  playing_eq := by rw [CountingSpeaker.hear_concat]; rfl
  starts_eq := by
    have hstarts := h.starts_eq
    rw [CountingSpeaker.hear_concat]
    exact congrArg (· + 1) hstarts

theorem stop (h : InTurn signals true) : InTurn (signals ++ [.stop]) false where
  alternate := by
    have hlength : signals.length % 2 = 1 := h.length_mod
    exact h.alternate_concat (if_neg (by omega)).symm
  length_mod := by
    have hlength : signals.length % 2 = 1 := h.length_mod
    rw [List.length_append, List.length_singleton, if_neg Bool.false_ne_true]
    omega
  playing_eq := by rw [CountingSpeaker.hear_concat]; rfl
  starts_eq := by
    have hstarts := h.starts_eq
    rw [CountingSpeaker.hear_concat]
    exact hstarts

/-- With the signal that is due the speaker plays just when the tone sounds. -/
theorem append_due (h : InTurn signals playing) (beeping : Bool) :
    InTurn (signals ++ (Signal.due playing beeping).toList) beeping := by
  have hsame : InTurn (signals ++ []) playing := by rwa [List.append_nil]
  -- What is remembered and what sounds are the same, or the signal between them is due.
  cases playing <;> cases beeping
  · exact hsame
  · exact h.start
  · exact h.stop
  · exact hsame

end InTurn

/-! ## Consoles

A cycle ends in one of three ways, and only the one in which the frame has been accepted reaches the
speaker. What the console remembers changes with what the speaker is told, never alone. -/

namespace Console

variable {δ ε : Type} {host : Host} {wiring : Devices δ ε}

/-- With a speaker, the signal that is due is given and remembered. -/
theorem updateSpeaker_tells (hspeaker : wiring.signal.isSome = true)
    (console : Console (δ × List Message)) :
    let after := updateSpeaker wiring.transcribed console
    after.signals = console.signals ++ (Signal.due console.playing console.state.beeping).toList ∧
      after.playing = console.state.beeping := by
  refine ⟨?_, ?_⟩
  · rw [signals, told_updateSpeaker, if_pos hspeaker, List.filterMap_append]
    cases Signal.due console.playing console.state.beeping <;> rfl
  · obtain ⟨draw, signal⟩ := wiring
    cases signal with
    | none => cases hspeaker
    | some signal => rfl

/-- Handing over a frame is no signal. -/
theorem signals_of_hand {before after : δ × List Message} {state : State} {refusal : Option ε}
    (h : wiring.transcribed.hand before state = (after, refusal)) :
    after.2.filterMap Message.signal? = before.2.filterMap Message.signal? := by
  rw [told_of_hand h, List.filterMap_append]
  cases state.redrawn <;> simp [Message.signal?]

/-- A cycle tells the speaker the signal that is due, or nothing if it stops the console. -/
theorem runOnce_tells (host : Host) (hspeaker : wiring.signal.isSome = true)
    (console : Console (δ × List Message)) :
    let result := console.runOnce host wiring.transcribed
    let after := result.1
    (result.2 = none ∧ after.playing = after.state.beeping ∧
        after.signals = console.signals ++ (Signal.due console.playing after.state.beeping).toList) ∨
      (result.2 ≠ none ∧ after.playing = console.playing ∧ after.signals = console.signals) := by
  have hturn := turn_runOnce host wiring.transcribed console
  generalize console.runOnce host wiring.transcribed = result at hturn ⊢
  cases hturn with
  | failed stops => exact .inr ⟨by simp, rfl, rfl⟩
  | refused goes_on refuses =>
      -- The tone may have changed by then, but the speaker hears of it only in a later cycle.
      exact .inr ⟨by simp, rfl, signals_of_hand refuses⟩
  | @presented devices goes_on accepts =>
      obtain ⟨hsignals, hplaying⟩ :=
        updateSpeaker_tells hspeaker { console.cycled host with devices := devices }
      refine .inl ⟨rfl, ?_, ?_⟩
      · rw [hplaying, state_updateSpeaker]
      · rw [hsignals, state_updateSpeaker]
        exact congrArg (· ++ _) (signals_of_hand accepts)

/-! ### Requests

Each request comes down to a number of cycles, or to something that concerns neither display nor
speaker. The tone is the one thing that some of the latter can still change: a reset turns it off, and
a state that is written may have it either way. -/

/-- Calls that are neither resets nor cycles leave the tone as it is. -/
theorem beeping_call (host : Host) (computer : Computer) {call : Call} (hreset : call ≠ .reset)
    (hstep : ∀ patience, call ≠ .step patience) :
    (computer.call host call).state.beeping = computer.state.beeping := by
  cases Computer.call_does host computer hreset with
  | idle executed state_eq => rw [state_eq]
  | carriedOut usage instruction executed =>
      cases call with
      | step patience => exact absurd rfl (hstep patience)
      | _ => cases executed

/-- A request makes cycles, or it leaves the devices alone and, if it is through the console, the tone
too. -/
theorem request_does (host : Host) (wiring : Devices δ ε) (console : Console δ) (asked : Request) :
    let after := console.request host wiring asked
    (∃ count patience, after = (runTimes host wiring count (console.ready patience)).1) ∨
      (after.devices = console.devices ∧ after.playing = console.playing ∧
        (asked.ThroughConsole → after.state.beeping = console.state.beeping)) := by
  cases asked with
  | load rom =>
      obtain ⟨hdevices, hplaying, hbeeping⟩ := loadIfFits_keeps console rom
      exact .inr ⟨hdevices, hplaying, fun _ => hbeeping⟩
  | loadFile path content =>
      cases content with
      | none => exact .inr ⟨rfl, rfl, fun _ => rfl⟩
      | some rom =>
          obtain ⟨hdevices, hplaying, hbeeping⟩ := loadIfFits_keeps (console.announce path) rom
          exact .inr ⟨hdevices, hplaying, fun _ => hbeeping⟩
  | runOnce patience => exact .inl ⟨1, patience, (fst_runTimes_one (console.ready patience)).symm⟩
  | runCycles limit patience => exact .inl ⟨limit.toNat, patience, rfl⟩
  | direct call =>
      refine .inr ⟨rfl, rfl, fun hthrough => ?_⟩
      exact beeping_call host console.computer hthrough.1 hthrough.2
  | rewrite change => exact .inr ⟨rfl, rfl, fun hthrough => hthrough.elim⟩

/-! ### Starts and stops

By induction on the requests, and for those that make cycles by induction on the cycles. -/

/-- What the speaker has been told, and what the console remembers of it. -/
def Tuned (console : Console (δ × List Message)) : Prop :=
  InTurn console.signals console.playing

theorem Tuned.runOnce (hspeaker : wiring.signal.isSome = true) {console : Console (δ × List Message)}
    (h : console.Tuned) : (console.runOnce host wiring.transcribed).1.Tuned := by
  rcases runOnce_tells host hspeaker console with
    ⟨-, hplaying, hsignals⟩ | ⟨-, hplaying, hsignals⟩
  · -- The cycle has told the speaker what was due.
    rw [Tuned, hsignals, hplaying]
    exact InTurn.append_due h _
  · -- It has told the speaker nothing, and the console remembers the same.
    rw [Tuned, hsignals, hplaying]
    exact h

theorem Tuned.request (hspeaker : wiring.signal.isSome = true) {console : Console (δ × List Message)}
    (h : console.Tuned) (asked : Request) :
    (console.request host wiring.transcribed asked).Tuned := by
  rcases request_does host wiring.transcribed console asked with
    ⟨count, patience, hcycles⟩ | ⟨hdevices, hplaying, -⟩
  · have hready : (console.ready patience).Tuned := h
    rw [hcycles]
    exact runTimes_induction (fun c hc => hc.runOnce hspeaker) count hready
  · rw [Tuned, signals, Console.told, hdevices, hplaying]
    exact h

/-- Whatever is asked for, starts and stops come in turn. -/
theorem Tuned.requests (hspeaker : wiring.signal.isSome = true) {console : Console (δ × List Message)}
    (h : console.Tuned) (asked : List Request) :
    (console.requests host wiring.transcribed asked).Tuned := by
  induction asked generalizing console with
  | nil => exact h
  | cons first rest ih => exact ih (h.request hspeaker first)

/-! ### In step with the tone

Being in step is not preserved by everything: a refused frame may come with a change of the tone,
and a reset turns it off behind the back of the speaker. Hence the two hypotheses here, which are
not needed for the alternation. -/

/-- The console has told the speaker what the tone does now. -/
def InStep (console : Console δ) : Prop := console.playing = console.state.beeping

/-- A cycle that fails leaves the tone as it is. -/
theorem beeping_of_fails {console : Console δ} (h : (console.cycle host).outcome.goesOn = false) :
    (console.cycle host).state.beeping = console.state.beeping := by
  have hnot : (console.state.step host console.usage).outcome ≠ .completed := by
    intro hcompleted
    rw [cycle, hcompleted] at h
    cases h
  rw [cycle, State.step_of_not_completed hnot]

theorem InStep.runOnce (hspeaker : wiring.signal.isSome = true) (haccepts : wiring.AcceptsAll)
    {console : Console (δ × List Message)} (h : console.InStep) :
    (console.runOnce host wiring.transcribed).1.InStep := by
  have hturn := turn_runOnce host wiring.transcribed console
  generalize console.runOnce host wiring.transcribed = result at hturn ⊢
  cases hturn with
  | failed stops => exact h.trans (beeping_of_fails (Outcome.goesOn_of_stop? stops)).symm
  | refused goes_on refuses =>
      have haccepted :=
        (acceptsAll_transcribed haccepts).hand console.devices (console.cycle host).state
      rw [refuses] at haccepted
      cases haccepted
  | @presented devices goes_on accepts =>
      have hplaying :=
        (updateSpeaker_tells hspeaker { console.cycled host with devices := devices }).2
      rw [InStep, hplaying, state_updateSpeaker]

theorem InStep.request (hspeaker : wiring.signal.isSome = true) (haccepts : wiring.AcceptsAll)
    {console : Console (δ × List Message)} (h : console.InStep) {asked : Request}
    (hthrough : asked.ThroughConsole) :
    (console.request host wiring.transcribed asked).InStep := by
  rcases request_does host wiring.transcribed console asked with
    ⟨count, patience, hcycles⟩ | ⟨-, hplaying, hbeeping⟩
  · have hready : (console.ready patience).InStep := h
    rw [hcycles]
    exact runTimes_induction (fun c hc => hc.runOnce hspeaker haccepts) count hready
  · rw [InStep, hplaying, hbeeping hthrough]
    exact h

/-- If the display accepts every frame and all requests go through the console, the speaker is in step
with the tone at all times. -/
theorem InStep.requests (hspeaker : wiring.signal.isSome = true) (haccepts : wiring.AcceptsAll)
    {console : Console (δ × List Message)} (h : console.InStep) {asked : List Request}
    (hthrough : ∀ request ∈ asked, request.ThroughConsole) :
    (console.requests host wiring.transcribed asked).InStep := by
  induction asked generalizing console with
  | nil => exact h
  | cons first rest ih =>
      exact ih (h.request hspeaker haccepts (hthrough first (by simp)))
        (fun r hr => hthrough r (by simp [hr]))

/-- Take a console with a speaker, and any requests, with failing cycles, refused frames, resets,
cycles past the console and changes of the state among them. The speaker hears starts and stops in
turn, a start first, so it has heard one start more than stops while it plays and as many as stops
otherwise. A cycle of the console tells it one signal at most, and if the cycle does not stop the
console the speaker then plays just when the tone sounds. If the display accepts every frame and all
requests go through the console, the speaker plays just when the tone sounds at all times. -/
theorem signals_follow_tone (host : Host) (wiring : Devices δ ε)
    (hspeaker : wiring.signal.isSome = true) (devices : δ) (usage : Usage) (asked : List Request) :
    let plain := (Console.new devices usage).requests host wiring asked
    let console := (Console.new (devices, []) usage).requests host wiring.transcribed asked
    let speaker := CountingSpeaker.hear console.signals
    console.forget = plain ∧
    (∀ i tone, console.signals[i]? = some tone → tone = if i % 2 = 0 then .start else .stop) ∧
    speaker.starts = speaker.stops + (if speaker.playing then 1 else 0) ∧
    (∀ patience,
      let result := (console.ready patience).runOnce host wiring.transcribed
      let after := result.1
      result.map forget id = (plain.ready patience).runOnce host wiring ∧
      (∃ added, after.signals = console.signals ++ added ∧ added.length ≤ 1) ∧
      (result.2 = none →
        (CountingSpeaker.hear after.signals).playing = after.state.beeping)) ∧
    (wiring.AcceptsAll → (∀ request ∈ asked, request.ThroughConsole) →
      speaker.playing = console.state.beeping) := by
  intro plain console speaker
  have hnew : (Console.new (devices, ([] : List Message)) usage).Tuned := InTurn.nil
  have htuned : console.Tuned := hnew.requests hspeaker asked
  have hplaying : speaker.playing = console.playing := htuned.playing_eq
  have hforget : console.forget = plain := requests_transcribed host wiring _ _
  refine ⟨hforget, htuned.alternate, ?_, ?_, ?_⟩
  · -- the counts
    rw [hplaying]
    exact htuned.starts_eq
  · -- one cycle
    intro patience result after
    have hready : (console.ready patience).Tuned := htuned
    have hafter : after.Tuned := hready.runOnce hspeaker
    have htells := runOnce_tells host hspeaker (console.ready patience)
    refine ⟨?_, ?_, ?_⟩
    · rw [← hforget]
      exact runOnce_transcribed host wiring (console.ready patience)
    · rcases htells with ⟨-, -, hsignals⟩ | ⟨-, -, hsignals⟩
      · exact ⟨_, hsignals, Signal.length_due⟩
      · exact ⟨[], hsignals.trans (List.append_nil _).symm, Nat.zero_le 1⟩
    · intro hgoes
      rcases htells with ⟨-, hremembered, -⟩ | ⟨hstops, -⟩
      · exact hafter.playing_eq.trans hremembered
      · exact absurd hgoes hstops
  · -- in step at all times
    intro haccepts hthrough
    have hsilent : (Console.new (devices, ([] : List Message)) usage).InStep := rfl
    have hstep : console.InStep := hsilent.requests hspeaker haccepts hthrough
    exact hplaying.trans hstep

/-- A program that sets the sound timer to 3 and then goes round in circles. -/
def beeper : Rom := [0x60, 0x03, 0xF0, 0x18, 0x12, 0x04]

/-- A display that accepts every frame, and a speaker. -/
def audibleWiring : Devices Unit Empty where
  draw devices _ := (devices, none)
  signal := some fun devices _ => devices

theorem beeper_signals_follow_tone :
    let asked : List Request := [.load beeper, .runCycles 3 0]
    let console := (Console.new ((), []) {}).requests {} audibleWiring.transcribed asked
    let last := (console.ready 0).runOnce {} audibleWiring.transcribed
    audibleWiring.signal.isSome = true ∧ audibleWiring.AcceptsAll ∧
      (∀ request ∈ asked, request.ThroughConsole) ∧
      (CountingSpeaker.hear console.signals).playing = true ∧
      (CountingSpeaker.hear console.signals).starts =
        (CountingSpeaker.hear console.signals).stops + 1 ∧
      last.2 = none ∧ (CountingSpeaker.hear last.1.signals).playing = false := by
  intro asked console last
  have haccepts : audibleWiring.AcceptsAll := fun _ _ => rfl
  have hthrough : ∀ request ∈ asked, request.ThroughConsole := by
    simp [asked, Request.ThroughConsole]
  have hrun : console.state.beeping = true ∧ last.2.isNone = true ∧ last.1.state.beeping = false := by
    decide +kernel
  obtain ⟨hbeeping, hgoes, hsilent⟩ := hrun
  rw [Option.isNone_iff_eq_none] at hgoes
  have hlaw := signals_follow_tone {} audibleWiring rfl () {} asked
  have hconsole : (Console.new ((), []) {}).requests {} audibleWiring.transcribed asked = console :=
    rfl
  have hlast : (console.ready 0).runOnce {} audibleWiring.transcribed = last := rfl
  dsimp only at hlaw
  rw [hconsole] at hlaw
  obtain ⟨-, -, hstarts, hturn, hstep⟩ := hlaw
  have hplaying := hstep haccepts hthrough
  have hafter := (hturn 0).2.2
  rw [hlast] at hafter
  rw [hbeeping] at hplaying
  rw [hplaying, if_pos rfl] at hstarts
  exact ⟨rfl, haccepts, hthrough, hplaying, hstarts, hgoes, (hafter hgoes).trans hsilent⟩

end Console

end ChipEight
