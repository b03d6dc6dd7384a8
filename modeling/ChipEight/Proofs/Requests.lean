import ChipEight.CommandLine.Request
import Mathlib.Logic.Basic

/-!
# What arguments ask for

The values of all options are put into the settings of a command, one option after the other. What comes
out is told by the options that were given, in whatever order (`Settings.Says`): a value that was given is
the one that its option has last, a value that was not is the standard one, and a switch is on if it was
given. So the numbers are in range, and the dialect of the emulated computer is what the two switches for
it say, whichever of the two commands they were given to (`Settings.Says.dialect_eq`).

A request to run a file is accepted just when its settings can be read, there is one operand, and the files
are such that it can be read and the other one written (`Request.check_eq_ok_iff`).
-/

namespace ChipEight

/-! ## Values

Reading a value and checking a path can fail in many ways and succeed in one. The lemmas say when
they succeed, and with which value. -/

theorem Interval.contains_of_read {interval : Interval} {text : String} {n : Int}
    (h : interval.read text = .ok n) : interval.contains n = true := by
  rw [read] at h
  split at h
  · cases h
  · split at h
    · next hinside => exact Except.ok.inj h ▸ hinside
    · cases h

/-- A number is in range if it is read where a value is given and is the standard one elsewhere. -/
theorem Interval.contains_of_given {interval : Interval} {given : Prop} {text : String}
    {n standard : Int} (hread : given → interval.read text = .ok n) (hkept : ¬ given → n = standard)
    (hstandard : interval.contains standard = true) : interval.contains n = true := by
  by_cases hgiven : given
  · exact contains_of_read (hread hgiven)
  · rwa [hkept hgiven]

theorem bind_eq_ok_iff {ε α β : Type} {f : α → Except ε β} {result : Except ε α} {value : β} :
    result >>= f = .ok value ↔ ∃ found, result = .ok found ∧ f found = .ok value := by
  cases result with
  | error error => simp [bind, Except.bind]
  | ok found => simp [bind, Except.bind]

theorem map_eq_ok_iff {ε α β : Type} {f : α → β} {result : Except ε α} {value : β} :
    result.map f = .ok value ↔ ∃ found, result = .ok found ∧ f found = value := by
  cases result with
  | error error => simp [Except.map]
  | ok found => simp [Except.map]

namespace Settings

variable {files : Files} {path path' : String}

/-- A path to read from is that of a file that may be read. -/
theorem checkRom_eq_ok_iff :
    checkRom files path = .ok path' ↔
      path' = path ∧ FileError.ofPath? path = none ∧ files.kind path = some .file ∧
        files.readable path = true := by
  rw [checkRom]
  cases FileError.ofPath? path with
  | some error => simp
  | none =>
      cases files.kind path with
      | none => simp
      | some kind =>
          cases kind with
          | directory => simp [fileError?]
          | file =>
              -- Reading is looked at before anything else, and what may not be read is refused.
              cases hreadable : files.readable path with
              | false => simp [fileError?, hreadable]
              | true => simp [fileError?, hreadable, eq_comm]

/-- A path to write to is that of a file that may be read and written, or of nothing. -/
theorem checkOut_eq_ok_iff :
    checkOut files path = .ok path' ↔
      path' = path ∧ FileError.ofPath? path = none ∧
        ∀ kind ∈ files.kind path,
          kind = .file ∧ files.readable path = true ∧ files.writable path = true := by
  rw [checkOut]
  cases FileError.ofPath? path with
  | some error => simp
  | none =>
      cases files.kind path with
      | none =>
          rw [Except.ok.injEq, eq_comm]
          simp
      | some kind =>
          cases kind with
          | directory => simp [fileError?]
          | file =>
              cases hreadable : files.readable path <;> cases files.writable path <;>
                simp only [fileError?, hreadable] <;> simp [eq_comm]

/-! ## Settings

`Shows` and `SameIn` are about a single option, and `Says` puts them together for all options. That
it is preserved by one more option needs two facts: the option is shown by the settings afterwards,
and every other one is as it was. An option that is given twice counts as one, with the value that
it has last. -/

/-- Settings have what an option asks for that was given with a value. -/
def Shows (files : Files) (value : String) (settings : Settings) : Setting → Prop
  | .help | .version => True
  | .cycles => counts.read value = .ok settings.cycles
  | .out => checkOut files value = .ok settings.out
  | .scale => scales.read value = .ok settings.scale
  | .rate => counts.read value = .ok settings.rate
  | .legacyLoadStore => settings.dialect.loadStoreMovesIndex = true
  | .noIndexOverflow => settings.dialect.indexOverflowFlag = false
  | .verbose => settings.verbose = true

/-- Settings are the same in what an option is about. -/
def SameIn (settings settings' : Settings) : Setting → Prop
  | .help | .version => True
  | .cycles => settings'.cycles = settings.cycles
  | .out => settings'.out = settings.out
  | .scale => settings'.scale = settings.scale
  | .rate => settings'.rate = settings.rate
  | .legacyLoadStore =>
    settings'.dialect.loadStoreMovesIndex = settings.dialect.loadStoreMovesIndex
  | .noIndexOverflow => settings'.dialect.indexOverflowFlag = settings.dialect.indexOverflowFlag
  | .verbose => settings'.verbose = settings.verbose

/-- The settings of a command are what the options say that were given to it, and the standard ones
otherwise. -/
def Says (files : Files) (command : Command) (arguments : Arguments) (given : List Setting)
    (settings : Settings) : Prop :=
  ∀ setting,
    (setting ∈ given → settings.Shows files (arguments.value setting) setting) ∧
      (setting ∉ given → (standard command).SameIn settings setting)

variable {command : Command} {arguments : Arguments} {given : List Setting}
  {settings after : Settings} {setting other : Setting} {value : String}

theorem shows_of_set (h : settings.set files setting value = .ok after) :
    after.Shows files value setting := by
  cases setting with
  | help | version => trivial
  | legacyLoadStore | noIndexOverflow | verbose =>
      obtain rfl := Except.ok.inj h
      rfl
  | cycles | out | scale | rate =>
      obtain ⟨_, hread, rfl⟩ := map_eq_ok_iff.mp h
      exact hread

/-- An option changes nothing that it is not about. -/
theorem sameIn_of_set (h : settings.set files setting value = .ok after) (hne : other ≠ setting) :
    settings.SameIn after other := by
  cases setting with
  | help | version | legacyLoadStore | noIndexOverflow | verbose =>
      obtain rfl := Except.ok.inj h
      cases other <;> trivial
  | cycles | out | scale | rate =>
      obtain ⟨_, -, rfl⟩ := map_eq_ok_iff.mp h
      cases other <;> trivial

theorem Shows.of_sameIn (h : settings.Shows files value setting)
    (hsame : settings.SameIn after setting) : after.Shows files value setting := by
  cases setting <;> simp_all [Shows, SameIn]

theorem SameIn.trans {first second third : Settings} (h : first.SameIn second setting)
    (h' : second.SameIn third setting) : first.SameIn third setting := by
  cases setting <;> first | exact Eq.trans h' h | trivial

theorem says_standard (files : Files) (command : Command) (arguments : Arguments) :
    Says files command arguments [] (standard command) := by
  refine fun setting => ⟨fun hgiven => absurd hgiven List.not_mem_nil, fun _ => ?_⟩
  cases setting <;> first | rfl | trivial

/-- One more option is put in. -/
theorem Says.set (h : Says files command arguments given settings)
    (hset : settings.set files setting (arguments.value setting) = .ok after) :
    Says files command arguments (given ++ [setting]) after := by
  intro other
  rw [List.mem_append, List.mem_singleton]
  by_cases hother : other = setting
  · subst hother
    exact ⟨fun _ => shows_of_set hset, fun hnot => absurd (.inr rfl) hnot⟩
  · have hsame := sameIn_of_set hset hother
    rw [or_iff_left hother]
    exact ⟨fun hgiven => ((h other).1 hgiven).of_sameIn hsame,
      fun hnot => ((h other).2 hnot).trans hsame⟩

/-! ### What options say

The two switches for the dialect and the options with a number, read off `Says`. What was not given
has its standard value, and the standard values are in range. -/

theorem standard_dialect (command : Command) : (standard command).dialect = {} := by
  cases command <;> rfl

/-- The dialect is what the two switches for it say. -/
theorem Says.dialect_eq (h : Says files command arguments given settings) :
    settings.dialect =
      { loadStoreMovesIndex := decide (.legacyLoadStore ∈ given)
        indexOverflowFlag := decide (.noIndexOverflow ∉ given) } := by
  refine congrArg₂ Dialect.mk ?_ ?_
  · by_cases hgiven : .legacyLoadStore ∈ given
    · rw [decide_eq_true hgiven]
      exact (h .legacyLoadStore).1 hgiven
    · rw [decide_eq_false hgiven]
      rw [show settings.dialect.loadStoreMovesIndex = _ from (h .legacyLoadStore).2 hgiven,
        standard_dialect]
  · by_cases hgiven : .noIndexOverflow ∈ given
    · rw [decide_eq_false (not_not.mpr hgiven)]
      exact (h .noIndexOverflow).1 hgiven
    · rw [decide_eq_true hgiven]
      rw [show settings.dialect.indexOverflowFlag = _ from (h .noIndexOverflow).2 hgiven,
        standard_dialect]

/-- The numbers are in range, whatever was given. -/
theorem Says.inRange (h : Says files command arguments given settings) :
    counts.contains settings.cycles = true ∧ scales.contains settings.scale = true ∧
      counts.contains settings.rate = true := by
  have hstandard : counts.contains (standard command).cycles = true ∧
      scales.contains (standard command).scale = true ∧
      counts.contains (standard command).rate = true := by
    cases command <;> exact ⟨rfl, rfl, rfl⟩
  obtain ⟨hcycles, hscale, hrate⟩ := hstandard
  refine ⟨?_, ?_, ?_⟩
  · exact Interval.contains_of_given (h .cycles).1 (h .cycles).2 hcycles
  · exact Interval.contains_of_given (h .scale).1 (h .scale).2 hscale
  · exact Interval.contains_of_given (h .rate).1 (h .rate).2 hrate

end Settings

/-! ## Requests

A request is checked in the order in which the command line is: the settings, the operand, the file
that is to be written, and what is left over. Each of these must succeed, and what comes out is what
has gone in, so the checks can be read as conditions. -/

theorem Arguments.mem_settings_iff {arguments : Arguments} {setting : Setting} :
    setting ∈ arguments.settings ↔ arguments.gives setting = true := by
  rw [settings, List.mem_eraseDups, gives, List.any_eq_true, List.mem_map]
  simp only [decide_eq_true_iff]

namespace Request

variable {files : Files} {command : Command} {arguments : Arguments} {settings : Settings}

theorem blame_eq_ok_iff {α : Type} {parameter : String} {checked : Except ValueError α} {value : α} :
    blame parameter checked = .ok value ↔ checked = .ok value := by
  cases checked with
  | error error => exact iff_of_false nofun nofun
  | ok found => simp [blame]

/-- What options say of settings is still said when more options are put in, one after the other. -/
theorem says_of_foldlM {left given : List Setting} {before : Settings}
    (hbefore : before.Says files command arguments given)
    (h : left.foldlM (fun settings setting =>
      blame (parameter command setting)
        (settings.set files setting (arguments.value setting))) before = .ok settings) :
    settings.Says files command arguments (given ++ left) := by
  induction left generalizing given before with
  | nil =>
      obtain rfl := Except.ok.inj h
      rwa [List.append_nil]
  | cons setting rest ih =>
      rw [List.foldlM_cons] at h
      obtain ⟨after, hset, hrest⟩ := bind_eq_ok_iff.mp h
      have hafter := hbefore.set (blame_eq_ok_iff.mp hset)
      -- The option that was left is now the last one that is given.
      rw [List.append_cons]
      exact ih hafter hrest

/-- The settings of a command are what its options say. -/
theorem says_of_settings (h : Request.settings files command arguments = .ok settings) :
    settings.Says files command arguments arguments.settings :=
  says_of_foldlM (Settings.says_standard files command arguments) h

theorem run_eq_ok_iff {request accepted : Request} {extra : List String} :
    (if extra.isEmpty then .ok accepted else .error (.extra extra) : Except UsageError Request) =
        .ok request ↔ extra = [] ∧ accepted = request := by
  cases extra with
  | nil => simp
  | cons first rest => simp

/-- A file is run if the options can be read, it is the only operand, and the files are there that are
needed. -/
theorem check_eq_ok_iff {request : Request} :
    check files command arguments = .ok request ↔
      ∃ settings rom, Request.settings files command arguments = .ok settings ∧
        arguments.operands = [rom] ∧ Settings.checkRom files rom = .ok rom ∧
        (command = .record → Settings.checkOut files settings.out = .ok settings.out) ∧
        .run command settings rom = request := by
  constructor
  · intro h
    obtain ⟨settings, hsettings, hrest⟩ := bind_eq_ok_iff.mp h
    cases hoperands : arguments.operands with
    | nil =>
        rw [hoperands] at hrest
        cases hrest
    | cons rom extra =>
        rw [hoperands] at hrest
        obtain ⟨checked, hblamed, hleft⟩ := bind_eq_ok_iff.mp hrest
        have hrom := blame_eq_ok_iff.mp hblamed
        obtain rfl := (Settings.checkRom_eq_ok_iff.mp hrom).1
        cases command with
        | record =>
            obtain ⟨out, hblamed, hlast⟩ := bind_eq_ok_iff.mp hleft
            have hout := blame_eq_ok_iff.mp hblamed
            obtain rfl := (Settings.checkOut_eq_ok_iff.mp hout).1
            obtain ⟨rfl, hrequest⟩ := run_eq_ok_iff.mp hlast
            exact ⟨settings, checked, hsettings, rfl, hrom, fun _ => hout, hrequest⟩
        | play =>
            obtain ⟨rfl, hrequest⟩ := run_eq_ok_iff.mp hleft
            exact ⟨settings, checked, hsettings, rfl, hrom, nofun, hrequest⟩
  · rintro ⟨settings, rom, hsettings, hoperands, hrom, hout, rfl⟩
    -- All conditions hold, so no check refuses the request.
    rw [check, hsettings]
    simp only [bind, Except.bind, hoperands, hrom, blame]
    cases command with
    | record =>
        rw [hout rfl]
        rfl
    | play => rfl

variable {typed : List String} {rom : String}

/-- What is behind a request to run a file. -/
theorem read_of_run (h : ofCommand files command typed = .ok (.run command settings rom)) :
    ∃ read, Arguments.read command.switches true typed = .ok read ∧
      settings.Says files command read read.settings ∧ read.operands = [rom] ∧
      Settings.checkRom files rom = .ok rom := by
  rw [ofCommand] at h
  split at h
  · cases h
  · next read hread =>
    split at h
    · cases h
    · obtain ⟨said, operand, hsettings, hoperands, hrom, -, hrequest⟩ := check_eq_ok_iff.mp h
      obtain ⟨-, rfl, rfl⟩ := Request.run.inj hrequest
      exact ⟨read, hread, says_of_settings hsettings, hoperands, hrom⟩

/-- Both commands take the same two switches for the dialect, and it is what they say. -/
theorem dialect_of_run (h : ofCommand files command typed = .ok (.run command settings rom))
    {read : Arguments} (hread : Arguments.read command.switches true typed = .ok read) :
    settings.dialect =
      { loadStoreMovesIndex := read.gives .legacyLoadStore
        indexOverflowFlag := !read.gives .noIndexOverflow } := by
  obtain ⟨read', hread', hsettings, -⟩ := read_of_run h
  obtain rfl : read' = read := Except.ok.inj (hread'.symm.trans hread)
  rw [hsettings.dialect_eq]
  simp [Arguments.mem_settings_iff]

/-- The numbers that are asked for are in range. -/
theorem inRange_of_run (h : ofCommand files command typed = .ok (.run command settings rom)) :
    Settings.counts.contains settings.cycles = true ∧
      Settings.scales.contains settings.scale = true ∧
      Settings.counts.contains settings.rate = true := by
  obtain ⟨read, -, hsettings, -⟩ := read_of_run h
  exact hsettings.inRange

/-- A file that is to be played and one that is to be recorded, with the same switches for the dialect: the
dialects are the same, and so many ticks in a second are at least one. -/
theorem agree_of_run {typed' : List String} {played recorded : Settings} {read read' : Arguments}
    (hplayed : ofCommand files .play typed = .ok (.run .play played rom))
    (hrecorded : ofCommand files .record typed' = .ok (.run .record recorded rom))
    (hread : Arguments.read (Command.switches .play) true typed = .ok read)
    (hread' : Arguments.read (Command.switches .record) true typed' = .ok read')
    (hloadStore : read.gives .legacyLoadStore = read'.gives .legacyLoadStore)
    (hoverflow : read.gives .noIndexOverflow = read'.gives .noIndexOverflow) :
    played.dialect = recorded.dialect ∧ Settings.scales.contains played.scale = true ∧
      Settings.scales.contains recorded.scale = true ∧ played.rate ≠ 0 := by
  obtain ⟨-, hscale, hrate⟩ := inRange_of_run hplayed
  refine ⟨?_, hscale, (inRange_of_run hrecorded).2.1, ?_⟩
  · rw [dialect_of_run hplayed hread, dialect_of_run hrecorded hread', hloadStore, hoverflow]
  · intro hnone
    rw [hnone] at hrate
    cases hrate

/-- The name of a command stands in front of its arguments. -/
theorem ofArguments_of_command {request : Request} (h : ofCommand files command typed = .ok request) :
    ofArguments files (command.name :: typed) = .ok request := by
  have hread : Arguments.read CommandLine.switches false (command.name :: typed) =
      .ok { operands := command.name :: typed } := by cases command <;> rfl
  have hname : Command.ofName? command.name = some command := by cases command <;> rfl
  rw [ofArguments, hread]
  simp only [eager?, Arguments.settings, List.map_nil, List.eraseDups_nil, List.findSome?_nil, hname, h]

end Request

end ChipEight
