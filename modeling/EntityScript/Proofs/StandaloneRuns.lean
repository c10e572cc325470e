import EntityScript.CommandLine.Execute
import EntityScript.Proofs.ProgramImage
import EntityScript.Proofs.ReportSums
import EntityScript.Proofs.SettingsVariables
import EntityScript.Proofs.SteadyTurns

namespace EntityScript

theorem Status.name_of_isLoaded {status : Status} (h : status.isLoaded = true) :
    status.name ∈ ["Running", "Suspended"] := by
  cases status with
  | idle => cases h
  | running => decide
  | suspended => decide
  | halted => cases h

namespace CommandLine

open Actor

theorem steady_reportCall (slot : Nat) : Native.Steady (reportCall slot) :=
  (Native.Steady.of_unchanged fun _ _ => rfl).bind fun _ => (Native.Steady.report rfl).bind fun _ =>
    .of_unchanged fun _ _ => rfl

theorem steady_reportingTable (category : Category) : (reportingTable category).Steady := by
  intro slot native h
  simp only [NativeTable.get?, reportingTable, Vector.getElem?_ofFn] at h
  split at h
  · obtain rfl := Option.some.inj h
    split
    · exact .delay
    · exact steady_reportCall _
  · cases h

section Loop

variable {table : NativeTable Standalone} {a : Actor Standalone} (ticks : Nat)
  (events : Array Event) (limit : Nat)

theorem tickUpTo_goes (hidle : (a.tick table).value ≠ .idle)
    (hgoes : (a.tick table).value.fault? = none) :
    tickUpTo table ticks events (limit + 1) a =
      tickUpTo table (ticks + 1) (events ++ (a.tick table).events) limit (a.turned table) := by
  rw [tickUpTo]
  cases hvalue : (a.tick table).value with
  | idle => exact (hidle hvalue).elim
  | halted fault =>
      rw [hvalue] at hgoes
      cases hgoes
  | waiting left => rfl
  | ran instructions => rfl

theorem tickUpTo_halts {fault : Fault} (h : (a.tick table).value = .halted fault) :
    tickUpTo table ticks events (limit + 1) a =
      ⟨ticks + 1, some fault, a.turned table, events ++ (a.tick table).events⟩ := by
  rw [tickUpTo, h]
  rfl

theorem tickUpTo_eq (hsteady : table.Steady) (hloaded : a.engine.machine.ip ≠ none) :
    ∃ turns fault?, TurnsUpTo table a limit turns fault? ∧
      tickUpTo table ticks events limit a =
        ⟨ticks + turns, fault?, (turned table)^[turns] a,
          events ++ (a.turnEvents table turns).toArray⟩ := by
  induction limit generalizing ticks events a with
  | zero => exact ⟨0, none, .all nofun, by simp [tickUpTo, turnEvents]⟩
  | succ limit ih =>
      obtain ⟨hidle, hfares⟩ := tick_fares hsteady hloaded
      cases hvalue : (a.tick table).value.fault? with
      | some fault =>
          have hhalted := Turn.fault?_eq_some_iff.1 hvalue
          refine ⟨1, some fault, .halted limit.succ_pos hhalted nofun, ?_⟩
          rw [tickUpTo_halts ticks events limit hhalted]
          simp [turnEvents]
      | none =>
          -- The turns that are left are those of the engine after this one, which is still loaded.
          rw [hvalue] at hfares
          obtain ⟨turns, fault?, hturns, heq⟩ :=
            ih (ticks + 1) (events ++ (a.tick table).events) (hfares.loaded rfl)
          refine ⟨turns + 1, fault?, hturns.succ hvalue, ?_⟩
          rw [tickUpTo_goes ticks events limit hidle hvalue, heq, turnEvents_turned,
            Function.iterate_succ_apply, Nat.add_assoc, Nat.add_comm 1, Array.append_assoc,
            ← List.append_toArray]

end Loop

section Chosen

variable (request : RunRequest) (world : World)

/-- The settings that a run is asked to use. -/
def RunRequest.chosen : Settings where
  instructionBudget :=
    request.budget.getD (Settings.ofEnvironment world.environment).1.instructionBudget
  ticksPerDelayUnit :=
    request.ticksPerDelayUnit.getD (Settings.ofEnvironment world.environment).1.ticksPerDelayUnit

theorem getD_ne {α : Type} {asked : Option α} {default zero : α} (hasked : asked ≠ some zero)
    (hdefault : default ≠ zero) : asked.getD default ≠ zero := by
  cases asked with
  | none => exact hdefault
  | some value => exact fun hzero => hasked (congrArg some hzero)

theorem RunRequest.settings_eq (hbudget : request.budget ≠ some 0)
    (hunit : request.ticksPerDelayUnit ≠ some 0) :
    request.settings world =
      (.ok (request.chosen world), (Settings.ofEnvironment world.environment).2) := by
  obtain ⟨hbudget', hunit'⟩ := Settings.ofEnvironment_positive world.environment
  rw [RunRequest.settings, RunRequest.chosen]
  generalize Settings.ofEnvironment world.environment = found at hbudget' hunit' ⊢
  obtain ⟨defaults, events⟩ := found
  dsimp only at hbudget' hunit' ⊢
  rw [if_neg (getD_ne hbudget hbudget'), if_neg (getD_ne hunit hunit')]

end Chosen

/-- What a run starts with: an engine at the entry of a subtype. -/
def RunRequest.starter (request : RunRequest) (world : World) (program : Program) (entry : Word) :
    Actor Standalone :=
  ⟨{ program := program, settings := request.chosen world, machine := { ip := some entry } },
    ⟨request.category, request.subtype⟩⟩

section Output

open Text

variable {e : RunEnd} {shown : List String}

theorem RunEnd.toList_text (h : e.fault = none)
    (hshown : e.actor.engine.report.text.toList = ended shown) :
    e.text.toList = ended ([s!"{e.ticks} ticks, engine {e.actor.engine.status.name}"] ++ shown) := by
  rw [RunEnd.text, h, List.singleton_append, ended_cons, ← hshown]
  simp only [String.empty_append, toString, String.toList_append, List.append_assoc]
  rfl

theorem RunEnd.toList_text_halted {fault : Fault} (h : e.fault = some fault)
    (hstatus : e.actor.engine.status = .halted)
    (hshown : e.actor.engine.report.text.toList = ended shown) :
    e.text.toList = ended ([s!"halted on tick {e.ticks}: " ++ fault.message,
      s!"{e.ticks} ticks, engine Halted"] ++ shown) := by
  rw [RunEnd.text, h, hstatus, List.cons_append, List.singleton_append, ended_cons, ended_cons,
    ← hshown]
  simp only [Status.name, toString, String.toList_append, List.append_assoc]
  rfl

end Output

section Run

variable {world : World} {arguments : List String} {request : RunRequest} {bytes : Bytes}
  {program : Program} {entry : Word}

theorem run_eq (hcontents : world.contents request.path = .ok bytes)
    (hprogram : Program.ofBytes bytes = .ok program)
    (hentry : program.entry? request.subtype = some entry) (hbudget : request.budget ≠ some 0)
    (hunit : request.ticksPerDelayUnit ≠ some 0) :
    ∃ events,
      let ended := tickUpTo (reportingTable request.category) 0 events request.ticks
        (request.starter world program entry)
      run world request = .finished ended.text none ended.events := by
  obtain ⟨loadEvents, hload⟩ : ∃ events, Program.load bytes = .ok (program, events) := by
    rw [Program.load, hprogram]
    exact ⟨_, rfl⟩
  simp only [run, loadProgram, hcontents, hload, request.settings_eq world hbudget hunit,
    Engine.load, Engine.reset, hentry]
  exact ⟨_, rfl⟩

theorem execute_run (harguments : Invocation.ofArguments arguments = .command (.run request))
    (hcontents : world.contents request.path = .ok bytes)
    (hprogram : Program.ofBytes bytes = .ok program)
    (hentry : program.entry? request.subtype = some entry) (hbudget : request.budget ≠ some 0)
    (hunit : request.ticksPerDelayUnit ≠ some 0) :
    let start := request.starter world program entry
    let table := reportingTable request.category
    ∃ turns fault? before, TurnsUpTo table start request.ticks turns fault? ∧
      let events := before ++ (start.turnEvents table turns).toArray
      execute world arguments =
        .finished (RunEnd.text ⟨turns, fault?, (turned table)^[turns] start, events⟩) none
          events := by
  intro start table
  have hloaded : start.engine.machine.ip ≠ none := Option.some_ne_none entry
  obtain ⟨before, hrun⟩ := run_eq hcontents hprogram hentry hbudget hunit
  obtain ⟨turns, fault?, hturns, hended⟩ :=
    tickUpTo_eq 0 before request.ticks (steady_reportingTable request.category) hloaded
  rw [Nat.zero_add] at hended
  refine ⟨turns, fault?, before, hturns, ?_⟩
  rw [execute, harguments]
  dsimp only at hrun ⊢
  rw [hrun, hended]

/-- A run gives the script its turns, up to the first that fails or the limit, and shows which of
the two it was and what the engine did.  An engine that is not halted is still loaded, so no turn is
idle. -/
theorem run_reported (harguments : Invocation.ofArguments arguments = .command (.run request))
    (hcontents : world.contents request.path = .ok bytes)
    (hprogram : Program.ofBytes bytes = .ok program)
    (hentry : program.entry? request.subtype = some entry) (hbudget : request.budget ≠ some 0)
    (hunit : request.ticksPerDelayUnit ≠ some 0) :
    let start := request.starter world program entry
    let table := reportingTable request.category
    let turn (n : Nat) : Turn := (((turned table)^[n] start).tick table).value
    ∃ output turns before opcodes calls,
      let report := ((turned table)^[turns] start).engine.report
      execute world arguments =
          .finished output none (before ++ (start.turnEvents table turns).toArray) ∧
        (∀ last < request.ticks, ∀ fault, turn last = .halted fault →
          (∀ n < last, ∀ earlier, turn n ≠ .halted earlier) →
            turns = last + 1 ∧ report.halts = 1 ∧
              output.toList = Text.ended ([s!"halted on tick {turns}: " ++ fault.message,
                s!"{turns} ticks, engine Halted"] ++ Report.shownLines opcodes calls 1)) ∧
        ((∀ n < request.ticks, ∀ fault, turn n ≠ .halted fault) →
          turns = request.ticks ∧ report.halts = 0 ∧
            ∃ status ∈ ["Running", "Suspended"],
              output.toList = Text.ended
                ([s!"{turns} ticks, engine {status}"] ++ Report.shownLines opcodes calls 0)) ∧
        report.opcodes.Lists opcodes ∧ report.calls.Lists calls ∧
        (∀ n < turns, turn n ≠ .idle) ∧
        report.opcodes.total = (opcodes.map Prod.snd).sum ∧
        report.opcodes.total ≤ (request.chosen world).instructionBudget * turns ∧
        report.opcodes.total = (start.turnEvents table turns).countP Event.executes := by
  intro start table turn
  have hsteady : table.Steady := steady_reportingTable request.category
  have hloaded : start.engine.machine.ip ≠ none := Option.some_ne_none entry
  have hover : start.engine.Over program (request.chosen world) := ⟨rfl, rfl, nofun⟩
  obtain ⟨turns, fault?, before, hturns, hexecute⟩ :=
    execute_run harguments hcontents hprogram hentry hbudget hunit
  obtain ⟨hle, htotal⟩ := iterate_executes hsteady hover turns
  have hfares := hturns.fares hsteady hloaded
  have htotal' : ((turned table)^[turns] start).engine.report.opcodes.total =
      (start.turnEvents table turns).countP Event.executes := htotal.trans (Nat.zero_add _)
  have hshown := ((turned table)^[turns] start).engine.report.toList_text
  have hopcodes := ((turned table)^[turns] start).engine.report.opcodes.lists_byCount
  refine ⟨_, turns, before, _, _, hexecute, ?_, ?_, hopcodes, Tally.lists_byCount _,
    fun n hn => hturns.ne_idle hsteady hloaded hn, hopcodes.total_eq, htotal'.trans_le hle, htotal'⟩
  · intro last hlast fault hhalts hfirst
    obtain ⟨hlength, rfl⟩ := hturns.of_halted hlast hhalts fun n hn =>
      Turn.fault?_eq_none_iff.2 (hfirst n hn)
    rw [hfares.halts] at hshown
    exact ⟨hlength, hfares.halts, RunEnd.toList_text_halted rfl hfares.status.1 hshown⟩
  · intro hgoes
    obtain ⟨hlength, rfl⟩ := hturns.of_goes fun n hn => Turn.fault?_eq_none_iff.2 (hgoes n hn)
    rw [hfares.halts] at hshown
    exact ⟨hlength, hfares.halts, _, Status.name_of_isLoaded hfares.status.1,
      RunEnd.toList_text rfl hshown⟩

end Run

/-- A delay of two ticks, and then an instruction that names no operation. -/
theorem run_reported_after_delay :
    let program : Program := { entries := #[0], words := #[0x430A, 0x0E00, 0x1F00] }
    let world : World :=
      { environment := fun _ => none, contents := fun _ => .ok program.toBytes }
    let output :=
      "halted on tick 4: unknown opcode 31\n" ++
      "4 ticks, engine Halted\n" ++
      "opcode counts (2 total instructions):\n" ++
      "  push        1\n" ++
      "  call        1\n" ++
      "function counts (1 total calls):\n" ++
      "  0        1\n" ++
      "halts: 1\n"
    ∃ events,
      execute world ["run", "a.emc", "--budget=3", "-t", "10"] = .finished output none events := by
  intro program world output
  let request : RunRequest := { path := "a.emc", ticks := 10, budget := some 3 }
  have harguments : Invocation.ofArguments ["run", "a.emc", "--budget=3", "-t", "10"] =
      .command (.run request) := rfl
  have hcontents : world.contents request.path = .ok program.toBytes := rfl
  have hsize : 28 + (program.pool.size + program.pool.size % 2) + 2 * program.entries.size +
      2 * program.words.size < 4294967296 := by decide
  have hprogram : Program.ofBytes program.toBytes = .ok program := by
    have hread := Program.ofBytes_toBytes hsize []
    rwa [List.append_nil] at hread
  have hentry : program.entry? request.subtype = some 0 := rfl
  obtain ⟨found, turns, before, opcodes, calls, hexecute, hhalts, -, hopcodes, hcalls, -⟩ :=
    run_reported harguments hcontents hprogram hentry (by decide) (by decide)
  obtain ⟨rfl, -, houtput⟩ := hhalts 3 (by decide) (.unknownOpcode 31) (by decide +kernel) (by
    intro n hn
    rw [← Turn.fault?_eq_none_iff]
    interval_cases n <;> decide +kernel)
  have hrows := hopcodes.unordered [(.push, 1), (.function, 1)] (by decide +kernel)
  rw [List.mergeSort_of_pairwise (by decide)] at hrows
  have hslots := hcalls.unordered [(0, 1)] (by decide +kernel)
  rw [List.mergeSort_singleton] at hslots
  rw [← hrows, ← hslots] at houtput
  obtain rfl : found = output := String.toList_inj.1 (houtput.trans (by decide +kernel))
  exact ⟨_, hexecute⟩

end CommandLine

end EntityScript
