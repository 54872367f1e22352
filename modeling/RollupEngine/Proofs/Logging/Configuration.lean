import RollupEngine.Proofs.Logging.Delivery

/-!
# How the log is configured

The configuration of a log is what setups change in it: whether it is set up, the rank of its root
and its handlers. However the log is used, its handlers are none, a console, or a file and a console
(`Configuration.Sound`). As long as the log is set up, setups do nothing to it, and only the rank of
its console can be changed. When it is not, the next use sets it up as if for the first time: the
configuration then depends on what comes of opening the file, and on nothing that was before
(`Configuration.setUp`, `LogStep.Does.tries`).

Files can be moved and variables set behind the back of the log. A run is therefore divided into
stages, and each of them finds an environment and files of its own; a file that could not be opened
in one may be opened in the next.
-/

namespace RollupEngine.Logging

/-! ## Configurations -/

/-- What a setup changes in a log, apart from the files. -/
structure Configuration where
  configured : Bool
  rootRank : Int
  handlers : List Handler
  deriving DecidableEq, Repr

/-- The configuration of a log. -/
def Log.configuration (log : Log) : Configuration :=
  { configured := log.configured, rootRank := log.rootRank, handlers := log.handlers }

/-- What comes of opening the file of a setup, if its path or the environment names one. -/
def setupFile (env : Environment) (path? : Option String) (v : Volume) :
    Except VolumeError (Option Location) :=
  match path?.or (defaultPath? env) with
  | none => .ok none
  | some path => (v.openFile path).1.map some

namespace Configuration

/-- The configuration that a setup leaves, by what came of opening its file. -/
def setUp (consoleRank : Int) : Except VolumeError (Option Location) → Configuration
  | .ok none =>
    { configured := true
      rootRank := Severity.debug.rank
      handlers := [.console consoleRank] }
  | .ok (some place) =>
    { configured := true
      rootRank := Severity.debug.rank
      handlers := [.file Severity.info.rank place, .console consoleRank] }
  | .error _ => { configured := false, rootRank := Severity.debug.rank, handlers := [] }

/-- What is true of every configuration. -/
structure Sound (c : Configuration) : Prop where
  handlers : c.handlers = [] ∨ (∃ rank, c.handlers = [.console rank]) ∨
    ∃ place rank, c.handlers = [.file Severity.info.rank place, .console rank]
  configured : c.configured = true → c.handlers ≠ [] ∧ c.rootRank = Severity.debug.rank

theorem sound_setUp (consoleRank : Int) (file : Except VolumeError (Option Location)) :
    (setUp consoleRank file).Sound := by
  match file with
  | .ok none => exact ⟨.inr (.inl ⟨consoleRank, rfl⟩), fun _ => ⟨nofun, rfl⟩⟩
  | .ok (some place) => exact ⟨.inr (.inr ⟨place, consoleRank, rfl⟩), fun _ => ⟨nofun, rfl⟩⟩
  | .error _ => exact ⟨.inl rfl, nofun⟩

end Configuration

/-! ## Setups -/

namespace Log

variable {env : Environment} {path? : Option String} {consoleRank : Int} {log log' : Log}
  {o : Except VolumeError Unit}

/-- A setup does nothing to a log that is set up. -/
theorem SetsUp.eq_of_configured (h : log.SetsUp env path? consoleRank o log')
    (hc : log.configured = true) : o = .ok () ∧ log' = log := by
  cases h with
  | kept => exact ⟨rfl, rfl⟩
  | console hn | file hn | failed hn => cases hn.symm.trans hc

/-- A setup of a log that is not set up has regard to its files only. -/
theorem SetsUp.tries (h : log.SetsUp env path? consoleRank o log')
    (hc : log.configured = false) :
    o = (setupFile env path? log.volume).map (fun _ => ()) ∧
      log'.configuration = .setUp consoleRank (setupFile env path? log.volume) := by
  rw [setupFile]
  cases h with
  | kept hn => cases hn.symm.trans hc
  | console _ hp =>
    rw [hp]
    exact ⟨rfl, rfl⟩
  | file _ hp ho =>
    rw [hp]
    dsimp only
    rw [ho]
    exact ⟨rfl, rfl⟩
  | failed _ hp ho =>
    rw [hp]
    dsimp only
    rw [ho]
    refine ⟨rfl, ?_⟩
    rw [configuration, hc]
    rfl

/-- A setup that succeeds has opened its file. -/
theorem SetsUp.opened (h : log.SetsUp env path? consoleRank (.ok ()) log')
    (hc : log.configured = false) : ∃ file, setupFile env path? log.volume = .ok file ∧
      log'.configuration = .setUp consoleRank (.ok file) := by
  obtain ⟨ho, hconf⟩ := h.tries hc
  cases hfile : setupFile env path? log.volume with
  | ok file => exact ⟨file, rfl, hfile ▸ hconf⟩
  | error e =>
    rw [hfile] at ho
    cases ho

/-- A setup that fails has failed to open its file. -/
theorem SetsUp.unopened {e : VolumeError}
    (h : log.SetsUp env path? consoleRank (.error e) log') (hc : log.configured = false) :
    setupFile env path? log.volume = .error e ∧
      log'.configuration = .setUp consoleRank (.error e) := by
  obtain ⟨ho, hconf⟩ := h.tries hc
  cases hfile : setupFile env path? log.volume with
  | ok file =>
    rw [hfile] at ho
    cases ho
  | error e =>
    rw [hfile] at ho
    cases ho
    exact ⟨rfl, hfile ▸ hconf⟩

/-- A setup that fails leaves no handlers. -/
theorem SetsUp.failed_eq {e : VolumeError}
    (h : log.SetsUp env path? consoleRank (.error e) log') :
    log'.configured = false ∧ log'.handlers = [] := by
  cases h with
  | failed hc => exact ⟨hc, rfl⟩

theorem SetsUp.sound (h : log.SetsUp env path? consoleRank o log')
    (hlog : log.configuration.Sound) : log'.configuration.Sound := by
  cases hc : log.configured with
  | true =>
    rw [(h.eq_of_configured hc).2]
    exact hlog
  | false =>
    rw [(h.tries hc).2]
    exact Configuration.sound_setUp ..

/-- A record does not change how the log is configured. -/
theorem configuration_deliver (log : Log) (r : LogRecord) :
    (log.deliver r).configuration = log.configuration := by
  obtain ⟨volume, console, h⟩ := log.deliver_eq r
  rw [h]
  rfl

/-- A console gets the rank that it would have if it were set up with it. -/
theorem configuration_rerank {file : Option Location} (rank : Int)
    (h : log.configuration = .setUp consoleRank (.ok file)) :
    (log.rerank rank).configuration = .setUp rank (.ok file) := by
  obtain ⟨configured, rootRank, handlers, volume, console⟩ := log
  cases file <;> cases h <;> rfl

theorem sound_rerank (h : log.configuration.Sound) (rank : Int) :
    (log.rerank rank).configuration.Sound := by
  obtain ⟨configured, rootRank, handlers, volume, console⟩ := log
  obtain ⟨hhandlers, hconfigured⟩ := h
  obtain rfl | ⟨k, rfl⟩ | ⟨place, k, rfl⟩ : handlers = [] ∨ _ := hhandlers
  · exact ⟨.inl rfl, hconfigured⟩
  · exact ⟨.inr (.inl ⟨rank, rfl⟩), fun hc => ⟨nofun, (hconfigured hc).2⟩⟩
  · exact ⟨.inr (.inr ⟨place, rank, rfl⟩), fun hc => ⟨nofun, (hconfigured hc).2⟩⟩

end Log

/-! ## Steps -/

namespace LogStep

/-- The setup that a use of the log asks for: its path, and the rank that its console is left
with. -/
def setup? : LogStep → Option (Option String × Int)
  | .setup path? rank => some (path?, rank)
  | .loggerFor _ | .emit .. => some (none, Severity.warning.rank)
  | .setConsoleRank rank => some (none, rank)
  | .forget => none

/-- What a use of the log answers, unless it fails. -/
def reply : LogStep → Option String
  | .loggerFor name => some (loggerName name)
  | _ => none

variable {env : Environment} {step : LogStep} {log log' : Log}
  {o : Except VolumeError (Option String)}

theorem Does.sound (h : step.Does env log o log') (hlog : log.configuration.Sound) :
    log'.configuration.Sound := by
  cases h with
  | setup h | named h | unranked h | lost h => exact h.sound hlog
  | reranked h => exact Log.sound_rerank (h.sound hlog) _
  | emitted h =>
    rw [Log.configuration_deliver]
    exact h.sound hlog
  | forgotten => exact ⟨hlog.handlers, nofun⟩

/-- A use of the log fails only with the setup that it asks for. -/
theorem Does.failed_eq {e : VolumeError} (h : step.Does env log (.error e) log') :
    log'.configured = false ∧ log'.handlers = [] := by
  generalize ho : Except.error e = o at h
  cases h with
  -- What these two answer is what the setup answers, mapped, so the setup has failed as well.
  | @setup _ _ o _ h | @named _ o _ h =>
    cases o with
    | ok _ => cases ho
    | error _ => exact h.failed_eq
  | unranked h | lost h => exact h.failed_eq
  | reranked | emitted | forgotten => cases ho

/-- A use of a log that is not set up sets it up, if its file can be opened, and fails if not. -/
theorem Does.tries {path? : Option String} {rank : Int} (h : step.Does env log o log')
    (hc : log.configured = false) (hs : step.setup? = some (path?, rank)) :
    o = (setupFile env path? log.volume).map (fun _ => step.reply) ∧
      log'.configuration = .setUp rank (setupFile env path? log.volume) := by
  cases h with
  | setup h | named h =>
    cases hs
    obtain ⟨rfl, hconf⟩ := h.tries hc
    refine ⟨?_, hconf⟩
    cases setupFile env _ log.volume <;> rfl
  | reranked h =>
    cases hs
    obtain ⟨file, hfile, hconf⟩ := h.opened hc
    rw [hfile]
    exact ⟨rfl, Log.configuration_rerank rank hconf⟩
  | emitted h =>
    cases hs
    obtain ⟨file, hfile, hconf⟩ := h.opened hc
    rw [hfile]
    exact ⟨rfl, (Log.configuration_deliver ..).trans hconf⟩
  -- Without a file there is no console either, and the rank it was asked for does not matter.
  | unranked h | lost h =>
    cases hs
    obtain ⟨hfile, hconf⟩ := h.unopened hc
    rw [hfile]
    exact ⟨rfl, hconf⟩
  | forgotten => cases hs

end LogStep

/-! ## Runs in stages -/

/-- A part of a run in which the log is used and nobody else touches the files: the environment and
the files that it finds, and the uses. A fresh log in a single stage is used as in `Log.run`. -/
structure Stage where
  env : Environment
  volume : Volume
  steps : List LogStep

namespace Log

/-- The log after a number of stages. -/
def runStages (stages : List Stage) (log : Log) : Log :=
  stages.foldl (fun log s => Log.run s.env s.steps { log with volume := s.volume }) log

theorem sound_run (env : Environment) (steps : List LogStep) {log : Log}
    (h : log.configuration.Sound) : (Log.run env steps log).configuration.Sound := by
  induction steps generalizing log with
  | nil => exact h
  | cons step steps ih => exact ih ((step.does env log).sound h)

theorem sound_runStages (stages : List Stage) {log : Log} (h : log.configuration.Sound) :
    (runStages stages log).configuration.Sound := by
  induction stages generalizing log with
  | nil => exact h
  | cons s stages ih => exact ih (sound_run s.env s.steps h)

/-- A log that was never set up. -/
theorem sound_fresh : (configuration {}).Sound :=
  ⟨.inl rfl, nofun⟩

/-- However the log is used from the start, in whatever environments and with whatever files, its
handlers are none, a console, or a file and a console, and some if it is set up. While it is set up,
setting it up and getting a logger change nothing, and a change of the console's rank changes
nothing else. A use that fails leaves the log without handlers and not set up; and when it is not
set up, the next use that needs a setup makes of it what a first setup with these files would
make. -/
theorem runStages_configures (stages : List Stage) :
    let log := runStages stages {}
    (log.handlers = [] ∨ (∃ rank, log.handlers = [.console rank]) ∨
      ∃ place rank, log.handlers = [.file Severity.info.rank place, .console rank]) ∧
    (log.configured = true → log.handlers ≠ [] ∧ log.rootRank = Severity.debug.rank ∧
      ∀ env,
        (∀ path? rank, (LogStep.setup path? rank).perform env log = (.ok none, log)) ∧
        (∀ name, (LogStep.loggerFor name).perform env log = (.ok (some (loggerName name)), log)) ∧
        (∀ rank, (LogStep.setConsoleRank rank).perform env log = (.ok none, log.rerank rank)) ∧
        ∀ name rank message,
          ((LogStep.emit name rank message).perform env log).2.configuration =
            log.configuration) ∧
    ∀ (env : Environment) (step : LogStep),
      let after := step.perform env log
      (∀ e, after.1 = .error e → after.2.configured = false ∧ after.2.handlers = []) ∧
      ∀ path? rank, log.configured = false → step.setup? = some (path?, rank) →
        let file := setupFile env path? log.volume
        let first := (LogStep.setup path? rank).perform env { volume := log.volume }
        after.1 = file.map (fun _ => step.reply) ∧
          after.2.configuration = .setUp rank file ∧
          after.2.configuration = first.2.configuration := by
  intro log
  have hsound : log.configuration.Sound := sound_runStages stages sound_fresh
  refine ⟨hsound.handlers, fun hc => ?_, fun env step => ?_⟩
  · obtain ⟨hne, hroot⟩ := hsound.configured hc
    refine ⟨hne, hroot, fun env => ⟨fun _ _ => (LogStep.Does.setup (.kept hc)).perform,
      fun _ => (LogStep.Does.named (.kept hc)).perform,
      fun _ => (LogStep.Does.reranked (.kept hc)).perform, fun name rank message => ?_⟩⟩
    rw [(LogStep.Does.emitted (.kept hc)).perform]
    exact configuration_deliver ..
  · intro after
    have hdoes : step.Does env log after.1 after.2 := step.does env log
    refine ⟨fun e he => ?_, fun path? rank hc hs => ?_⟩
    · rw [he] at hdoes
      exact hdoes.failed_eq
    · intro file first
      obtain ⟨ho, hconf⟩ := hdoes.tries hc hs
      have hfirst := LogStep.does env (.setup path? rank) { volume := log.volume }
      exact ⟨ho, hconf, hconf.trans (hfirst.tries rfl rfl).2.symm⟩

/-- A directory is in the way of the log file until it is moved. Then the first use that there is
sets up the log. -/
theorem moved_directory_configures :
    let env : Environment := fun name => if name = "ROLLKERNEL_LOG_PATH" then some "a.log" else none
    let blocked : Stage :=
      { env
        volume := { directories := [["a.log"]] }
        steps := [.setup none 30, .emit "rollkernel" 50 "lost"] }
    let moved (steps : List LogStep) : Stage := { env, volume := {}, steps }
    let lost := runStages [blocked] {}
    let free := runStages [blocked, moved []] {}
    let ready := runStages [blocked, moved [.setConsoleRank 10]] {}
    let asked := (LogStep.loggerFor "rollkernel").perform env lost
    asked.1 = .error .isADirectory ∧ asked.2.configured = false ∧ asked.2.handlers = [] ∧
      free.configured = false ∧ (LogStep.setConsoleRank 10).setup? = some (none, 10) ∧
      ((LogStep.setConsoleRank 10).perform env free).2.configuration =
        { configured := true, rootRank := 10, handlers := [.file 20 ["a.log"], .console 10] } ∧
      ready.configured = true ∧ ready.handlers ≠ [] ∧
      (LogStep.setup (some "b.log") 50).perform (fun _ => none) ready = (.ok none, ready) := by
  intro env blocked moved lost free ready asked
  have hasked : asked.1 = .error .isADirectory := by decide +kernel
  have hfree : free.configured = false := by decide +kernel
  have hready : ready.configured = true := by decide +kernel
  have hfile : setupFile env none free.volume = .ok (some ["a.log"]) := by decide +kernel
  obtain ⟨-, -, huse⟩ := runStages_configures [blocked]
  obtain ⟨hunconfigured, hnone⟩ := (huse env (.loggerFor "rollkernel")).1 _ hasked
  obtain ⟨-, -, huse⟩ := runStages_configures [blocked, moved []]
  obtain ⟨-, hconf, -⟩ := (huse env (.setConsoleRank 10)).2 none 10 hfree rfl
  rw [hfile] at hconf
  obtain ⟨-, hkept, -⟩ := runStages_configures [blocked, moved [.setConsoleRank 10]]
  obtain ⟨hne, -, hkeeps⟩ := hkept hready
  exact ⟨hasked, hunconfigured, hnone, hfree, rfl, hconf, hready, hne,
    (hkeeps fun _ => none).1 (some "b.log") 50⟩

end Log

end RollupEngine.Logging
