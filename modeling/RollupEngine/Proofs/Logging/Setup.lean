import RollupEngine.Logging.Setup

/-!
# What a setup does

`Log.SetsUp` is all that a setup does: nothing if the log is set up already, and else it installs
the handlers, or fails and leaves none. A log that is set up by nothing else is well formed
(`Log.Formed`): its handlers are none, a console, or a file and a console, in this order, and the
file is there. Opening a file loses nothing of what was written (`Volume.written_openFile`).

`LogStep.Does` is all that a use of the log does, in terms of the setup that it asks for.
-/

namespace RollupEngine.Logging

/-! ## Opening files -/

namespace Volume

variable {v : Volume}

/-- What was written to a file; nothing to one that is not there. -/
def written (v : Volume) (place : Location) : String :=
  (v.text? place).getD ""

/-- Directories are no files. -/
theorem text?_of_files {v' : Volume} (h : v'.files = v.files) (place : Location) :
    v'.text? place = v.text? place := by
  rw [text?, h, text?]

@[simp]
theorem files_makeDirectory (v : Volume) (place : Location) :
    (v.makeDirectory place).files = v.files := by
  unfold makeDirectory
  split <;> rfl

@[simp]
theorem files_makeDirectories (v : Volume) (gone : List String) (made : Bool)
    (steps : List String) : (v.makeDirectories gone made steps).2.files = v.files := by
  induction steps generalizing v gone made with
  | nil => rfl
  | cons step rest ih =>
    unfold makeDirectories
    dsimp only
    split
    · rfl
    · split
      · rfl
      · rw [ih, files_makeDirectory]

@[simp]
theorem files_makePath (v : Volume) (steps : List String) :
    (v.makePath steps).2.files = v.files := by
  unfold makePath
  split
  · rfl
  · exact files_makeDirectories v [] false steps

/-- To open a file fails, finds it, or makes it. -/
theorem openAt_cases (v : Volume) (place : Location) :
    (∃ e, v.openAt place = (.error e, v)) ∨
      (v.text? place).isSome = true ∧ v.openAt place = (.ok place, v) ∨
      v.text? place = none ∧
        v.openAt place = (.ok place, { v with files := (place, "") :: v.files }) := by
  unfold openAt
  cases pathFault? place with
  | some e => exact .inl ⟨e, rfl⟩
  | none =>
    cases place.any nameTooLong with
    | true => exact .inl ⟨.tooLong, rfl⟩
    | false =>
      cases v.isDirectory place with
      | true => exact .inl ⟨.isADirectory, rfl⟩
      | false =>
        cases v.text? place with
        | some t => exact .inr (.inl ⟨rfl, rfl⟩)
        | none => exact .inr (.inr ⟨rfl, rfl⟩)

/-- To open a file leaves every text as it was. -/
theorem written_openAt (v : Volume) (place other : Location) :
    (v.openAt place).2.written other = v.written other := by
  rcases v.openAt_cases place with ⟨e, h⟩ | ⟨-, h⟩ | ⟨hnone, h⟩ <;> rw [h]
  by_cases ho : place = other
  · subst ho
    rw [written, written, hnone]
    simp [text?]
  · simp [written, text?, ho]

theorem text?_isSome_of_openAt {place opened : Location} {v' : Volume}
    (h : v.openAt place = (.ok opened, v')) : (v'.text? opened).isSome = true := by
  rcases v.openAt_cases place with ⟨e, h'⟩ | ⟨hthere, h'⟩ | ⟨-, h'⟩
  · cases h.symm.trans h'
  · cases h.symm.trans h'
    exact hthere
  · cases h.symm.trans h'
    simp [text?]

theorem written_openFile (v : Volume) (path : String) (place : Location) :
    (v.openFile path).2.written place = v.written place := by
  have hfiles := files_makePath v (pathSteps path).dropLast
  unfold openFile
  dsimp only
  split
  · next heq =>
    rw [heq] at hfiles
    rw [written, text?_of_files hfiles, written]
  · next heq =>
    rw [heq] at hfiles
    rw [written_openAt, written, text?_of_files hfiles, written]

/-- A file that was opened is there. -/
theorem text?_isSome_of_openFile {path : String} {place : Location} {v' : Volume}
    (h : v.openFile path = (.ok place, v')) : (v'.text? place).isSome = true := by
  unfold openFile at h
  dsimp only at h
  split at h
  · cases h
  · exact text?_isSome_of_openAt h

/-- A file that is there is still there after a line was written. -/
theorem text?_isSome_append {place other : Location} {s : String}
    (h : (v.text? other).isSome = true) : ((v.append place s).text? other).isSome = true := by
  rw [text?_append]
  split
  · rwa [Option.isSome_map]
  · exact h

/-- What is written to a file that is there is all that changes. -/
theorem written_append {place other : Location} {s : String}
    (h : (v.text? place).isSome = true) :
    (v.append place s).written other = v.written other ++ if other = place then s else "" := by
  rw [written, text?_append, written]
  split
  · next ho =>
    subst ho
    obtain ⟨t, ht⟩ := Option.isSome_iff_exists.1 h
    simp [ht]
  · rw [String.append_empty]

end Volume

/-! ## Setting up -/

/-- The result of an operation on the log. -/
def LogAct.result {α : Type} (o : Except VolumeError α) (log : Log) :
    EStateM.Result VolumeError Log α :=
  match o with
  | .ok a => .ok a log
  | .error e => .error e log

/-- What a setup does. -/
inductive Log.SetsUp (env : Environment) (path? : Option String) (consoleRank : Int) (log : Log) :
    Except VolumeError Unit → Log → Prop
  | kept (h : log.configured = true) : SetsUp env path? consoleRank log (.ok ()) log
  | console (h : log.configured = false) (hp : path?.or (defaultPath? env) = none) :
    SetsUp env path? consoleRank log (.ok ())
      { log with
        rootRank := Severity.debug.rank
        handlers := [.console consoleRank]
        configured := true }
  | file {path : String} {place : Location} {v : Volume} (h : log.configured = false)
      (hp : path?.or (defaultPath? env) = some path)
      (ho : log.volume.openFile path = (.ok place, v)) :
    SetsUp env path? consoleRank log (.ok ())
      { log with
        rootRank := Severity.debug.rank
        handlers := [.file Severity.info.rank place, .console consoleRank]
        configured := true
        volume := v }
  | failed {path : String} {e : VolumeError} {v : Volume} (h : log.configured = false)
      (hp : path?.or (defaultPath? env) = some path)
      (ho : log.volume.openFile path = (.error e, v)) :
    SetsUp env path? consoleRank log (.error e)
      { log with rootRank := Severity.debug.rank, handlers := [], volume := v }

theorem Log.SetsUp.run {env : Environment} {path? : Option String} {consoleRank : Int}
    {log log' : Log} {o : Except VolumeError Unit} (h : log.SetsUp env path? consoleRank o log') :
    (setup env path? consoleRank).run log = LogAct.result o log' := by
  cases h with
  | kept h => simp [setup, h, LogAct.result]
  | console h hp => simp [setup, h, hp, LogAct.result]
  | file h hp ho | failed h hp ho => simp [setup, installFile, h, hp, ho, LogAct.result]

theorem setup_cases (env : Environment) (path? : Option String) (consoleRank : Int) (log : Log) :
    ∃ o log', log.SetsUp env path? consoleRank o log' := by
  cases h : log.configured with
  | true => exact ⟨_, _, .kept h⟩
  | false =>
    cases hp : path?.or (defaultPath? env) with
    | none => exact ⟨_, _, .console h hp⟩
    | some path =>
      rcases ho : log.volume.openFile path with ⟨e | place, v⟩
      · exact ⟨_, _, .failed h hp ho⟩
      · exact ⟨_, _, .file h hp ho⟩

/-! ## Well-formed logs -/

/-- The handlers that a setup leaves. -/
inductive Log.Installed (v : Volume) : List Handler → Prop
  | none : Installed v []
  | console (rank : Int) : Installed v [.console rank]
  | file {place : Location} (h : (v.text? place).isSome = true) (rank : Int) :
    Installed v [.file Severity.info.rank place, .console rank]

/-- What is true of every log that was set up by nothing but setups. -/
structure Log.Formed (log : Log) : Prop where
  installed : Log.Installed log.volume log.handlers
  configured : log.configured = true →
    log.handlers ≠ [] ∧ log.rootRank = Severity.debug.rank

namespace Log

variable {env : Environment} {path? : Option String} {consoleRank : Int} {log log' : Log}
  {o : Except VolumeError Unit}

/-- A log that was never set up. -/
theorem formed_fresh (v : Volume) : Formed { volume := v } :=
  ⟨.none, nofun⟩

theorem SetsUp.formed (h : log.SetsUp env path? consoleRank o log') (hlog : log.Formed) :
    log'.Formed := by
  cases h with
  | kept => exact hlog
  | console => exact ⟨.console consoleRank, fun _ => ⟨nofun, rfl⟩⟩
  | file _ _ ho =>
    exact ⟨.file (Volume.text?_isSome_of_openFile ho) consoleRank, fun _ => ⟨nofun, rfl⟩⟩
  | failed hc => exact ⟨.none, fun h => nomatch hc.symm.trans h⟩

/-- A setup that succeeds leaves the log set up. -/
theorem SetsUp.configured (h : log.SetsUp env path? consoleRank (.ok ()) log') :
    log'.configured = true := by
  cases h with
  | kept h => exact h
  | console | file => rfl

theorem SetsUp.console_eq (h : log.SetsUp env path? consoleRank o log') :
    log'.console = log.console := by
  cases h with
  | kept | console | file | failed => rfl

/-- A setup loses nothing of what was written, and writes nothing. -/
theorem SetsUp.written (h : log.SetsUp env path? consoleRank o log') (place : Location) :
    log'.volume.written place = log.volume.written place := by
  cases h with
  | kept | console => rfl
  | file _ _ ho | failed _ _ ho =>
    exact (congrArg (·.2.written place) ho).symm.trans (log.volume.written_openFile _ place)

end Log

/-! ## Steps -/

/-- Change the rank of a console; leave a file as it is. -/
def Handler.rerank (rank : Int) : Handler → Handler
  | .console _ => .console rank
  | h => h

/-- The log with its consoles at a rank. -/
def Log.rerank (rank : Int) (log : Log) : Log :=
  { log with handlers := log.handlers.map (·.rerank rank) }

/-- All that a use of the log does. -/
inductive LogStep.Does (env : Environment) (log : Log) :
    LogStep → Except VolumeError (Option String) → Log → Prop
  | setup {path? : Option String} {rank : Int} {o : Except VolumeError Unit} {log' : Log}
      (h : log.SetsUp env path? rank o log') :
    Does env log (.setup path? rank) (o.map fun _ => none) log'
  | named {name : String} {o : Except VolumeError Unit} {log' : Log}
      (h : log.SetsUp env none Severity.warning.rank o log') :
    Does env log (.loggerFor name) (o.map fun _ => some (loggerName name)) log'
  | reranked {rank : Int} {log' : Log}
      (h : log.SetsUp env none Severity.warning.rank (.ok ()) log') :
    Does env log (.setConsoleRank rank) (.ok none) (log'.rerank rank)
  | unranked {rank : Int} {e : VolumeError} {log' : Log}
      (h : log.SetsUp env none Severity.warning.rank (.error e) log') :
    Does env log (.setConsoleRank rank) (.error e) log'
  | emitted {name : String} {rank : Int} {message : String} {log' : Log}
      (h : log.SetsUp env none Severity.warning.rank (.ok ()) log') :
    Does env log (.emit name rank message) (.ok none)
      (log'.deliver { logger := loggerName name, rank, message })
  | lost {name : String} {rank : Int} {message : String} {e : VolumeError} {log' : Log}
      (h : log.SetsUp env none Severity.warning.rank (.error e) log') :
    Does env log (.emit name rank message) (.error e) log'
  | forgotten : Does env log .forget (.ok none) { log with configured := false }

/-- To get a logger is to set the log up, if need be. -/
theorem Log.SetsUp.run_loggerFor {env : Environment} {log log' : Log}
    {o : Except VolumeError Unit} (h : log.SetsUp env none Severity.warning.rank o log')
    (name : String) :
    (loggerFor env name).run log = LogAct.result (o.map fun _ => loggerName name) log' := by
  rw [loggerFor, EStateM.run_bind, h.run]
  cases o <;> rfl

theorem LogStep.perform_of_run {env : Environment} {step : LogStep} {log log' : Log}
    {o : Except VolumeError (Option String)} (h : (step.act env).run log = LogAct.result o log') :
    step.perform env log = (o, log') := by
  have h : step.act env log = LogAct.result o log' := h
  rw [perform, h]
  cases o <;> rfl

theorem LogStep.Does.perform {env : Environment} {step : LogStep} {log log' : Log}
    {o : Except VolumeError (Option String)} (h : step.Does env log o log') :
    step.perform env log = (o, log') := by
  refine perform_of_run ?_
  cases h with
  | @setup _ _ o _ h =>
    rw [act, EStateM.run_bind, h.run]
    cases o <;> rfl
  | @named name o _ h =>
    rw [act, EStateM.run_bind, h.run_loggerFor]
    cases o <;> rfl
  | reranked h | unranked h =>
    rw [act, EStateM.run_bind, Logging.setConsoleRank, EStateM.run_bind, h.run]
    rfl
  | emitted h | lost h =>
    rw [act, EStateM.run_bind, Logging.emit, EStateM.run_bind, h.run_loggerFor]
    rfl
  | forgotten => rfl

/-- A use of the log does nothing else. -/
theorem LogStep.does (env : Environment) (step : LogStep) (log : Log) :
    step.Does env log (step.perform env log).1 (step.perform env log).2 := by
  suffices hdoes : ∃ o log', step.Does env log o log' by
    obtain ⟨o, log', h⟩ := hdoes
    rw [h.perform]
    exact h
  cases step with
  | setup path? rank =>
    obtain ⟨o, log', h⟩ := setup_cases env path? rank log
    exact ⟨_, _, .setup h⟩
  | loggerFor name =>
    obtain ⟨o, log', h⟩ := setup_cases env none Severity.warning.rank log
    exact ⟨_, _, .named h⟩
  | setConsoleRank rank =>
    obtain ⟨o, log', h⟩ := setup_cases env none Severity.warning.rank log
    cases o with
    | ok _ => exact ⟨_, _, .reranked h⟩
    | error e => exact ⟨_, _, .unranked h⟩
  | emit name rank message =>
    obtain ⟨o, log', h⟩ := setup_cases env none Severity.warning.rank log
    cases o with
    | ok _ => exact ⟨_, _, .emitted h⟩
    | error e => exact ⟨_, _, .lost h⟩
  | forget => exact ⟨_, _, .forgotten⟩

end RollupEngine.Logging
