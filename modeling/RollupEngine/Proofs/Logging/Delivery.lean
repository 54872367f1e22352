import Mathlib.Data.List.Forall2
import RollupEngine.Proofs.Logging.Setup

/-!
# What becomes of a log record

A record that is emitted is shown to the handlers that are installed then. `deliveries` lists the
records of a run, each with the log that it was shown to, and `Delivery.shown` and
`Delivery.written` say whether the console and a file take it. The console and the files hold these
records and nothing else, each once and in their order (`Log.Adds`): `LogStep.Does.adds` says so of
a step, and `Log.run_adds` of a run.

The console has no part in what is written. Logs that differ in the ranks of their consoles, and in
what these have shown, write the same (`Log.WritesAlike`).
-/

namespace RollupEngine.Logging

/-! ## Deliveries -/

/-- The file that is installed. -/
def Log.file? (log : Log) : Option Location :=
  log.handlers.findSome? fun
    | .file _ place => some place
    | .console _ => none

/-- The rank of the console that is installed. -/
def Log.consoleRank? (log : Log) : Option Int :=
  log.handlers.findSome? fun
    | .console rank => some rank
    | .file .. => none

/-- A record, and the log that it is shown to. -/
structure Delivery where
  record : LogRecord
  log : Log

namespace Delivery

/-- Whether the console takes the record. -/
def shown (d : Delivery) : Bool :=
  reachesRoot d.record.logger &&
    d.log.consoleRank?.any fun rank => max Severity.debug.rank rank ≤ d.record.rank

/-- Whether the file at a place takes the record. -/
def written (place : Location) (d : Delivery) : Bool :=
  reachesRoot d.record.logger && d.log.file? = some place && Severity.info.rank ≤ d.record.rank

variable {d : Delivery}

/-- A record that does not pass the root is taken by nobody. -/
theorem of_stopped
    (h : (reachesRoot d.record.logger && decide (Severity.debug.rank ≤ d.record.rank)) = false) :
    d.shown = false ∧ ∀ place, d.written place = false := by
  cases hreaches : reachesRoot d.record.logger with
  | false => simp [shown, written, hreaches]
  | true =>
    have hrank : d.record.rank < Severity.debug.rank := by simpa [hreaches] using h
    have hinfo : d.record.rank < Severity.info.rank := Int.lt_trans hrank (by decide)
    refine ⟨?_, fun place => by simp [written, hinfo]⟩
    cases hk : d.log.consoleRank? with
    | none => simp [shown, hk]
    | some k =>
      have hmax : ¬max Severity.debug.rank k ≤ d.record.rank := fun h =>
        absurd (Int.le_trans (Int.le_max_left ..) h) (Int.not_le.2 hrank)
      rw [shown, hk, Option.any_some, decide_eq_false hmax, Bool.and_false]

end Delivery

/-- What a step delivers: the record of an emit, unless the setup that it asks for fails. -/
def LogStep.delivery? (env : Environment) (log : Log) : LogStep → Option Delivery
  | .emit name rank message =>
    match (Logging.loggerFor env name).run log with
    | .ok logger log => some { record := { logger, rank, message }, log }
    | .error .. => none
  | _ => none

/-- What a run delivers. -/
def deliveries (env : Environment) : List LogStep → Log → List Delivery
  | [], _ => []
  | step :: steps, log =>
    (step.delivery? env log).toList ++ deliveries env steps (step.perform env log).2

/-- From `log` to `log'`, the console has shown and the files have taken their share of `ds`. -/
structure Log.Adds (log : Log) (ds : List Delivery) (log' : Log) : Prop where
  console : log'.console = log.console ++ (ds.filter Delivery.shown).map (·.record.consoleText)
  written : ∀ place, log'.volume.written place =
    log.volume.written place ++ String.join ((ds.filter (·.written place)).map (·.record.fileLine))

namespace Log

variable {env : Environment} {log log' log'' : Log} {ds es : List Delivery}

theorem Adds.nil (hconsole : log'.console = log.console)
    (hwritten : ∀ place, log'.volume.written place = log.volume.written place) :
    log.Adds [] log' :=
  ⟨by simpa using hconsole, fun place => by simpa using hwritten place⟩

theorem Adds.trans (h : log.Adds ds log') (h' : log'.Adds es log'') :
    log.Adds (ds ++ es) log'' where
  console := by
    rw [h'.console, h.console, List.filter_append, List.map_append, List.append_assoc]
  written place := by
    rw [h'.written, h.written, List.filter_append, List.map_append, String.join_append,
      String.append_assoc]

/-! ## One record -/

/-- A console shows what is not below its rank. -/
theorem handle_console (rank : Int) (r : LogRecord) (log : Log) :
    (Handler.console rank).handle r log =
      { log with console := log.console ++ if rank ≤ r.rank then [r.consoleText] else [] } := by
  by_cases hrank : rank ≤ r.rank <;> simp [Handler.handle, Handler.rank, hrank]

/-- A file that is there takes what is not below its rank. -/
theorem handle_file {place : Location} (h : (log.volume.text? place).isSome = true) (rank : Int)
    (r : LogRecord) :
    ∃ v, (Handler.file rank place).handle r log = { log with volume := v } ∧
      (v.text? place).isSome = true ∧ ∀ other, v.written other =
        log.volume.written other ++ if other = place ∧ rank ≤ r.rank then r.fileLine else "" := by
  by_cases hrank : rank ≤ r.rank
  · refine ⟨log.volume.append place r.fileLine, by simp [Handler.handle, Handler.rank, hrank],
      Volume.text?_isSome_append h, fun other => ?_⟩
    rw [Volume.written_append h]
    simp [hrank]
  · exact ⟨log.volume, by simp [Handler.handle, Handler.rank, hrank], h, by simp [hrank]⟩

/-- What a record adds, when the console shows it or does not, and the files take it or do not. -/
theorem Adds.one {d : Delivery}
    (hconsole : log'.console = log.console ++ if d.shown then [d.record.consoleText] else [])
    (hwritten : ∀ place, log'.volume.written place =
      log.volume.written place ++ if d.written place then d.record.fileLine else "") :
    log.Adds [d] log' where
  console := by
    rw [hconsole]
    cases hd : d.shown <;> simp [hd]
  written place := by
    rw [hwritten]
    cases hd : d.written place <;> simp [hd]

/-- The handlers of a log take a record as they should. -/
theorem Formed.deliver (h : log.Formed) (hc : log.configured = true) (r : LogRecord) :
    log.Adds [⟨r, log⟩] (log.deliver r) ∧ (log.deliver r).Formed := by
  obtain ⟨hne, hroot⟩ := h.configured hc
  obtain ⟨configured, rootRank, handlers, volume, console⟩ := log
  obtain rfl : rootRank = Severity.debug.rank := hroot
  cases hr : reachesRoot r.logger && decide (Severity.debug.rank ≤ r.rank) with
  | false =>
    rw [Log.deliver, hr, if_neg (by decide)]
    obtain ⟨hshown, hwritten⟩ := Delivery.of_stopped (d := ⟨r, _⟩) hr
    refine ⟨.one ?_ fun place => ?_, h⟩
    · rw [hshown]; simp
    · rw [hwritten]; simp
  | true =>
    rw [Log.deliver, hr, if_pos rfl]
    obtain ⟨hreaches, hrank⟩ := Bool.and_eq_true_iff.1 hr
    have hmax (rank : Int) : max Severity.debug.rank rank ≤ r.rank ↔ rank ≤ r.rank :=
      Int.max_le.trans (and_iff_right (of_decide_eq_true hrank))
    cases h.installed with
    | none => cases hne rfl
    | console rank =>
      rw [List.foldl_cons, List.foldl_nil, handle_console]
      refine ⟨.one ?_ fun place => ?_, ⟨.console rank, fun _ => ⟨nofun, rfl⟩⟩⟩
      · simp [Delivery.shown, Log.consoleRank?, hreaches, hmax]
      · simp [Delivery.written, Log.file?]
    | @file place hthere rank =>
      obtain ⟨v, hv, hthere', hwritten⟩ := handle_file hthere Severity.info.rank r
      rw [List.foldl_cons, List.foldl_cons, List.foldl_nil, hv, handle_console]
      refine ⟨.one ?_ fun other => ?_, ⟨.file hthere' rank, fun _ => ⟨nofun, rfl⟩⟩⟩
      · simp [Delivery.shown, Log.consoleRank?, hreaches, hmax]
      · simp [Delivery.written, Log.file?, hreaches, hwritten, @eq_comm _ other]

/-- A log that is set up has a console. -/
theorem Formed.exists_consoleRank (h : log.Formed) (hc : log.configured = true) :
    ∃ rank, log.consoleRank? = some rank := by
  have hne := (h.configured hc).1
  have hinstalled := h.installed
  unfold consoleRank?
  generalize log.handlers = hs at hne hinstalled
  cases hinstalled with
  | none => cases hne rfl
  | console rank | file _ rank => exact ⟨rank, rfl⟩

/-- A log stays well formed when its consoles change. -/
theorem Formed.rerank (h : log.Formed) (rank : Int) : (log.rerank rank).Formed := by
  obtain ⟨configured, rootRank, handlers, volume, console⟩ := log
  obtain ⟨hinstalled, hconfigured⟩ := h
  cases hinstalled with
  | none => exact ⟨.none, hconfigured⟩
  | console => exact ⟨.console rank, fun hc => ⟨nofun, (hconfigured hc).2⟩⟩
  | file hthere => exact ⟨.file hthere rank, fun hc => ⟨nofun, (hconfigured hc).2⟩⟩

end Log

/-! ## Runs -/

section

variable {env : Environment} {log log' : Log} {step : LogStep}
  {o : Except VolumeError (Option String)}

theorem LogStep.delivery?_emit {name message : String} {rank : Int}
    {o : Except VolumeError Unit} (h : log.SetsUp env none Severity.warning.rank o log') :
    (LogStep.emit name rank message).delivery? env log =
      match o with
      | .ok _ => some { record := { logger := loggerName name, rank, message }, log := log' }
      | .error _ => none := by
  rw [delivery?, h.run_loggerFor]
  cases o <;> rfl

/-- A step adds what it delivers. -/
theorem LogStep.Does.adds (h : step.Does env log o log') (hlog : log.Formed) :
    log.Adds (step.delivery? env log).toList log' ∧ log'.Formed := by
  have silent {path? : Option String} {rank : Int} {o : Except VolumeError Unit} {log' : Log}
      (h : log.SetsUp env path? rank o log') : log.Adds [] log' ∧ log'.Formed :=
    ⟨.nil h.console_eq h.written, h.formed hlog⟩
  cases h with
  | setup h | named h => exact silent h
  | unranked h => exact silent h
  | reranked h => exact ⟨.nil h.console_eq h.written, (h.formed hlog).rerank _⟩
  | forgotten => exact ⟨.nil rfl fun _ => rfl, hlog.installed, nofun⟩
  | lost h =>
    rw [delivery?_emit h]
    exact silent h
  | emitted h =>
    rw [delivery?_emit h]
    obtain ⟨hadds, hformed⟩ := (h.formed hlog).deliver h.configured _
    exact ⟨(silent h).1.trans hadds, hformed⟩

/-- A run adds what it delivers. -/
theorem Log.run_adds (env : Environment) (steps : List LogStep) (h : log.Formed) :
    log.Adds (deliveries env steps log) (Log.run env steps log) ∧
      (Log.run env steps log).Formed := by
  induction steps generalizing log with
  | nil => exact ⟨.nil rfl fun _ => rfl, h⟩
  | cons step steps ih =>
    obtain ⟨hstep, hformed⟩ := (step.does env log).adds h
    obtain ⟨hrest, hformed⟩ := ih hformed
    exact ⟨hstep.trans hrest, hformed⟩

end

/-! ## The consoles have no part in what is written -/

/-- Handlers that are the same but for the rank of a console. -/
inductive Handler.WritesAlike : Handler → Handler → Prop
  | file (rank : Int) (place : Location) : WritesAlike (.file rank place) (.file rank place)
  | console (rank rank' : Int) : WritesAlike (.console rank) (.console rank')

/-- Logs that are the same but for their consoles. -/
structure Log.WritesAlike (log log' : Log) : Prop where
  configured : log'.configured = log.configured
  rootRank : log'.rootRank = log.rootRank
  volume : log'.volume = log.volume
  handlers : List.Forall₂ Handler.WritesAlike log.handlers log'.handlers

/-- The same use of the log, but for the rank of the consoles, which it leaves as it is. -/
def LogStep.muted : LogStep → LogStep
  | .setConsoleRank _ => .loggerFor rootLogger
  | step => step

namespace Log

variable {env : Environment} {log log' mid mid' : Log}

theorem WritesAlike.rerank (h : log.WritesAlike log') (rank : Int) :
    (log.rerank rank).WritesAlike log' where
  configured := h.configured
  rootRank := h.rootRank
  volume := h.volume
  handlers := by
    have halike := h.handlers
    change List.Forall₂ _ (log.handlers.map (·.rerank rank)) _
    generalize log.handlers = hs, log'.handlers = hs' at halike
    induction halike with
    | nil => exact .nil
    | cons hh _ ih =>
      refine .cons ?_ ih
      cases hh with
      | file => exact .file ..
      | console => exact .console ..

/-- Handlers that write alike leave alike volumes. -/
theorem volume_foldl_handle {hs hs' : List Handler} (h : List.Forall₂ Handler.WritesAlike hs hs')
    (hv : log'.volume = log.volume) (r : LogRecord) :
    (hs'.foldl (fun log h => h.handle r log) log').volume =
      (hs.foldl (fun log h => h.handle r log) log).volume := by
  induction h generalizing log log' with
  | nil => exact hv
  | cons hh _ ih =>
    refine ih ?_
    cases hh with
    | file rank place =>
      by_cases hrank : rank ≤ r.rank <;> simp [Handler.handle, Handler.rank, hrank, hv]
    | console => simp only [handle_console, hv]

/-- A record changes what was shown and written, and nothing else about a log. -/
theorem deliver_eq (log : Log) (r : LogRecord) :
    ∃ volume console, log.deliver r = { log with volume, console } := by
  have hfold (hs : List Handler) (log : Log) :
      ∃ volume console, hs.foldl (fun log h => h.handle r log) log =
        { log with volume, console } := by
    induction hs generalizing log with
    | nil => exact ⟨log.volume, log.console, rfl⟩
    | cons h hs ih =>
      obtain ⟨volume, console, hrest⟩ := ih (h.handle r log)
      refine ⟨volume, console, hrest.trans ?_⟩
      unfold Handler.handle
      cases h <;> split <;> rfl
  unfold deliver
  split
  · exact hfold log.handlers log
  · exact ⟨log.volume, log.console, rfl⟩

theorem WritesAlike.deliver (h : log.WritesAlike log') (r : LogRecord) :
    (log.deliver r).WritesAlike (log'.deliver r) := by
  have hvolume : (log'.deliver r).volume = (log.deliver r).volume := by
    unfold Log.deliver
    rw [h.rootRank]
    split
    · exact volume_foldl_handle h.handlers h.volume r
    · exact h.volume
  obtain ⟨v, c, heq⟩ := log.deliver_eq r
  obtain ⟨v', c', heq'⟩ := log'.deliver_eq r
  rw [heq, heq'] at hvolume ⊢
  exact ⟨h.configured, h.rootRank, hvolume, h.handlers⟩

/-- Logs that are the same but for their consoles are set up alike. -/
theorem WritesAlike.setsUp {path? : Option String} {rank : Int} {o : Except VolumeError Unit}
    (h : log.WritesAlike log') (hset : log.SetsUp env path? rank o mid) :
    ∃ mid', log'.SetsUp env path? rank o mid' ∧ mid.WritesAlike mid' := by
  have hconfigured := h.configured
  have hvolume := h.volume
  cases hset with
  | kept hc => exact ⟨_, .kept (hconfigured.trans hc), h⟩
  | console hc hp =>
    exact ⟨_, .console (hconfigured.trans hc) hp, rfl, rfl, hvolume, .cons (.console ..) .nil⟩
  | file hc hp ho =>
    rw [← hvolume] at ho
    exact ⟨_, .file (hconfigured.trans hc) hp ho, rfl, rfl, rfl,
      .cons (.file ..) (.cons (.console ..) .nil)⟩
  | failed hc hp ho =>
    rw [← hvolume] at ho
    exact ⟨_, .failed (hconfigured.trans hc) hp ho, hconfigured, rfl, rfl, .nil⟩

/-- A step writes the same if it leaves the consoles as they are. -/
theorem WritesAlike.step (h : log.WritesAlike log') (step : LogStep) :
    (step.perform env log).2.WritesAlike (step.muted.perform env log').2 := by
  have done {step : LogStep} {o : Except VolumeError (Option String)} {mid mid' : Log}
      (hdoes : step.Does env log' o mid') (halike : mid.WritesAlike mid') :
      mid.WritesAlike (step.perform env log').2 := by
    rw [hdoes.perform]
    exact halike
  have hdoes := step.does env log
  generalize (step.perform env log).1 = o, (step.perform env log).2 = mid at hdoes
  cases hdoes with
  | setup hset =>
    obtain ⟨mid', hset', halike⟩ := h.setsUp hset
    exact done (.setup hset') halike
  | named hset | unranked hset =>
    obtain ⟨mid', hset', halike⟩ := h.setsUp hset
    exact done (.named hset') halike
  | reranked hset =>
    obtain ⟨mid', hset', halike⟩ := h.setsUp hset
    exact done (.named hset') (halike.rerank _)
  | emitted hset =>
    obtain ⟨mid', hset', halike⟩ := h.setsUp hset
    exact done (.emitted hset') (halike.deliver _)
  | lost hset =>
    obtain ⟨mid', hset', halike⟩ := h.setsUp hset
    exact done (.lost hset') halike
  | forgotten => exact ⟨rfl, h.rootRank, h.volume, h.handlers⟩

theorem WritesAlike.run (h : log.WritesAlike log') (env : Environment) (steps : List LogStep) :
    (Log.run env steps log).WritesAlike (Log.run env (steps.map LogStep.muted) log') := by
  induction steps generalizing log log' with
  | nil => exact h
  | cons step steps ih => exact ih (h.step step)

end Log

/-! ## All of it -/

/-- The nameless logger does not reach the root, under either name. -/
theorem reachesRoot_loggerName (name : String) :
    reachesRoot (loggerName name) = reachesRoot name := by
  unfold loggerName
  split
  · next h =>
    rw [String.isEmpty_iff.1 h]
    decide +kernel
  · rfl

theorem loggerName_of_reachesRoot {name : String} (h : reachesRoot name = true) :
    loggerName name = name := by
  unfold loggerName
  split
  · next hempty =>
    rw [String.isEmpty_iff.1 hempty] at h
    cases (show reachesRoot "" = false by decide +kernel).symm.trans h
  · rfl

/-- An emit that does not fail is shown by the console once, if its logger reaches the root and it
is not below the ranks of the root and of the console, and else not at all. -/
theorem Log.Formed.emit_shown {env : Environment} {log : Log} (h : log.Formed) {name : String}
    {rank : Int} {message : String} {reply : Option String}
    (hok : ((LogStep.emit name rank message).perform env log).1 = .ok reply) :
    ∃ mid k, (loggerFor env name).run log = .ok (loggerName name) mid ∧
      mid.consoleRank? = some k ∧
      ((LogStep.emit name rank message).perform env log).2.console = log.console ++
        if reachesRoot name = true ∧ max Severity.debug.rank k ≤ rank then
          [name ++ ": " ++ message] else [] := by
  obtain ⟨o, mid, hset⟩ := setup_cases env none Severity.warning.rank log
  cases o with
  | error e =>
    rw [(LogStep.Does.lost hset).perform] at hok
    cases hok
  | ok _ =>
    obtain ⟨k, hk⟩ := (hset.formed h).exists_consoleRank hset.configured
    refine ⟨mid, k, hset.run_loggerFor name, hk, ?_⟩
    let d : Delivery := ⟨{ logger := loggerName name, rank, message }, mid⟩
    have hconsole := ((LogStep.does env (.emit name rank message) log).adds h).1.console
    rw [LogStep.delivery?_emit hset] at hconsole
    have hshown : d.shown =
        decide (reachesRoot name = true ∧ max Severity.debug.rank k ≤ rank) := by
      simp [d, Delivery.shown, hk, reachesRoot_loggerName]
    rw [hconsole]
    change log.console ++ ([d].filter Delivery.shown).map (·.record.consoleText) = _
    by_cases htaken : reachesRoot name = true ∧ max Severity.debug.rank k ≤ rank
    · rw [List.filter_cons_of_pos (by rw [hshown]; exact decide_eq_true htaken), if_pos htaken]
      simp [d, LogRecord.consoleText, loggerName_of_reachesRoot htaken.1]
    · rw [List.filter_cons_of_neg (by rw [hshown]; simpa using htaken), if_neg htaken]
      simp

/-- However the log is used from the start, the console has shown and the files have taken what was
delivered to them, each record once and in its order. An emit that does not fail is shown once, if
it is to be shown at all. To set the log up anew adds nothing and loses nothing, and the rank of the
console does not change what is written. -/
theorem Log.run_delivers (env : Environment) (steps : List LogStep) (volume : Volume) :
    let fresh : Log := { volume }
    let log := Log.run env steps fresh
    fresh.Adds (deliveries env steps fresh) log ∧
      (∀ name rank message reply,
        ((LogStep.emit name rank message).perform env log).1 = .ok reply →
          ∃ mid k, (loggerFor env name).run log = .ok (loggerName name) mid ∧
            mid.consoleRank? = some k ∧
            ((LogStep.emit name rank message).perform env log).2.console = log.console ++
              if reachesRoot name = true ∧ max Severity.debug.rank k ≤ rank then
                [name ++ ": " ++ message] else []) ∧
      (∀ path? rank, log.Adds [] (Log.run env [.forget, .setup path? rank] log)) ∧
      (Log.run env (steps.map LogStep.muted) fresh).volume = log.volume := by
  intro fresh log
  obtain ⟨hadds, hformed⟩ := Log.run_adds env steps (formed_fresh volume)
  have halike : fresh.WritesAlike fresh := ⟨rfl, rfl, rfl, .nil⟩
  refine ⟨hadds, fun name rank message reply hok => hformed.emit_shown hok, ?_,
    (halike.run env steps).volume⟩
  exact fun path? rank => (Log.run_adds env [.forget, .setup path? rank] hformed).1

/-- A log that is set up twice for one file, and whose console is changed. -/
theorem Log.twice_set_up_delivers :
    let env : Environment := fun _ => none
    let steps : List LogStep := [.setup (some "a.log") 30, .emit "rollkernel.x" 20 "one", .forget,
      .setup (some "a.log") 10, .emit "rollkernel" 10 "two", .emit "other" 50 "three",
      .setConsoleRank 50, .emit "rollkernel" 40 "four"]
    let log := Log.run env steps {}
    let last : LogStep := .emit "rollkernel" 50 "five"
    log.console = ["rollkernel: two"] ∧
      log.volume.written ["a.log"] = "INFO rollkernel.x: one\nERROR rollkernel: four\n" ∧
      (last.perform env log).1 = .ok none ∧
      (last.perform env log).2.console = ["rollkernel: two", "rollkernel: five"] := by
  intro env steps log last
  obtain ⟨hadds, hshown, -⟩ := run_delivers env steps {}
  have hok : (last.perform env log).1 = .ok none := by decide +kernel
  have hconsole : log.console = ["rollkernel: two"] := by
    rw [hadds.console]
    decide +kernel
  refine ⟨hconsole, ?_, hok, ?_⟩
  · rw [hadds.written]
    decide +kernel
  · obtain ⟨mid, k, hrun, hk, hlast⟩ := hshown "rollkernel" 50 "five" none hok
    have hmid : (loggerFor env "rollkernel").run log = .ok "rollkernel" log := by rfl
    cases hrun.symm.trans hmid
    cases hk.symm.trans (show log.consoleRank? = some 50 by decide +kernel)
    rw [hlast, hconsole]
    decide +kernel

end RollupEngine.Logging
