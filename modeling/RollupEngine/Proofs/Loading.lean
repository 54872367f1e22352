import RollupEngine.Plant
import RollupEngine.Proofs.Config.Settings
import RollupEngine.Proofs.Engine

/-!
# Engines around stored machines

A stored machine is loaded by a single call, to which the directory, the remote and the settings are
handed on as they were given (`PlantOp.perform_load`). Nothing is lost on the way, since the
settings can be read back from their mapping. Settings that are all unset are an empty mapping,
which is not the same as no settings.
-/

namespace RollupEngine

namespace PlantOp

variable {W : Type} {b : Backend W} {path : String} {config : Option EngineConfig}
  {remote : Option RemoteConfig} {runtime : Option MachineSettings}

theorem perform_load_made {p : Plant W} {e : Engine} {s : Site W}
    (h : (Engine.ofStore b path config remote runtime).run p.toSite = .ok e s) :
    (load path config remote runtime).perform b p =
      ({ outcome := .ok (.engine p.engines.length) },
        { toSite := s, engines := p.engines ++ [e] }) := by
  refine Answer.reply_of_run (o := .ok _) ?_
  rw [EStateM.run_bind, Plant.onSite, Act.run_focus, h]
  rfl

theorem perform_load_failed {p : Plant W} {f : Failure} {s : Site W}
    (h : (Engine.ofStore b path config remote runtime).run p.toSite = .error f s) :
    (load path config remote runtime).perform b p =
      ({ outcome := .error f }, { p with toSite := s }) := by
  refine Answer.reply_of_run (o := .error _) ?_
  rw [EStateM.run_bind, Plant.onSite, Act.run_focus, h]
  rfl

/-- What comes of loading a machine: an engine around it, or the error that the call raised. -/
inductive Loads (p : Plant W) (config : EngineConfig) : Except Error Handle → Answer →
    List Engine → Prop
  | made (machine : Handle) :
    Loads p config (.ok machine) { outcome := .ok (.engine p.engines.length) }
      (p.engines ++ [.around config machine])
  | failed (e : Error) : Loads p config (.error e) { outcome := .error { error := e } } p.engines

/-- The machine is loaded by a single call. -/
theorem perform_load_calls (b : Backend W) (path : String) (config : Option EngineConfig)
    (remote : Option RemoteConfig) (runtime : Option MachineSettings) (p : Plant W) :
    let origin := Engine.origin path remote runtime
    let reply := (b.load origin p.world).1
    let q := (load path config remote runtime).perform b p
    q.2.calls = p.calls ++ [.load origin reply] ∧ q.2.world = (b.load origin p.world).2 ∧
      Loads p (config.getD {}) reply q.1 q.2.engines := by
  dsimp only
  cases h : b.load (Engine.origin path remote runtime) p.world with
  | mk reply w =>
    obtain ⟨s, hrun, hworld, hcalls⟩ := Engine.run_ofStore config remote runtime h
    cases reply with
    | ok machine =>
      rw [perform_load_made hrun]
      exact ⟨hcalls, hworld, .made machine⟩
    | error e =>
      rw [perform_load_failed hrun]
      exact ⟨hcalls, hworld, .failed e⟩

open MachineSettings in
/-- The settings can be read back from their mapping, which has nothing else in it, and a machine is
loaded by a single call with the directory, the remote and the mapping. -/
theorem load_forwards (b : Backend W) :
    (∀ c d : MachineSettings, (c.toMapping = d.toMapping ↔ c = d) ∧
      ∀ same, Datum.Alike same (.mapping c.toMapping) (.mapping d.toMapping) ↔
        ∀ f : SettingField, Option.Rel same (f.get c) (f.get d)) ∧
    (∀ c : MachineSettings, ofMapping c.toMapping = c ∧
      (∀ f : SettingField, c.toMapping.at? f.path = (f.get c).map Setting.toDatum) ∧
      (∀ e, e ∈ c.toMapping ↔ ∃ (f : SettingField) (s : Setting),
        f.get c = some s ∧ e = f.entry s) ∧
      (c.toMapping.map Prod.fst).Nodup ∧ (∀ key, (key, .mapping []) ∉ c.toMapping) ∧
      (c.toMapping = [] ↔ ∀ f : SettingField, f.get c = none)) ∧
    ∀ (path : String) (config : Option EngineConfig) (remote : Option RemoteConfig)
      (runtime : Option MachineSettings) (p : Plant W),
      let origin : Origin :=
        { path
          address := match remote with
            | none => "127.0.0.1:0"
            | some r => r.address
          timeout := match remote with
            | none => -1
            | some r => r.timeout
          settings := match runtime with
            | none => none
            | some c => some c.toMapping }
      let reply := (b.load origin p.world).1
      let q := (load path config remote runtime).perform b p
      q.2.calls = p.calls ++ [.load origin reply] ∧ q.2.world = (b.load origin p.world).2 ∧
        Loads p (config.getD {}) reply q.1 q.2.engines := by
  refine ⟨fun c d => ⟨toMapping_injective.eq_iff, fun same => c.alike_toMapping_iff d⟩,
    fun c => ⟨c.ofMapping_toMapping, c.at?_toMapping, fun e => c.mem_toMapping_iff,
      c.nodup_toMapping, c.empty_notMem_toMapping, c.toMapping_eq_nil_iff⟩,
    fun path config remote runtime p => ?_⟩
  have hcalls := perform_load_calls b path config remote runtime p
  cases remote <;> cases runtime <;> exact hcalls

end PlantOp

end RollupEngine
