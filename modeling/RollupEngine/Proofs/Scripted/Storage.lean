import RollupEngine.Proofs.Scripted.Sharing

/-!
# What is saved and loaded

A snapshot is taken of the canonical machine of an idle engine, and of nothing else
(`Engine.Sound.saves`). So at any time the snapshot under a path is what the engine that was last
told to save there had committed by then, whatever was done since (`PlantOp.snapshot?_run`).

An engine that is loaded is a twin of any new engine on a machine that holds what was saved. The two
answer alike from then on, whatever happens beside them on their sites (`PlantOp.answers_load`).
Both halves are put together in `PlantOp.run_round_trip`.
-/

namespace RollupEngine

open Scripted

variable {e : Engine} {s : Site World} {p p' : Plant World} {n : Nat} {path : String}
  {op : PlantOp}

/-! ## Saving -/

/-- It takes an idle engine to save its machine. What it has committed is saved, and nothing else
changes. -/
inductive Engine.Saves (e : Engine) (s : Site World) (path : String) : Answer × Room World → Prop
  | saved {s' : Site World} (h : e.controller.state = .idle)
      (hw : s'.world = (s.world.count .store).save path (e.room s).canonicalLedger) :
    Saves e s path ({ outcome := .ok .itself }, e.room s')
  | refused {f : Failure} (h : e.controller.state ≠ .idle) :
    Saves e s path ({ outcome := .error f }, e.room s)

theorem Engine.Sound.saves (h : e.Sound s) (path : String) :
    e.Saves s path ((EngineOp.store path).perform backend e.config (e.room s)) := by
  obtain ⟨-, -, r, htwins, -⟩ := h
  have refused {f : Failure} (hf : e.controller.refusal? = some f) :
      e.Saves s path ((EngineOp.store path).perform backend e.config (e.room s)) := by
    rw [EngineOp.perform_store_of_refusal backend e.config path hf]
    exact .refused fun hidle =>
      Controller.not_idle_of_refusal hf (Controller.state_eq_idle_iff.1 hidle)
  cases htwins with
  | idle _ hready =>
    obtain ⟨s', hstore, hw⟩ := EngineOp.perform_store_of_ready e.config hready path
    rw [hstore]
    rw [← hready.canonicalLedger_eq] at hw
    exact .saved (Controller.state_eq_idle_iff.2 hready.idle) hw
  | running _ _ hbeside => exact refused (EngineOp.refusal?_of_engaged hbeside.engaged)
  | closed _ hc => exact refused (Controller.refusal?_of_closed hc)

theorem Scripted.World.snapshot?_save (w : World) (target path : String) (ledger : Ledger) :
    (w.save target ledger).snapshot? path =
      if target = path then some ledger else w.snapshot? path := by
  by_cases h : target = path <;> simp [World.save, World.snapshot?, h]

/-- What an engine of a plant has committed. -/
def Plant.ledger? (p : Plant World) (number : Nat) : Option Ledger :=
  p.engines[number]?.map fun e => (e.room p.toSite).canonicalLedger

namespace PlantOp

/-- An engine of a plant is told to save its machine. -/
theorem perform_store (hp : p.Sound) (hn : p.engines[n]? = some e) (path : String) :
    let q := (engine n (.store path)).perform backend p
    q.2.engines = p.engines ∧
      (e.controller.state = .idle ∧ q.1 = { outcome := .ok .itself } ∧
          q.2.world = (p.world.count .store).save path (e.room p.toSite).canonicalLedger ∨
        e.controller.state ≠ .idle ∧ (∃ f, q.1 = { outcome := .error f }) ∧
          q.2.world = p.world) := by
  have hsame (s : Site World) : p.engines.set n (e.inRoom (e.room s)) = p.engines := by
    obtain ⟨hlt, rfl⟩ := List.getElem?_eq_some_iff.1 hn
    exact List.set_getElem_self hlt
  have hperform : (engine n (.store path)).perform backend p = _ :=
    Plant.onEngine_of_getElem? backend hn (.store path)
  rw [hperform]
  have hsaves := (hp.engine hn).saves path
  generalize (EngineOp.store path).perform backend e.config (e.room p.toSite) = q at hsaves
  cases hsaves with
  | saved hidle hw => exact ⟨hsame _, .inl ⟨hidle, rfl, hw⟩⟩
  | refused hbusy => exact ⟨hsame _, .inr ⟨hbusy, ⟨_, rfl⟩, rfl⟩⟩

/-- The ledger that an operation saves under a path: what the engine that is told to save there has
committed, if it succeeds. -/
def saved? (path : String) (op : PlantOp) (p : Plant World) : Option Ledger :=
  match op with
  | .engine n (.store target) =>
    if target = path ∧ (op.perform backend p).1.failure? = none then p.ledger? n else none
  | _ => none

/-- The ledger that was last saved under a path in a run. -/
def lastSaved (path : String) : List PlantOp → Plant World → Option Ledger
  | [], _ => none
  | op :: ops, p => (lastSaved path ops (op.perform backend p).2).or (op.saved? path p)

theorem saved?_of_ne_store (h : ∀ n target, op ≠ .engine n (.store target)) (path : String)
    (p : Plant World) : op.saved? path p = none := by
  cases op with
  | load => rfl
  | engine n eop =>
    cases eop with
    | store target => exact absurd rfl (h n target)
    | submit | shutdown | session => rfl

/-- Only to save changes the snapshots. -/
theorem snapshots_perform (hp : p.Sound) (h : ∀ n target, op ≠ .engine n (.store target)) :
    (op.perform backend p).2.world.snapshots = p.world.snapshots := by
  have hdoes := op.does hp.tame
  generalize (op.perform backend p).1 = a, (op.perform backend p).2 = p' at hdoes
  cases hdoes with
  | absent => rfl
  | @engine n eop e _ r hn hop =>
    obtain rfl := congrArg Prod.snd hop
    obtain ⟨_, _, _, hdoes, -⟩ := eop.does backend e.config (e.room p.toSite)
    refine (spares_of_replays hdoes.follows.world).snapshots fun m target reply hx => ?_
    exact h n target (congrArg _ (hdoes.eq_store hx))
  | loaded _ hs | missing _ hs =>
    dsimp only
    rw [hs]
    rfl

theorem snapshot?_perform_store (hp : p.Sound) (n : Nat) (target path : String) :
    ((engine n (.store target)).perform backend p).2.world.snapshot? path =
      ((engine n (.store target)).saved? path p).or (p.world.snapshot? path) := by
  cases hn : p.engines[n]? with
  | none =>
    have hledger : p.ledger? n = none := by rw [Plant.ledger?, hn]; rfl
    rw [saved?, hledger, ite_self, perform, Plant.onEngine, hn]
    rfl
  | some e =>
    have hledger : p.ledger? n = some (e.room p.toSite).canonicalLedger := by
      rw [Plant.ledger?, hn]
      rfl
    obtain ⟨-, ⟨-, ha, hw⟩ | ⟨-, ⟨f, ha⟩, hw⟩⟩ := perform_store hp hn target <;>
      rw [saved?, hledger, hw, ha]
    · have hcount : (p.world.count .store).snapshot? path = p.world.snapshot? path := rfl
      rw [World.snapshot?_save, hcount]
      by_cases htarget : target = path <;> simp [htarget, Answer.failure?]
    · simp [Answer.failure?]

/-- What is saved under a path after an operation. -/
theorem snapshot?_perform (hp : p.Sound) (op : PlantOp) (path : String) :
    (op.perform backend p).2.world.snapshot? path =
      (op.saved? path p).or (p.world.snapshot? path) := by
  by_cases hstore : ∃ n target, op = .engine n (.store target)
  · obtain ⟨n, target, rfl⟩ := hstore
    exact snapshot?_perform_store hp n target path
  · have hno (n : Nat) (target : String) : op ≠ .engine n (.store target) :=
      fun h => hstore ⟨n, target, h⟩
    rw [saved?_of_ne_store hno, World.snapshot?, snapshots_perform hp hno]
    rfl

/-- At any time, the snapshot under a path is the ledger that was last saved there. -/
theorem snapshot?_run (hp : p.Sound) (ops : List PlantOp) (path : String) :
    (run backend ops p).world.snapshot? path =
      (lastSaved path ops p).or (p.world.snapshot? path) := by
  induction ops generalizing p with
  | nil => rfl
  | cons op ops ih =>
    rw [lastSaved, Option.or_assoc, ← snapshot?_perform hp op path]
    exact ih ((op.does hp.tame).sound hp)

/-! ## Answers -/

/-- The answers of an engine to the operations on it in a run. -/
def answers {W : Type} (b : Backend W) (number : Nat) : List PlantOp → Plant W → List Answer
  | [], _ => []
  | op :: ops, p =>
    let rest := answers b number ops (op.perform b p).2
    if (op.on? number).isSome then (op.perform b p).1 :: rest else rest

/-- An engine of a plant answers like a twin that has a world for itself. -/
theorem answers_eq {r : Room World} (hp : p.Sound) (hn : p.engines[n]? = some e)
    (hr : (e.room p.toSite).Twins r) (ops : List PlantOp) :
    answers backend n ops p =
      (EngineOp.journal backend e.config (ops.filterMap (on? n)) r).map (·.answer) := by
  induction ops generalizing p e r with
  | nil => rfl
  | cons op ops ih =>
    have hdoes := op.does hp.tame
    have hp' := hdoes.sound hp
    have hconcerns := hdoes.concerns hp hn
    obtain ⟨e', hn', hconfig, hr'⟩ := hconcerns.twins hp hp'.tame hn hr
    have hrest := ih hp' hn' hr'
    rw [hconfig] at hrest
    rw [answers, hrest]
    cases hconcerns with
    | @own eop hop hanswer =>
      obtain ⟨own, hlinked⟩ := (hp.engine hn).linked
      have halike := (EngineOp.perform_twins hr hlinked eop).answer
      rw [hop, List.filterMap_cons_some hop, hanswer, ← halike]
      rfl
    | foreign hop =>
      rw [hop, List.filterMap_cons_none hop]
      rfl

end PlantOp

/-! ## New engines -/

/-- A plant with one engine. -/
theorem Plant.ofMachine_eq {W : Type} (world : W) (machine : Handle)
    (config : Option EngineConfig) : ∃ s : Site W, s.world = world ∧
      ofMachine world machine config =
        { toSite := s, engines := [.around (config.getD {}) machine] } := by
  obtain ⟨ns, hwrap⟩ := Engine.run_wrap machine config { world }
  have hrun : (do addEngine (← onSite (Engine.wrap machine config)) : Act (Plant W) Reply).run
      { world } = .ok (.engine 0)
        { world, notices := [] ++ ns, engines := [.around (config.getD {}) machine] } := by
    rw [EStateM.run_bind, onSite, Act.run_focus, hwrap]
    rfl
  refine ⟨{ world, notices := ns }, rfl, ?_⟩
  exact congrArg Prod.snd (Answer.reply_of_run (o := .ok _) hrun)

/-- A plant with one engine around a machine is sound, and so is the engine. -/
theorem Plant.ofMachine_sound {world : World} {machine : Handle} {ledger : Ledger}
    (config : Option EngineConfig) (hworld : world.Tame) (h : world.Holds machine ledger) :
    let p := ofMachine world machine config
    p.Sound ∧ p.world = world ∧ ∃ e, p.engines[0]? = some e ∧ e.config = config.getD {} ∧
      (e.room p.toSite).Twins (.opening 0 { world := .ofLedger ledger [] [] }) := by
  obtain ⟨s, rfl, hp⟩ := ofMachine_eq world machine config
  rw [hp]
  have hengine {n : Nat} {e : Engine} (hn : [Engine.around (config.getD {}) machine][n]? = some e) :
      n = 0 ∧ e = .around (config.getD {}) machine := by
    cases n <;> simp_all
  refine ⟨⟨hworld, fun hn => ?_, fun hn hm _ _ => (hengine hn).1.trans (hengine hm).1.symm⟩, rfl,
    _, rfl, rfl, Room.opening_twins hworld h ⟨rfl, rfl⟩ ⟨_, rfl, rfl, rfl⟩⟩
  rw [(hengine hn).2]
  exact .around hworld h

/-- What was saved can be loaded. The engine that is made is a twin of a new engine on a machine
that holds it. -/
theorem PlantOp.perform_load (hp : p.Sound) {saved : Ledger}
    (hsaved : p.world.snapshot? path = some saved) (config : Option EngineConfig)
    (remote : Option RemoteConfig) (runtime : Option MachineSettings) :
    let q := (load path config remote runtime).perform backend p
    q.1 = { outcome := .ok (.engine p.engines.length) } ∧
      ∃ e, q.2.engines[p.engines.length]? = some e ∧ e.config = config.getD {} ∧
        (e.room q.2.toSite).Twins (.opening 0 { world := .ofLedger saved [] [] }) := by
  have hdoes := (load path config remote runtime).does hp.tame
  generalize (load path config remote runtime).perform backend p = q at hdoes
  obtain ⟨a, p'⟩ := q
  cases hdoes with
  | missing hno => cases hsaved.symm.trans hno
  | @loaded _ _ _ _ ledger s h hs =>
    obtain rfl := Option.some.inj (hsaved.symm.trans h)
    obtain ⟨htame, hholds⟩ := hp.tame.loaded hs
    exact ⟨rfl, _, List.getElem?_concat_length, rfl,
      Room.opening_twins htame hholds ⟨rfl, rfl⟩ ⟨_, rfl, rfl, rfl⟩⟩

namespace PlantOp

theorem filterMap_on?_map_engine (n : Nat) (eops : List EngineOp) :
    (eops.map (engine n)).filterMap (on? n) = eops := by
  have hon (eop : EngineOp) : (on? n ∘ engine n) eop = some eop := if_pos rfl
  rw [List.filterMap_map, funext hon]
  exact List.filterMap_some

/-- An engine that was loaded answers all that is done later as an engine with the same
configuration does that was made around a live machine with the ledger that was saved. -/
theorem answers_load (hp : p.Sound) {saved : Ledger}
    (hsaved : p.world.snapshot? path = some saved) (config : Option EngineConfig)
    (remote : Option RemoteConfig) (runtime : Option MachineSettings) {world : World}
    {machine : Handle} (hworld : world.Tame) (hmachine : world.Holds machine saved)
    (later : List PlantOp) :
    let k := p.engines.length
    answers backend k later ((load path config remote runtime).perform backend p).2 =
      answers backend 0 ((later.filterMap (on? k)).map (.engine 0))
        (Plant.ofMachine world machine config) := by
  obtain ⟨-, e, he, hconfig, htwins⟩ := perform_load hp hsaved config remote runtime
  obtain ⟨hsound, -, e', he', hconfig', htwins'⟩ := Plant.ofMachine_sound config hworld hmachine
  have hloaded := ((load path config remote runtime).does hp.tame).sound hp
  dsimp only
  rw [answers_eq hloaded he htwins, answers_eq hsound he' htwins', filterMap_on?_map_engine,
    hconfig, hconfig']

/-! ## What the engines of a plant have committed -/

/-- An operation on an isolated engine adds to its ledger the payload that it brings to be accepted,
and nothing else. -/
theorem ledger?_perform_own (hp : p.Sound) (hn : p.engines[n]? = some e)
    (hm : e.config.isolation = .isolated) (eop : EngineOp) :
    ((engine n eop).perform backend p).2.ledger? n =
      (p.ledger? n).map (· ++ eop.adds backend e.config (e.room p.toSite)) := by
  obtain ⟨⟨own, hlinked⟩, -, r, htwins, hr⟩ := hp.engine hn
  have htogether := EngineOp.perform_twins htwins hlinked eop
  have hledger := (hr.perform eop).2 hm
  rw [htogether.adds, htogether.twins.canonicalLedger_eq, htwins.canonicalLedger_eq] at hledger
  have hperform : (engine n eop).perform backend p = _ := Plant.onEngine_of_getElem? backend hn eop
  rw [hperform, Plant.ledger?, Plant.ledger?, hn]
  dsimp only
  rw [List.getElem?_set_self (List.getElem?_eq_some_iff.1 hn).1]
  exact congrArg some hledger

/-- An operation that is not on an engine leaves it as it is, and what it has committed. -/
theorem ledger?_perform_foreign (hp : p.Sound) (hn : n < p.engines.length)
    (hop : op.on? n = none) :
    let p' := (op.perform backend p).2
    p'.engines[n]? = p.engines[n]? ∧ p'.ledger? n = p.ledger? n := by
  intro p'
  have hn := List.getElem?_eq_getElem hn
  cases (op.does hp.tame).concerns hp hn with
  | own hown => cases hown.symm.trans hop
  | foreign _ he hsame =>
    refine ⟨he.trans hn.symm, ?_⟩
    rw [Plant.ledger?, Plant.ledger?, he, hn]
    exact congrArg some (Engine.canonicalLedger_congr (hsame _ (.inl rfl)))

/-- **The round trip of a ledger through a store.** At any time in a run of engines on one site:

* an engine saves its machine exactly when it is idle, answers with itself, and is left as it is;
* the snapshot under a path is what the engine that was last told to save there had committed;
* an engine that is loaded from there has committed the snapshot, and it answers all that is done
  later as an engine with the same configuration does that is made around a live machine with this
  ledger;
* an operation on one engine leaves all others as they are, and what they have committed;
* what an isolated engine has committed grows by the payloads that it accepts. -/
theorem run_round_trip {world : World} {machine : Handle} {ledger : Ledger}
    (config : Option EngineConfig) (hworld : world.Tame) (hmachine : world.Holds machine ledger)
    (ops : List PlantOp) :
    let start := Plant.ofMachine world machine config
    let p := run backend ops start
    (∀ n e path, p.engines[n]? = some e →
      let q := (engine n (.store path)).perform backend p
      (q.1.failure? = none ↔ e.controller.state = .idle) ∧
        (q.1.failure? = none → q.1 = { outcome := .ok .itself }) ∧ q.2.engines = p.engines) ∧
    (∀ path, p.world.snapshot? path = (lastSaved path ops start).or (world.snapshot? path)) ∧
    (∀ path saved config' remote runtime, p.world.snapshot? path = some saved →
      let k := p.engines.length
      let q := (load path config' remote runtime).perform backend p
      q.1 = { outcome := .ok (.engine k) } ∧ q.2.ledger? k = some saved ∧
        ∀ world' machine', world'.Tame → world'.Holds machine' saved → ∀ later,
          answers backend k later q.2 =
            answers backend 0 ((later.filterMap (on? k)).map (.engine 0))
              (Plant.ofMachine world' machine' config')) ∧
    (∀ (op : PlantOp) n, n < p.engines.length → op.on? n = none →
      let p' := (op.perform backend p).2
      p'.engines[n]? = p.engines[n]? ∧ p'.ledger? n = p.ledger? n) ∧
    (∀ n e eop, p.engines[n]? = some e → e.config.isolation = .isolated →
      ((engine n eop).perform backend p).2.ledger? n =
        (p.ledger? n).map (· ++ eop.adds backend e.config (e.room p.toSite))) := by
  intro start p
  obtain ⟨hstart, hw, -⟩ := Plant.ofMachine_sound config hworld hmachine
  have hp : p.Sound := hstart.run ops
  refine ⟨fun n e path hn => ?_, fun path => ?_, ?_, fun op n hn hop => ?_,
    fun n e eop hn hm => ledger?_perform_own hp hn hm eop⟩
  · obtain ⟨hengines, ⟨hidle, ha, -⟩ | ⟨hbusy, ⟨f, ha⟩, -⟩⟩ := perform_store hp hn path <;>
      dsimp only <;> rw [ha]
    · exact ⟨iff_of_true rfl hidle, fun _ => rfl, hengines⟩
    · exact ⟨iff_of_false nofun hbusy, nofun, hengines⟩
  · rw [snapshot?_run hstart, hw]
  · intro path saved config' remote runtime hsaved k q
    obtain ⟨ha, e, he, -, htwins⟩ := perform_load hp hsaved config' remote runtime
    refine ⟨ha, ?_, fun world' machine' hworld' hmachine' later =>
      answers_load hp hsaved config' remote runtime hworld' hmachine' later⟩
    rw [Plant.ledger?, he]
    exact congrArg some htwins.canonicalLedger_eq.symm
  · exact ledger?_perform_foreign hp hn hop

/-- An engine that accepts another input after its machine was saved leaves the snapshot as it is,
and the engine that is loaded has not accepted that input. -/
theorem saved_before_advance :
    let ops : List PlantOp :=
      [.engine 0 (.submit .advance (.bytes [1]) (some true)), .engine 0 (.store "s"),
        .engine 0 (.submit .advance (.bytes [2]) (some true))]
    let world := World.ofLedger [[7]] [] []
    let p := run backend ops (Plant.ofMachine world 0 none)
    let q := (load "s" none none none).perform backend p
    world.Tame ∧ world.Holds 0 [[7]] ∧ p.ledger? 0 = some [[7], [1], [2]] ∧
      p.world.snapshot? "s" = some [[7], [1]] ∧ q.2.ledger? 1 = some [[7], [1]] ∧
      ∀ later, answers backend 1 later q.2 =
        answers backend 0 ((later.filterMap (on? 1)).map (.engine 0))
          (Plant.ofMachine (.ofLedger [[7], [1]] [] []) 0 none) := by
  intro ops world
  dsimp only
  have hworld : world.Tame := ⟨rfl, rfl⟩
  have hmachine : world.Holds 0 [[7]] := ⟨_, rfl, rfl, rfl⟩
  have hround := run_round_trip none hworld hmachine ops
  dsimp only at hround
  generalize hp : run backend ops (Plant.ofMachine world 0 none) = p at hround ⊢
  have hsaved : p.world.snapshot? "s" = some [[7], [1]] := by
    rw [← hp]
    decide +kernel
  have hnumber : p.engines.length = 1 := by
    rw [← hp]
    decide +kernel
  have hledger : p.ledger? 0 = some [[7], [1], [2]] := by
    rw [← hp]
    decide +kernel
  obtain ⟨-, hloaded, hanswers⟩ := hround.2.2.1 "s" [[7], [1]] none none none hsaved
  rw [hnumber] at hloaded hanswers
  exact ⟨hworld, hmachine, hledger, hsaved, hloaded,
    hanswers (.ofLedger [[7], [1]] [] []) 0 ⟨rfl, rfl⟩ ⟨_, rfl, rfl, rfl⟩⟩

end PlantOp

end RollupEngine
