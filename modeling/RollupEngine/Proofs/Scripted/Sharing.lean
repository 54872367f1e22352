import RollupEngine.Proofs.Loading
import RollupEngine.Proofs.Reach
import RollupEngine.Proofs.Scripted.Twins

/-!
# Engines that share a world

Engines on one site share its machines, but none reaches the machines of another: it calls those
that it knows and those that it forks, and a fork is a machine that was not there before. Calls
spare all other machines (`World.Spares`).

So each engine of a plant is the twin of an engine that has a world for itself (`Engine.Sound`), and
no machine is known to two of them (`Plant.Sound`). To each engine, an operation on the plant is
either its own or one that leaves its machines alone (`PlantOp.Concerns`), so both are kept by every
operation (`PlantOp.Does.sound`).
-/

namespace RollupEngine

namespace Scripted

/-! ## What calls spare -/

/-- What is left of the world `w` after the calls `xs`. -/
structure World.Spares (w : World) (xs : List Exchange) (w' : World) : Prop where
  tame : w.Tame → w'.Tame
  length_le : w.machines.length ≤ w'.machines.length
  /-- A machine is as it was, unless it was called. -/
  machine : ∀ h, h < w.machines.length → (∀ x ∈ xs, x.machine? ≠ some h) →
    w'.machines[h]? = w.machines[h]?
  /-- A fork is a machine that was not there before. -/
  forked : ∀ h, Forked xs h → w.machines.length ≤ h ∧ h < w'.machines.length
  snapshots : (∀ m path reply, .store m path reply ∉ xs) → w'.snapshots = w.snapshots

namespace World.Spares

variable {w w' w'' : World} {xs ys : List Exchange} {x : Exchange} {k : Handle}

theorem refl (w : World) : w.Spares [] w where
  tame h := h
  length_le := Nat.le_refl _
  machine _ _ _ := rfl
  forked := nofun
  snapshots _ := rfl

theorem trans (h : w.Spares xs w') (h' : w'.Spares ys w'') : w.Spares (xs ++ ys) w'' where
  tame hw := h'.tame (h.tame hw)
  length_le := Nat.le_trans h.length_le h'.length_le
  machine m hm hxs := by
    obtain ⟨hxs, hys⟩ := List.forall_mem_append.1 hxs
    exact (h'.machine m (Nat.lt_of_lt_of_le hm h.length_le) hys).trans (h.machine m hm hxs)
  forked m := by
    rintro ⟨k, hk⟩
    rcases List.mem_append.1 hk with hk | hk
    · obtain ⟨hle, hlt⟩ := h.forked m ⟨k, hk⟩
      exact ⟨hle, Nat.lt_of_lt_of_le hlt h'.length_le⟩
    · obtain ⟨hle, hlt⟩ := h'.forked m ⟨k, hk⟩
      exact ⟨Nat.le_trans h.length_le hle, hlt⟩
  snapshots hno := by
    rw [h'.snapshots fun m path reply hx => hno m path reply (List.mem_append_right _ hx),
      h.snapshots fun m path reply hx => hno m path reply (List.mem_append_left _ hx)]

/-- A call that was only counted. -/
theorem of_count (w : World) (x : Exchange) (method : Method) (hx : ∀ h, ¬Forked [x] h) :
    w.Spares [x] (w.count method) where
  tame h := ⟨h.faults, h.programs⟩
  length_le := Nat.le_refl _
  machine _ _ _ := rfl
  forked h hf := absurd hf (hx h)
  snapshots _ := rfl

/-- A call that put another machine in the place of the one that was called. -/
theorem of_set {m : Machine} (hx : x.machine? = some k) (hno : ∀ h, ¬Forked [x] h)
    (hw : w'.machines = w.machines.set k m) (hfaults : w'.faults = w.faults)
    (hprograms : w'.programs = w.programs) (hsnapshots : w'.snapshots = w.snapshots) :
    w.Spares [x] w' where
  tame h := ⟨hfaults.trans h.faults, hprograms.trans h.programs⟩
  length_le := by rw [hw, List.length_set]
  machine h _ hxs := by
    have hne : k ≠ h := fun hkh => hxs x (List.mem_singleton.2 rfl) (by rw [hx, hkh])
    rw [hw, List.getElem?_set_ne hne]
  forked h hf := absurd hf (hno h)
  snapshots _ := hsnapshots

/-- A call that added a machine. -/
theorem of_add {m : Machine} (hx : ∀ h, Forked [x] h → h = w.machines.length)
    (hw : w'.machines = w.machines ++ [m]) (hfaults : w'.faults = w.faults)
    (hprograms : w'.programs = w.programs) (hsnapshots : w'.snapshots = w.snapshots) :
    w.Spares [x] w' where
  tame h := ⟨hfaults.trans h.faults, hprograms.trans h.programs⟩
  length_le := by simp [hw]
  machine h hh _ := by rw [hw, List.getElem?_append_left hh]
  forked h hf := by simp [hw, hx h hf]
  snapshots _ := hsnapshots

end World.Spares

/-- A call that forks no machine. -/
theorem not_forked {x : Exchange} (hx : ∀ k h, x ≠ .fork k (.ok h)) (h : Handle) :
    ¬Forked [x] h := by
  rintro ⟨k, hk⟩
  exact hx k h (List.mem_singleton.1 hk).symm

/-- A call that fails is only counted, so it spares what its body spares. -/
theorem World.Spares.of_call {α : Type} {w w' : World} {x : Exchange} {method : Method}
    {k : Handle} {body : Machine → World → Except Error α × World} {reply : Except Error α}
    (h : w.call method k body = (reply, w')) (hx : ∀ k h, x ≠ .fork k (.ok h))
    (hbody : ∀ m, w.Spares [x] (body m (w.count method)).2) : w.Spares [x] w' := by
  rcases w.call_cases method k body with ⟨e, he⟩ | ⟨m, -, hcall⟩
  · cases he.symm.trans h
    exact .of_count w x method (not_forked hx)
  · have hw : (body m (w.count method)).2 = w' := congrArg Prod.snd (hcall.symm.trans h)
    exact hw ▸ hbody m

/-- A call spares all machines but the one that is called. -/
theorem spares_of_replies {w w' : World} {x : Exchange} (h : backend.Replies w x w') :
    w.Spares [x] w' := by
  cases x with
  | fork k reply =>
    rcases fork_cases k w with ⟨e, he⟩ | ⟨m, -, hfork⟩
    · cases he.symm.trans h
      exact .of_count w (.fork k (.error e)) .fork (not_forked (by simp))
    · cases hfork.symm.trans h
      refine .of_add (fun h => ?_) rfl rfl rfl rfl
      rintro ⟨k', hk'⟩
      cases List.mem_singleton.1 hk'
      rfl
  | send | run | shutdown =>
    simp only [Backend.Replies, backend] at h
    exact .of_call h (by simp) fun m => .of_set rfl (not_forked (by simp)) rfl rfl rfl rfl
  | receive k reply =>
    simp only [Backend.Replies, backend] at h
    exact .of_call h (by simp) fun m =>
      .of_count w (.receive k reply) .receive (not_forked (by simp))
  | store k path reply =>
    simp only [Backend.Replies, backend] at h
    refine .of_call h (by simp) fun m => ?_
    exact ⟨fun hw => ⟨hw.faults, hw.programs⟩, Nat.le_refl _, fun _ _ _ => rfl,
      fun h hf => absurd hf (not_forked (by simp) h),
      fun hno => absurd (List.mem_singleton.2 rfl) (hno k path reply)⟩
  | load origin reply =>
    simp only [Backend.Replies, backend, World.enter] at h
    split at h
    · cases h
      exact .of_count w _ .load (not_forked (by simp))
    · split at h
      · cases h
        exact .of_add (fun h hf => absurd hf (not_forked (by simp) h)) rfl rfl rfl rfl
      · cases h
        exact .of_count w _ .load (not_forked (by simp))

theorem spares_of_replays {w w' : World} {xs : List Exchange} (h : backend.Replays w xs w') :
    w.Spares xs w' := by
  induction h with
  | nil w => exact .refl w
  | cons head _ ih => exact (spares_of_replies head).trans ih

/-! ## Loading -/

section

variable {w : World} {path : String} {ledger : Ledger}

/-- Without faults, a call that needs no machine does its body. -/
theorem World.enter_of_faultless {α : Type} (hf : w.faults = []) (method : Method)
    (body : World → Except Error α × World) : w.enter method body = body (w.count method) := by
  have hfault : (w.count method).fault? method = none := by simp [World.fault?, World.count, hf]
  simp only [World.enter, hfault]

theorem load_of_saved (hf : w.faults = []) (h : w.snapshot? path = some ledger) (origin : Origin)
    (horigin : origin.path = path) :
    backend.load origin w = (w.count .load).addMachine { ledger } := by
  have hload : (w.count .load).snapshot? path = some ledger := h
  simp only [backend, World.enter_of_faultless hf, horigin, hload]

/-- The machine that is loaded holds what was saved. -/
theorem World.Tame.loaded {w' : World} (hw : w.Tame)
    (h : w' = ((w.count .load).addMachine { ledger }).2) :
    w'.Tame ∧ w'.Holds w.machines.length ledger := by
  subst h
  exact ⟨⟨hw.faults, hw.programs⟩, { ledger }, List.getElem?_concat_length, rfl, rfl⟩

theorem load_of_unsaved (hf : w.faults = []) (h : w.snapshot? path = none) (origin : Origin)
    (horigin : origin.path = path) :
    backend.load origin w =
      (.error (machineError ("no snapshot: " ++ path)), w.count .load) := by
  have hload : (w.count .load).snapshot? path = none := h
  simp only [backend, World.enter_of_faultless hf, horigin, hload]

end

end Scripted

open Scripted

/-! ## The room of an engine -/

variable {e : Engine} {s s' : Site World} {r : Room World} {ledger : Ledger}

/-- The engine after what was done in its room. -/
def Engine.inRoom {W : Type} (e : Engine) (r : Room W) : Engine :=
  { e with controller := r.controller, sessions := r.sessions }

theorem Room.opening_ready {machine : Handle} (hs : s.world.Tame)
    (h : s.world.Holds machine ledger) :
    (Room.opening machine s).Ready [] s.world.sends ledger :=
  ⟨⟨rfl, rfl⟩, ⟨hs.faults, hs.programs, rfl⟩, h⟩

/-- New engines on machines that hold the same are twins. -/
theorem Room.opening_twins {machine machine' : Handle} (hs : s.world.Tame)
    (h : s.world.Holds machine ledger) (hs' : s'.world.Tame)
    (h' : s'.world.Holds machine' ledger) :
    (Room.opening machine s).Twins (Room.opening machine' s') :=
  .idle rfl (opening_ready hs h) (opening_ready hs' h')

/-- What the canonical machine holds depends on this machine alone. -/
theorem Engine.canonicalLedger_congr (h : s'.world.machines[e.controller.canonical]? =
    s.world.machines[e.controller.canonical]?) :
    (e.room s').canonicalLedger = (e.room s).canonicalLedger :=
  congrArg (fun m => (m.map (·.ledger)).getD []) h

/-- The machine that a session runs on is known, and the one behind it. -/
theorem Controller.knows_opened (c : Controller) (mode : Isolation) (fork : Handle) :
    (c.opened mode fork).Knows (mode.working c.canonical fork) ∧
      (c.opened mode fork).Knows c.canonical := by
  cases mode with
  | direct => exact ⟨.inl rfl, .inl rfl⟩
  | isolated => exact ⟨.inr rfl, .inl rfl⟩

/-- Another world will do, if the machines that the engine knows are the same in it. -/
theorem Room.Twins.elsewhere (h : (e.room s).Twins r) (hs' : s'.world.Tame)
    (hsame : ∀ k, e.controller.Knows k → s'.world.machines[k]? = s.world.machines[k]?) :
    (e.room s').Twins r := by
  have hcanonical : s'.world.machines[e.controller.canonical]? =
      s.world.machines[e.controller.canonical]? := hsame _ (.inl rfl)
  cases h with
  | idle hs h h' =>
    obtain ⟨m, hm, hold⟩ := h.holds
    have hready : (e.room s').Ready [] s'.world.sends _ :=
      ⟨h.idle, ⟨hs'.faults, hs'.programs, rfl⟩, m, hcanonical.trans hm, hold⟩
    exact .idle hs hready h'
  | @running g _ m n session _ hn hs h =>
    obtain ⟨hidle, hphase, hc, hquiet, hworking, hlasting, hbackup⟩ := h.engaged
    obtain ⟨hknows, hknows'⟩ := g.eve.knows_opened session.isolation g.fork
    have hc : e.controller = g.eve.opened session.isolation g.fork := hc
    rw [← hc] at hknows hknows'
    refine .running (g := { g with sends := s'.world.sends }) hn hs
      ⟨h.session, h.programs, h.programs', h.base, ?_, h.engaged'⟩
    refine ⟨hidle, hphase, hc, ⟨hs'.faults, ?_, rfl⟩, (hsame _ hknows).trans hworking, hlasting,
      fun hmode => ?_⟩
    · exact hs'.programs.trans h.programs.symm
    · obtain ⟨hne, k, hk, hold⟩ := hbackup hmode
      exact ⟨hne, k, (hsame _ hknows').trans hk, hold⟩
  | closed hs hc hc' hledger =>
    exact .closed hs hc hc' (hledger.trans (Engine.canonicalLedger_congr hcanonical).symm)

/-! ## Engines with a world for themselves -/

/-- What is known of an isolated engine that has a world for itself: its room is committed. -/
def Room.Solitary (config : EngineConfig) (r : Room World) : Prop :=
  config.isolation = .isolated → ∃ ledger own, r.Committed ledger ∧ r.Linked config.isolation own

theorem Room.opening_solitary (config : EngineConfig) (ledger : Ledger) :
    (opening 0 { world := .ofLedger ledger [] [] }).Solitary config :=
  fun _ => ⟨ledger, [], opening_committed ledger, opening_linked _ _ _⟩

theorem Room.Committed.canonicalLedger_eq (h : r.Committed ledger) :
    r.canonicalLedger = ledger := by
  obtain ⟨m, hm, rfl, -⟩ := h.tended.canonical
  simp [Desk.canonicalLedger, World.ledgerOf, hm]

/-- An operation on an isolated engine adds to its ledger the payload that it brings to be accepted,
and nothing else. -/
theorem Room.Solitary.perform {config : EngineConfig} (h : r.Solitary config) (op : EngineOp) :
    (op.perform backend config r).2.Solitary config ∧ (config.isolation = .isolated →
      (op.perform backend config r).2.canonicalLedger =
        r.canonicalLedger ++ op.adds backend config r) := by
  have hcommitted (hm : config.isolation = .isolated) : ∃ ledger own, r.Committed ledger ∧
      (op.perform backend config r).2.Committed (ledger ++ op.adds backend config r) ∧
      (op.perform backend config r).2.Linked config.isolation own := by
    obtain ⟨ledger, own, hr, hlinked⟩ := h hm
    obtain ⟨_, _, _, hdoes, -⟩ := op.does backend config r
    exact ⟨ledger, _, hr, hdoes.committed hm hlinked hr, hdoes.linked hlinked⟩
  constructor <;> intro hm <;> obtain ⟨ledger, own, hr, hr', hlinked⟩ := hcommitted hm
  · exact ⟨_, own, hr', hlinked⟩
  · rw [hr'.canonicalLedger_eq, hr.canonicalLedger_eq]

/-! ## Operations on plants -/

theorem Plant.onEngine_of_getElem? {W : Type} (b : Backend W) {p : Plant W} {n : Nat} {e : Engine}
    (hn : p.engines[n]? = some e) (op : EngineOp) :
    p.onEngine b n op = ((op.perform b e.config (e.room p.toSite)).1,
      { toSite := (op.perform b e.config (e.room p.toSite)).2.toSite
        engines := p.engines.set n (e.inRoom (op.perform b e.config (e.room p.toSite)).2) }) := by
  rw [onEngine, hn]
  rfl

namespace PlantOp

variable {W : Type} {b : Backend W} {path : String} {config : Option EngineConfig}
  {remote : Option RemoteConfig} {runtime : Option MachineSettings}

/-- The operation on the engine with a number that an operation on a plant is. -/
def on? (number : Nat) : PlantOp → Option EngineOp
  | .engine n op => if n = number then some op else none
  | .load .. => none

/-- The number of the engine that an operation is on, or that it makes. -/
def target (p : Plant W) : PlantOp → Nat
  | .engine n _ => n
  | .load .. => p.engines.length

/-- All that an operation does to a plant, with the answer to it. -/
inductive Does (p : Plant World) : PlantOp → Answer → Plant World → Prop
  /-- An operation on an engine that is not there. -/
  | absent {n : Nat} {op : EngineOp} (h : p.engines[n]? = none) :
    Does p (.engine n op) { outcome := .ok .noEngine } p
  /-- An operation on an engine changes the site, and no other engine. -/
  | engine {n : Nat} {op : EngineOp} {e : Engine} {a : Answer} {r : Room World}
      (h : p.engines[n]? = some e) (hop : op.perform backend e.config (e.room p.toSite) = (a, r)) :
    Does p (.engine n op) a { toSite := r.toSite, engines := p.engines.set n (e.inRoom r) }
  /-- A new engine is made around a machine with the ledger that was saved. -/
  | loaded {path : String} {config : Option EngineConfig} {remote : Option RemoteConfig}
      {runtime : Option MachineSettings} {ledger : Ledger} {s : Site World}
      (h : p.world.snapshot? path = some ledger)
      (hs : s.world = ((p.world.count .load).addMachine { ledger }).2) :
    Does p (.load path config remote runtime) { outcome := .ok (.engine p.engines.length) }
      { toSite := s
        engines := p.engines ++ [.around (config.getD {}) p.world.machines.length] }
  /-- Nothing was saved under the path. -/
  | missing {path : String} {config : Option EngineConfig} {remote : Option RemoteConfig}
      {runtime : Option MachineSettings} {f : Failure} {s : Site World}
      (h : p.world.snapshot? path = none) (hs : s.world = p.world.count .load) :
    Does p (.load path config remote runtime) { outcome := .error f } { p with toSite := s }

/-- Every operation does one of these, unless a call is made to fail. -/
theorem does {p : Plant World} (hp : p.world.Tame) (op : PlantOp) :
    Does p op (op.perform backend p).1 (op.perform backend p).2 := by
  cases op with
  | engine n op =>
    rw [perform, Plant.onEngine]
    cases he : p.engines[n]? with
    | none => exact .absent he
    | some e => exact .engine he rfl
  | load path config remote runtime =>
    cases hs : p.world.snapshot? path with
    | none =>
      obtain ⟨s, hrun, hw, -⟩ := Engine.run_ofStore config remote runtime
        (load_of_unsaved hp.faults hs _ rfl)
      rw [perform_load_failed hrun]
      exact .missing hs hw
    | some ledger =>
      obtain ⟨s, hrun, hw, -⟩ := Engine.run_ofStore config remote runtime
        (load_of_saved hp.faults hs _ rfl)
      rw [perform_load_made hrun]
      exact .loaded hs hw

end PlantOp

/-! ## Engines of a plant -/

/-- A controller and its world after it kept to the machines that it knows. -/
structure Controller.Confined (c : Controller) (w : World) (c' : Controller) (w' : World) :
    Prop where
  tame : w.Tame → w'.Tame
  length_le : w.machines.length ≤ w'.machines.length
  machine : ∀ h, h < w.machines.length → ¬c.Knows h → w'.machines[h]? = w.machines[h]?
  /-- What was not known before was not there before. -/
  knows : ∀ h, c'.Knows h → c.Knows h ∨ w.machines.length ≤ h ∧ h < w'.machines.length

theorem Controller.KeepsTo.confined {c c' : Controller} {w w' : World} {xs : List Exchange}
    (h : c.KeepsTo xs c') (hw : w.Spares xs w') : c.Confined w c' w' where
  tame := hw.tame
  length_le := hw.length_le
  machine k hk hc := by
    refine hw.machine k hk fun x hx hm => ?_
    rcases h.calls x hx k hm with hknows | hforked
    · exact hc hknows
    · exact Nat.not_lt.2 (hw.forked k hforked).1 hk
  knows k hk := (h.after k hk).imp_right (hw.forked k)

/-- The transaction of the engine belongs to its one session that runs, the machines that it knows
are there, and it is the twin of an engine that has a world for itself. -/
structure Engine.Sound (e : Engine) (s : Site World) : Prop where
  linked : ∃ own, (e.room s).Linked e.config.isolation own
  known : ∀ h, e.controller.Knows h → h < s.world.machines.length
  twin : ∃ r : Room World, (e.room s).Twins r ∧ r.Solitary e.config

namespace Engine.Sound

/-- A new engine. -/
theorem around {config : EngineConfig} {machine : Handle} (hs : s.world.Tame)
    (h : s.world.Holds machine ledger) : (Engine.around config machine).Sound s where
  linked := by
    rw [room_around]
    exact ⟨[], Room.opening_linked _ machine s⟩
  known k hk := by
    obtain ⟨m, hm, -⟩ := h
    obtain rfl : k = machine := hk.eq_canonical rfl
    exact (List.getElem?_eq_some_iff.1 hm).1
  twin := ⟨.opening 0 { world := .ofLedger ledger [] [] },
    Room.opening_twins hs h ⟨rfl, rfl⟩ ⟨_, rfl, rfl, rfl⟩, Room.opening_solitary config ledger⟩

/-- Another world will do, if the machines that the engine knows are the same in it. -/
theorem elsewhere (h : e.Sound s) (hs' : s'.world.Tame)
    (hlength : s.world.machines.length ≤ s'.world.machines.length)
    (hsame : ∀ k, e.controller.Knows k → s'.world.machines[k]? = s.world.machines[k]?) :
    e.Sound s' := by
  obtain ⟨⟨own, hlinked⟩, hknown, r, htwins, hr⟩ := h
  have hlinked' : (e.room s').Linked e.config.isolation own :=
    ⟨hlinked.isolation, hlinked.fits, hlinked.forked, hlinked.holder, hlinked.held, hlinked.unique⟩
  exact ⟨⟨own, hlinked'⟩, fun k hk => Nat.lt_of_lt_of_le (hknown k hk) hlength,
    r, htwins.elsewhere hs' hsame, hr⟩

theorem confined (h : e.Sound s) (op : EngineOp) :
    let r := (op.perform backend e.config (e.room s)).2
    e.controller.Confined s.world r.controller r.world := by
  obtain ⟨own, hlinked⟩ := h.linked
  obtain ⟨_, _, _, hdoes, -⟩ := op.does backend e.config (e.room s)
  exact (hdoes.keepsTo hlinked).confined (spares_of_replays hdoes.follows.world)

/-- Whatever is done with an engine, it stays sound. -/
theorem perform (h : e.Sound s) (op : EngineOp) :
    let r := (op.perform backend e.config (e.room s)).2
    (e.inRoom r).Sound r.toSite := by
  intro r'
  have hconfined : e.controller.Confined s.world r'.controller r'.world := h.confined op
  obtain ⟨⟨own, hlinked⟩, hknown, r, htwins, hr⟩ := h
  obtain ⟨_, _, _, hdoes, -⟩ := op.does backend e.config (e.room s)
  refine ⟨⟨_, hdoes.linked hlinked⟩, fun k hk => ?_, _,
    (EngineOp.perform_twins htwins hlinked op).twins, (hr.perform op).1⟩
  rcases hconfined.knows k hk with hk | ⟨-, hk⟩
  · exact Nat.lt_of_lt_of_le (hknown k hk) hconfined.length_le
  · exact hk

end Engine.Sound

/-- All engines of a plant are sound, and no machine is known to two of them. -/
structure Plant.Sound (p : Plant World) : Prop where
  tame : p.world.Tame
  engine : ∀ {n : Nat} {e : Engine}, p.engines[n]? = some e → e.Sound p.toSite
  apart : ∀ {n m : Nat} {e e' : Engine} {h : Handle}, p.engines[n]? = some e →
    p.engines[m]? = some e' → e.controller.Knows h → e'.controller.Knows h → n = m

namespace PlantOp

/-- What an operation on a plant is to the engine `e` with number `n`. -/
inductive Concerns (e : Engine) (n : Nat) (p : Plant World) (op : PlantOp) (a : Answer)
    (p' : Plant World) : Prop
  /-- An operation on the engine. -/
  | own {eop : EngineOp} (hop : op.on? n = some eop)
      (hanswer : a = (eop.perform backend e.config (e.room p.toSite)).1)
      (hroom : p'.toSite = (eop.perform backend e.config (e.room p.toSite)).2.toSite)
      (he : p'.engines[n]? = some (e.inRoom (eop.perform backend e.config (e.room p.toSite)).2))
  /-- It leaves the engine and its machines as they are. -/
  | foreign (hop : op.on? n = none) (he : p'.engines[n]? = some e)
      (hsame : ∀ h, e.controller.Knows h → p'.world.machines[h]? = p.world.machines[h]?)

variable {p p' : Plant World} {op : PlantOp} {a : Answer} {n : Nat}

theorem Does.concerns (h : op.Does p a p') (hp : p.Sound) (hn : p.engines[n]? = some e) :
    op.Concerns e n p a p' := by
  cases h with
  | @absent m _ hm =>
    have hne : m ≠ n := by
      rintro rfl
      cases hm.symm.trans hn
    exact .foreign (if_neg hne) hn fun _ _ => rfl
  | @engine m eop e' _ r hm hop =>
    obtain rfl : (eop.perform backend e'.config (e'.room p.toSite)).1 = a := congrArg Prod.fst hop
    obtain rfl : (eop.perform backend e'.config (e'.room p.toSite)).2 = r := congrArg Prod.snd hop
    by_cases hne : m = n
    · subst hne
      obtain rfl := Option.some.inj (hm.symm.trans hn)
      exact .own (if_pos rfl) rfl rfl (List.getElem?_set_self (List.getElem?_eq_some_iff.1 hn).1)
    · refine .foreign (if_neg hne) ((List.getElem?_set_ne hne).trans hn) fun k hk => ?_
      exact ((hp.engine hm).confined eop).machine k ((hp.engine hn).known k hk)
        fun hk' => hne (hp.apart hm hn hk' hk)
  | loaded hsaved hs =>
    have hlt : n < p.engines.length := (List.getElem?_eq_some_iff.1 hn).1
    refine .foreign rfl ((List.getElem?_append_left hlt).trans hn) fun k hk => ?_
    dsimp only
    rw [hs]
    exact List.getElem?_append_left ((hp.engine hn).known k hk)
  | missing _ hs =>
    refine .foreign rfl hn fun k _ => ?_
    dsimp only
    rw [hs]
    rfl

/-- The world stays tame, and machines are only added to it. -/
theorem Does.world (h : op.Does p a p') (hp : p.Sound) :
    p'.world.Tame ∧ p.world.machines.length ≤ p'.world.machines.length := by
  have htame := hp.tame
  cases h with
  | absent => exact ⟨htame, Nat.le_refl _⟩
  | @engine _ eop _ _ r hm hop =>
    obtain rfl := congrArg Prod.snd hop
    have hconfined := (hp.engine hm).confined eop
    exact ⟨hconfined.tame htame, hconfined.length_le⟩
  | loaded _ hs =>
    refine ⟨(htame.loaded hs).1, ?_⟩
    dsimp only
    rw [hs]
    simp [World.addMachine, World.count]
  | missing _ hs =>
    dsimp only
    rw [hs]
    exact ⟨⟨htame.faults, htame.programs⟩, Nat.le_refl _⟩

/-- An engine that was not there before is new. -/
theorem Does.sound_of_new (h : op.Does p a p') (hp : p.Sound) (hn : p.engines[n]? = none)
    (hn' : p'.engines[n]? = some e) : e.Sound p'.toSite ∧ op.target p = n ∧
      e.controller = { canonical := p.world.machines.length } := by
  cases h with
  | absent | missing => cases hn.symm.trans hn'
  | @engine m =>
    have hle : p.engines.length ≤ n := List.getElem?_eq_none_iff.1 hn
    have hlt := (List.getElem?_eq_some_iff.1 hn').1
    rw [List.length_set] at hlt
    exact absurd hle (Nat.not_le.2 hlt)
  | @loaded _ _ _ _ ledger s _ hs =>
    have hle : p.engines.length ≤ n := List.getElem?_eq_none_iff.1 hn
    have hlt := (List.getElem?_eq_some_iff.1 hn').1
    rw [List.length_append, List.length_singleton] at hlt
    obtain rfl : n = p.engines.length := by omega
    rw [List.getElem?_concat_length] at hn'
    obtain rfl := Option.some.inj hn'
    obtain ⟨htame, hholds⟩ := hp.tame.loaded hs
    exact ⟨.around htame hholds, rfl, rfl⟩

theorem on?_eq_some_iff {eop : EngineOp} : op.on? n = some eop ↔ op = .engine n eop := by
  cases op <;> simp [on?]

/-- Only one engine comes to know machines that were not there before. -/
theorem Does.knows {e' : Engine} {v : Handle} (h : op.Does p a p') (hp : p.Sound)
    (hn' : p'.engines[n]? = some e') (hv : e'.controller.Knows v) :
    (∃ e, p.engines[n]? = some e ∧ e.controller.Knows v) ∨
      op.target p = n ∧ p.world.machines.length ≤ v := by
  cases hn : p.engines[n]? with
  | none =>
    obtain ⟨-, htarget, hc⟩ := h.sound_of_new hp hn hn'
    rw [hc] at hv
    exact .inr ⟨htarget, Nat.le_of_eq (hv.eq_canonical rfl).symm⟩
  | some e =>
    cases h.concerns hp hn with
    | @own eop hop _ _ he =>
      obtain rfl := Option.some.inj (he.symm.trans hn')
      rw [on?_eq_some_iff] at hop
      subst hop
      rcases ((hp.engine hn).confined eop).knows v hv with hv | ⟨hv, -⟩
      · exact .inl ⟨e, rfl, hv⟩
      · exact .inr ⟨rfl, hv⟩
    | foreign _ he =>
      obtain rfl := Option.some.inj (he.symm.trans hn')
      exact .inl ⟨_, rfl, hv⟩

/-- No machine comes to be known to two engines. -/
theorem Does.apart {m : Nat} {e' : Engine} {v : Handle} (h : op.Does p a p') (hp : p.Sound)
    (hn : p'.engines[n]? = some e) (hm : p'.engines[m]? = some e') (hv : e.controller.Knows v)
    (hv' : e'.controller.Knows v) : n = m := by
  have hold {n : Nat} (he : ∃ e, p.engines[n]? = some e ∧ e.controller.Knows v) :
      v < p.world.machines.length := by
    obtain ⟨e, hn, hv⟩ := he
    exact (hp.engine hn).known v hv
  rcases h.knows hp hn hv with hn | ⟨hn, hnew⟩ <;>
    rcases h.knows hp hm hv' with hm | ⟨hm, hnew'⟩
  · obtain ⟨_, hn, hv⟩ := hn
    obtain ⟨_, hm, hv'⟩ := hm
    exact hp.apart hn hm hv hv'
  · exact absurd (hold hn) (Nat.not_lt.2 hnew')
  · exact absurd (hold hm) (Nat.not_lt.2 hnew)
  · exact hn.symm.trans hm

/-- Whatever is done with a plant, it stays sound. -/
theorem Does.sound (h : op.Does p a p') (hp : p.Sound) : p'.Sound := by
  obtain ⟨htame, hlength⟩ := h.world hp
  refine ⟨htame, fun {n e'} hn' => ?_, h.apart hp⟩
  cases hn : p.engines[n]? with
  | none => exact (h.sound_of_new hp hn hn').1
  | some e =>
    cases h.concerns hp hn with
    | @own eop _ _ hroom he =>
      obtain rfl := Option.some.inj (he.symm.trans hn')
      rw [hroom]
      exact (hp.engine hn).perform eop
    | foreign _ he hsame =>
      obtain rfl := Option.some.inj (he.symm.trans hn')
      exact (hp.engine hn).elsewhere htame hlength hsame

/-- Whatever is done with engines that are twins of others, they answer as these do and stay twins
of them. -/
theorem Concerns.twins {r : Room World} (h : op.Concerns e n p a p') (hp : p.Sound)
    (htame : p'.world.Tame) (hn : p.engines[n]? = some e) (hr : (e.room p.toSite).Twins r) :
    ∃ e', p'.engines[n]? = some e' ∧ e'.config = e.config ∧
      (e'.room p'.toSite).Twins (EngineOp.run backend e.config (op.on? n).toList r) := by
  cases h with
  | @own eop hop _ hroom he =>
    obtain ⟨own, hlinked⟩ := (hp.engine hn).linked
    refine ⟨_, he, rfl, ?_⟩
    rw [hop, hroom]
    exact (EngineOp.perform_twins hr hlinked eop).twins
  | foreign hop he hsame =>
    refine ⟨e, he, rfl, ?_⟩
    rw [hop]
    exact hr.elsewhere htame hsame

end PlantOp

/-- Every plant that a run leads to is sound. -/
theorem Plant.Sound.run {p : Plant World} (h : p.Sound) (ops : List PlantOp) :
    (PlantOp.run backend ops p).Sound := by
  induction ops generalizing p with
  | nil => exact h
  | cons op ops ih => exact ih ((op.does h.tame).sound h)

end RollupEngine
