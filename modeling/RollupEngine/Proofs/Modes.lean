import RollupEngine.Proofs.Scripted.Script
import RollupEngine.Proofs.Session.Lockstep

/-!
# The two modes of isolation

A direct transaction saves the fork: it works on the canonical machine itself, and cannot go back.
As long as no machine dies, and no call is made to fail, nobody who holds a session can tell one
mode from the other. They differ only in what a session leaves behind that was not accepted.

`Seat.Coupled` relates two sessions in two modes that have come equally far: before they begin the
canonical machines hold the same, while they run their machines have done the same and have the same
left to do, and an advance that was accepted leaves the canonical machines with the same ledger.
Whatever is done with the two, they look the same and stay coupled (`Seat.coupled_lockstep`).
-/

namespace RollupEngine

open Scripted

namespace Seat

variable {programs : List Program} {kind : InputKind} {g g' : Backdrop} {m : Machine}
  {s s' t t' : Seat World}

/-! ## Machines with the same left to do -/

/-- Two sessions are related as long as they run, and when they are left in the same way. -/
structure Relates (R : Seat World → Seat World → Prop) (g g' : Backdrop) (s s' : Seat World) :
    Prop where
  running : ∀ {n : Machine} {t t' : Seat World}, t.session = s.session ∧ t.Engaged g n →
    t'.session = s'.session ∧ t'.Engaged g' n → R t t'
  left : ∀ {n : Machine} {t t' : Seat World} {finale : Finale}, finale.Fair s.session.kind →
    Left g n s t finale → Left g' n s' t' finale → R t t'

section

variable {R : Seat World → Seat World → Prop}

theorem Relates.of_eq (h : Relates R g g' s s') (ht : t.session = s.session)
    (ht' : t'.session = s'.session) : Relates R g g' t t' where
  running hu hu' := h.running ⟨hu.1.trans ht, hu.2⟩ ⟨hu'.1.trans ht', hu'.2⟩
  left hfair hu hu' := h.left (by rwa [← ht]) (.of_eq ht hu) (.of_eq ht' hu')

/-- Turn by turn, sessions of one kind go the same way if their machines have the same left to
do. -/
theorem Relates.turns_alike (hR : Relates R g g' s s') (hk : s'.session.kind = s.session.kind)
    (h : s.Engaged g m) (h' : s'.Engaged g' m) (n : Nat) :
    (turns backend (s.session.machine g.eve.canonical g.fork) n).Alike R
      (turns backend (s'.session.machine g'.eve.canonical g'.fork) n) s s' := by
  induction n generalizing m s s' with
  | zero => exact .throw _ (hR.running ⟨rfl, h⟩ ⟨rfl, h'⟩)
  | succ n ih =>
    obtain ⟨t, hrun, ht⟩ := h.turn
    obtain ⟨t', hrun', ht'⟩ := h'.turn
    rw [hk] at hrun' ht'
    unfold Act.Alike
    rw [run_turns_succ n hrun, run_turns_succ n hrun']
    cases hu : upshot s.session.kind m.hear.1 with
    | delivered event =>
      rw [hu] at ht ht'
      exact ⟨.ok (some event), t, t', rfl, rfl, hR.running ht ht'⟩
    | ignored =>
      rw [hu] at ht ht'
      have hrest := ih (hR.of_eq ht.1 ht'.1) (by rw [ht.1, ht'.1, hk]) ht.2 ht'.2
      rwa [ht.1, ht'.1] at hrest
    | last finale =>
      rw [hu] at ht ht'
      exact ⟨_, t, t', rfl, rfl, hR.left (Finale.fair_of_upshot hu) ht ht'⟩

theorem Relates.pull_alike (hR : Relates R g g' s s') (hk : s'.session.kind = s.session.kind)
    (h : s.Engaged g m) (h' : s'.Engaged g' m) :
    (pull backend).Alike R (pull backend) s s' := by
  unfold Act.Alike
  rw [h.run_pull, h'.run_pull]
  exact hR.turns_alike hk h h' _

/-- They can be closed, and let go of, with the same effect. -/
theorem Relates.closed (hR : Relates R g g' s s') (h : s.Engaged g m) (h' : s'.Engaged g' m) :
    ∃ t t', (close backend).run s = .ok () t ∧ (close backend).run s' = .ok () t' ∧
      (abandon backend).run s = .ok () t ∧ (abandon backend).run s' = .ok () t' ∧ R t t' := by
  obtain ⟨t, hclose, habandon, ht⟩ := h.close
  obtain ⟨t', hclose', habandon', ht'⟩ := h'.close
  exact ⟨t, t', hclose, hclose', habandon, habandon', hR.left (Finale.fair_cancelled _) ht ht'⟩

end

/-! ## Coupled sessions -/

/-- Two sessions with the same input, each in a mode of its own, have come equally far. -/
inductive Coupled (programs : List Program) (kind : InputKind) (s s' : Seat World) : Prop
  | fresh {sends : Nat} {ledger : Ledger} (hk : s.session.kind = kind)
    (hk' : s'.session.kind = kind) (hpayload : s'.session.payload = s.session.payload)
    (hp : s.session.phase = .start) (hp' : s'.session.phase = .start)
    (h : s.Ready programs sends ledger) (h' : s'.Ready programs sends ledger)
  | running {g g' : Backdrop} {m : Machine} (h : Abreast kind programs programs g g' m m s s')
  | ended {sends : Nat} {ledger ledger' : Ledger} (hdone : s.session.phase.done = true)
    (hp : s'.session.phase = s.session.phase) (h : s.Ready programs sends ledger)
    (h' : s'.Ready programs sends ledger')
    (hkept : ∀ result, s.session.phase = .accepted result → kind = .advance → ledger' = ledger)

theorem settled_true (mode : Isolation) (base ledger : Ledger) :
    settled mode true base ledger = ledger := by
  cases mode <;> simp [settled]

/-- Sessions that run abreast and are left in the same way stay coupled. -/
theorem Abreast.coupled {n : Machine} {finale : Finale}
    (h : Abreast kind programs programs g g' m m s s') (hfair : finale.Fair kind)
    (ht : Left g n s t finale) (ht' : Left g' n s' t' finale) : Coupled programs kind t t' := by
  cases finale with
  | suspended => exact .running (h.step ht ht')
  | ended failure? phase kept =>
    obtain ⟨hp, hp', hready, hready'⟩ := h.ready ht ht'
    refine .ended (by rw [hp]; exact hfair.1) (by rw [hp, hp']) hready hready' ?_
    intro result hresult hadvance
    rw [hp] at hresult
    rw [hfair.2 result hresult hadvance, settled_true, settled_true]

theorem Abreast.relates (h : Abreast kind programs programs g g' m m s s') :
    Relates (Coupled programs kind) g g' s s' where
  running ht ht' := .running (h.step ht ht')
  left hfair ht ht' := h.coupled (by rwa [← h.kind_eq]) ht ht'

/-! ## Lockstep -/

theorem Abreast.pull_alike (h : Abreast kind programs programs g g' m m s s') :
    (pull backend).Alike (Coupled programs kind) (pull backend) s s' :=
  h.relates.pull_alike (h.kind_eq'.trans h.kind_eq.symm) h.engaged h.engaged'

/-- A session that does not run needs no patience. -/
theorem budget_of_not_running (h : s.session.phase.working? = none) : budget backend s = 0 := by
  unfold budget
  cases hp : s.session.phase <;> simp_all [Phase.working?]

theorem Coupled.pull_alike (hprograms : ∀ p ∈ programs, p.Deathless)
    (h : Coupled programs kind s s') :
    (pull backend).Alike (Coupled programs kind) (pull backend) s s' := by
  cases h with
  | fresh hk hk' hpayload hp hp' h h' =>
    obtain ⟨t, t', hrun, hrun', -, -, habreast⟩ :=
      abreast_of_ready hprograms hprograms hk hk' hp hp' h h'
    rw [newMachine, newMachine, hk, hk', hpayload] at habreast
    unfold Act.Alike
    rw [hrun, hrun']
    exact habreast.pull_alike
  | running h => exact h.pull_alike
  | ended hdone hp h h' hkept =>
    exact ⟨.ok none, _, _, run_pull_over backend hdone,
      run_pull_over backend (by rw [hp]; exact hdone), .ended hdone hp h h' hkept⟩

theorem Coupled.budget_eq (h : Coupled programs kind s s') :
    budget backend s = budget backend s' := by
  cases h with
  | fresh _ _ _ hp hp' => simp [budget, hp, hp']
  | running h => rw [h.engaged.budget_eq, h.engaged'.budget_eq]
  | ended hdone hp =>
    have hrest := Phase.working?_of_done hdone
    rw [budget_of_not_running hrest, budget_of_not_running (by rw [hp]; exact hrest)]

/-- Whatever is done with coupled sessions, they look the same and stay coupled. -/
theorem coupled_lockstep (hprograms : ∀ p ∈ programs, p.Deathless) :
    Lockstep backend backend (Coupled programs kind) where
  pull h := Coupled.pull_alike hprograms h
  drain h := drain_alike (Coupled.pull_alike hprograms) Coupled.budget_eq h
  close h := by
    cases h with
    | fresh hk hk' hpayload hp hp' h h' =>
      exact ⟨.ok (), _, _, run_close_start backend hp, run_close_start backend hp',
        .ended rfl rfl h h' nofun⟩
    | running h =>
      obtain ⟨t, t', hrun, hrun', -, -, hcoupled⟩ := h.relates.closed h.engaged h.engaged'
      exact ⟨.ok (), t, t', hrun, hrun', hcoupled⟩
    | ended hdone hp h h' hkept =>
      exact ⟨.ok (), _, _, run_close_over backend hdone,
        run_close_over backend (by rw [hp]; exact hdone), .ended hdone hp h h' hkept⟩
  abandon h := by
    cases h with
    | fresh hk hk' hpayload hp hp' h h' =>
      exact ⟨.ok (), _, _, run_abandon backend (by rw [hp]; rfl),
        run_abandon backend (by rw [hp']; rfl), .fresh hk hk' hpayload hp hp' h h'⟩
    | running h =>
      obtain ⟨t, t', -, -, hrun, hrun', hcoupled⟩ := h.relates.closed h.engaged h.engaged'
      exact ⟨.ok (), t, t', hrun, hrun', hcoupled⟩
    | ended hdone hp h h' hkept =>
      have hrest := Phase.working?_of_done hdone
      exact ⟨.ok (), _, _, run_abandon backend hrest, run_abandon backend (by rw [hp]; exact hrest),
        .ended hdone hp h h' hkept⟩
  looks h := by
    cases h with
    | fresh _ _ _ hp hp' => simp [hp, hp']
    | running h => simp [h.engaged.phase, h.engaged'.phase, Phase.state, Phase.result?]
    | ended _ hp => simp [hp]

/-- Coupled advances that are accepted leave the same ledger. -/
theorem Coupled.ready_of_accepted (h : Coupled programs .advance s s')
    (haccepted : s.session.phase.state = .accepted) :
    ∃ sends ledger, s.Ready programs sends ledger ∧ s'.Ready programs sends ledger := by
  cases h with
  | fresh _ _ _ hp => simp [hp, Phase.state] at haccepted
  | running h => simp [h.engaged.phase, Phase.state] at haccepted
  | ended hdone hp h h' hkept =>
    cases hresult : s.session.phase with
    | accepted result =>
      rw [hkept result hresult rfl] at h'
      exact ⟨_, _, h, h'⟩
    | start | running | rejected | fatal | cancelled =>
      simp [hresult, Phase.state] at haccepted

end Seat

/-! ## Engines in two modes -/

namespace EngineOp

section

variable {W : Type} (b : Backend W) (config : EngineConfig)

/-- The room after an advance with a payload, when this was done with its session. -/
def afterAdvance (input : Bytes × List SessionOp) (r : Room W) : Room W :=
  run b config
    (.submit .advance (.bytes input.1) (some false) :: input.2.map (.session r.sessions.length)) r

/-- The rooms after each of a list of advances. -/
def afterAdvances : List (Bytes × List SessionOp) → Room W → List (Room W)
  | [], _ => []
  | input :: inputs, r =>
    afterAdvance b config input r :: afterAdvances inputs (afterAdvance b config input r)

/-- Each of a list of advances is accepted. -/
def Accepting : List (Bytes × List SessionOp) → Room W → Prop
  | [], _ => True
  | input :: inputs, r =>
    ((afterAdvance b config input r).session? r.sessions.length).map (·.phase.state) =
        some .accepted ∧
      Accepting inputs (afterAdvance b config input r)

end

variable {programs : List Program} {sends : Nat} {ledger : Ledger} {config config' : EngineConfig}
  {r r' : Room World}

/-- Inputs that are taken alike become sessions that are coupled. -/
theorem submit_coupled (config config' : EngineConfig) (hr : r.Ready programs sends ledger)
    (hr' : r'.Ready programs sends ledger) (kind : InputKind) (payload : Bytes) :
    Room.Paired (Seat.Coupled programs kind) r.sessions.length r'.sessions.length
      ((submit kind (.bytes payload) (some false)).perform backend config r).2
      ((submit kind (.bytes payload) (some false)).perform backend config' r').2 := by
  rw [perform_opened backend kind payload hr.idle.1 rfl,
    perform_opened backend kind payload hr'.idle.1 rfl]
  exact .held ((Room.session?_append).trans (if_pos rfl))
    ((Room.session?_append).trans (if_pos rfl)) (.fresh rfl rfl rfl rfl rfl hr hr')

/-- An advance is accepted in both modes or in none, and then it leaves the same ledger. -/
theorem afterAdvance_agrees (config config' : EngineConfig)
    (hprograms : ∀ p ∈ programs, p.Deathless) (hr : r.Ready programs sends ledger)
    (hr' : r'.Ready programs sends ledger) (input : Bytes × List SessionOp) :
    let q := afterAdvance backend config input r
    let q' := afterAdvance backend config' input r'
    (q.session? r.sessions.length).map (·.phase.state) =
        (q'.session? r'.sessions.length).map (·.phase.state) ∧
      ((q.session? r.sessions.length).map (·.phase.state) = some .accepted →
        ∃ sends ledger, q.Ready programs sends ledger ∧ q'.Ready programs sends ledger) := by
  intro q q'
  have hlockstep : Seat.Lockstep backend backend (Seat.Coupled programs .advance) :=
    Seat.coupled_lockstep hprograms
  obtain ⟨-, hpaired⟩ := (submit_coupled config config' hr hr' .advance
    input.1).sights_eq_of_lockstep hlockstep config config' input.2
  change Room.Paired _ _ _ q q' at hpaired
  refine ⟨(hpaired.looks_eq hlockstep.looks).1, fun haccepted => ?_⟩
  cases hpaired with
  | gone hs => simp [hs] at haccepted
  | held hs hs' h =>
    rw [hs] at haccepted
    exact h.ready_of_accepted (Option.some.inj haccepted)

/-- A list of advances is accepted in both modes or in none, and then every one of them leaves the
same ledger. -/
theorem afterAdvances_agree (config config' : EngineConfig)
    (hprograms : ∀ p ∈ programs, p.Deathless) (inputs : List (Bytes × List SessionOp))
    (hr : r.Ready programs sends ledger) (hr' : r'.Ready programs sends ledger) :
    (Accepting backend config inputs r ↔ Accepting backend config' inputs r') ∧
      (Accepting backend config inputs r →
        (afterAdvances backend config inputs r).map (·.canonicalLedger) =
          (afterAdvances backend config' inputs r').map (·.canonicalLedger)) := by
  induction inputs generalizing r r' sends ledger with
  | nil => simp [Accepting, afterAdvances]
  | cons input inputs ih =>
    obtain ⟨hstate, hnext⟩ := afterAdvance_agrees config config' hprograms hr hr' input
    simp only [Accepting, afterAdvances, ← hstate, List.map_cons]
    by_cases haccepted : ((afterAdvance backend config input r).session? r.sessions.length).map
        (·.phase.state) = some .accepted
    · obtain ⟨sends', ledger', hq, hq'⟩ := hnext haccepted
      obtain ⟨hiff, hledgers⟩ := ih hq hq'
      refine ⟨by rw [hiff], fun hall => ?_⟩
      rw [hledgers hall.2, hq.canonicalLedger_eq, hq'.canonicalLedger_eq]
    · exact ⟨by simp [haccepted], fun hall => absurd hall.1 haccepted⟩

/-- Two engines whose scripted machines do not die, and which differ in their mode alone, look the
same to whoever holds a session of them; and if their advances are accepted, they leave the same
ledgers. -/
theorem modes_agree (config : EngineConfig) (hprograms : ∀ p ∈ programs, p.Deathless)
    (hr : r.Ready programs sends ledger) (hr' : r'.Ready programs sends ledger) :
    let isolated := { config with isolation := .isolated }
    let direct := { config with isolation := .direct }
    (∀ kind payload ops, sightsOf backend isolated kind payload ops r =
      sightsOf backend direct kind payload ops r') ∧
    ∀ inputs, (Accepting backend isolated inputs r ↔ Accepting backend direct inputs r') ∧
      (Accepting backend isolated inputs r →
        (afterAdvances backend isolated inputs r).map (·.canonicalLedger) =
          (afterAdvances backend direct inputs r').map (·.canonicalLedger)) := by
  intro isolated direct
  refine ⟨fun kind payload ops => ?_, fun inputs => ?_⟩
  · have hpaired := submit_coupled isolated direct hr hr' kind payload
    exact (hpaired.sights_eq_of_lockstep (Seat.coupled_lockstep hprograms) isolated direct ops).1
  · exact afterAdvances_agree isolated direct hprograms inputs hr hr'

/-- Two advances that are interrupted between an output and their acceptance. -/
theorem interrupted_modes_agree :
    let program := Program.script [.append [1], .automatic .output [2],
      .raise (.interrupt "KeyboardInterrupt" ""), .manual .accepted [3]]
    let r : Room World := .opening 0 { world := .ofLedger [[7]] [program] [] }
    let direct : EngineConfig := { isolation := .direct }
    let pulls : List SessionOp := [.pull, .pull, .pull]
    let inputs := [([4], pulls), ([5], pulls)]
    (∀ p ∈ [program], p.Deathless) ∧ r.Ready [program] 0 [[7]] ∧
      sightsOf backend {} .inspect [4] [.pull, .close] r =
        sightsOf backend direct .inspect [4] [.pull, .close] r ∧
      Accepting backend {} inputs r ∧
      (afterAdvances backend direct inputs r).map (·.canonicalLedger) =
        [[[7], [1]], [[7], [1], [1]]] := by
  intro program r direct pulls inputs
  have hprograms : ∀ p ∈ [program], p.Deathless := by
    simp [program, Program.Deathless, Action.automatic, Action.manual]
  have hr : r.Ready [program] 0 [[7]] := ⟨⟨rfl, rfl⟩, ⟨rfl, rfl, rfl⟩, _, rfl, rfl, rfl⟩
  have hagree := modes_agree {} hprograms hr hr
  have haccepting : Accepting backend {} inputs r :=
    ⟨by decide +kernel, by decide +kernel, trivial⟩
  refine ⟨hprograms, hr, hagree.1 _ _ _, haccepting, ?_⟩
  exact ((hagree.2 inputs).2 haccepting).symm.trans (by decide +kernel)

end EngineOp

end RollupEngine
