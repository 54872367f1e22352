import RollupEngine.Proofs.Scripted.Script

/-!
# What a script comes to

A loop over a session that runs on a script pulls it until it is over, or is suspended.
`Machine.play` says what comes of that: it goes through the actions once, reads every break, and
keeps the events on the way. It is the same whether the machine is a fork or the canonical one, and
the host is never out of patience (`Seat.Engaged.drain`).
-/

namespace RollupEngine

namespace Scripted

/-- What a loop over a session comes to that runs on a script: the events, each with the machine as
it is then, how the session is left, and its machine in the end. -/
structure Played where
  steps : List (StreamEvent × Machine)
  finale : Finale
  machine : Machine

namespace Played

/-- What is seen of it. -/
def drain (p : Played) : Drain where
  events := p.steps.map (·.1)
  ending := .ofPull p.finale.outcome

/-- What comes of a script by a turn that leaves the machine as `m`, and by the turns after it. -/
def after (u : Upshot) (m : Machine) (rest : Played) : Played :=
  match u with
  | .delivered event => { rest with steps := (event, m) :: rest.steps }
  | .ignored => rest
  | .last finale => { steps := [], finale, machine := m }

end Played

/-- A machine that has halted has come to its end. -/
theorem upshot_halted (kind : InputKind) (m : Machine) :
    upshot kind (m.reading (.ok haltedBreak)) =
      .last (.ofEnding kind (.violation (.unexpectedBreak haltedBreak))) := by
  have hyield : isYield haltedBreak = false := by decide
  have hreading : m.reading (.ok haltedBreak) =
      .ok (.event (.ending (.violation (.unexpectedBreak haltedBreak)))) := by
    simp only [Machine.reading, Except.bind, readBreak, hyield, Bool.false_eq_true, if_false]
    rfl
  rw [hreading]
  rfl

namespace Machine

/-- Do actions up to the end of an input. -/
def play (kind : InputKind) (m : Machine) : List Action → Played
  | [] =>
    { steps := []
      finale := .ofEnding kind (.violation (.unexpectedBreak haltedBreak))
      machine := { m with actions := [], pending := .absent } }
  | .append entry :: rest => { m with ledger := m.ledger ++ [entry] }.play kind rest
  | .die :: rest => { m with alive := false }.play kind rest
  | .raise e :: rest =>
    let m' := { m with actions := rest }
    .after (upshot kind (.error e)) m' (m'.play kind rest)
  | .breakWith reason pending :: rest =>
    let m' := { m with actions := rest, pending }
    .after (upshot kind (m'.reading (.ok reason))) m' (m'.play kind rest)

/-- What a machine comes to is what its next turn comes to, and the turns after it. -/
theorem play_eq (kind : InputKind) (m : Machine) :
    m.play kind m.actions =
      .after (upshot kind m.hear.1) m.hear.2 (m.hear.2.play kind m.hear.2.actions) := by
  -- The actions that are done are not looked up in the machine.
  suffices h : ∀ actions, m.play kind actions =
      let m' := (m.perform actions).2
      .after (upshot kind (m'.reading (m.perform actions).1)) m' (m'.play kind m'.actions) from
    h m.actions
  intro actions
  induction actions generalizing m with
  | nil =>
    dsimp only [perform]
    rw [upshot_halted]
    rfl
  | cons action rest ih =>
    cases action with
    | append | die => exact ih _
    | raise | breakWith => rfl

/-- A turn that is not the last uses up an action. -/
theorem length_actions_hear (kind : InputKind) {m : Machine}
    (h : ∀ finale, upshot kind m.hear.1 ≠ .last finale) :
    m.hear.2.actions.length < m.actions.length := by
  have hheard : m.hear.1 = m.hear.2.reading (m.perform m.actions).1 := rfl
  cases hreply : (m.perform m.actions).1 with
  | error e =>
    rw [hheard, hreply] at h
    exact absurd rfl (h (if e.ordinary then _ else .suspended e))
  | ok reason =>
    rcases m.perform_cases m.actions (Prod.ext hreply rfl) with rfl | hless
    · rw [hheard, hreply] at h
      exact absurd (upshot_halted kind _) (h _)
    · exact hless

/-- A script comes to a fair end. -/
theorem fair_play (kind : InputKind) (m : Machine) (actions : List Action) :
    (m.play kind actions).finale.Fair kind := by
  have hafter {u : Upshot} {p : Played} (m' : Machine)
      (hu : ∀ finale, u = .last finale → finale.Fair kind) (hp : p.finale.Fair kind) :
      (Played.after u m' p).finale.Fair kind := by
    cases u with
    | delivered | ignored => exact hp
    | last finale => exact hu finale rfl
  induction actions generalizing m with
  | nil => exact Finale.fair_of_upshot (upshot_halted kind m)
  | cons action rest ih =>
    cases action with
    | append | die => exact ih _
    | raise | breakWith => exact hafter _ (fun _ => Finale.fair_of_upshot) (ih _)

end Machine

end Scripted

open Scripted

namespace Seat

variable {g : Backdrop} {m : Machine} {s : Seat World}

/-- A host that is patient enough sees what any such host sees. -/
theorem Engaged.run_turns (h : s.Engaged g m) {n : Nat} (hn : m.actions.length < n) :
    (turns backend (s.session.machine g.eve.canonical g.fork) n).run s =
      (pull backend).run s := by
  induction hl : m.actions.length using Nat.strong_induction_on generalizing m s n with
  | _ l ih =>
    obtain ⟨n, rfl⟩ := Nat.exists_eq_add_one_of_ne_zero (Nat.ne_zero_of_lt hn)
    obtain ⟨t, hrun, ht⟩ := h.turn
    rw [h.run_pull, run_turns_succ n hrun, run_turns_succ _ hrun]
    cases hu : upshot s.session.kind m.hear.1 with
    | delivered | last => rfl
    | ignored =>
      -- Fewer actions are left, and on both sides still fewer than turns.
      have hless := Machine.length_actions_hear s.session.kind (m := m) (by simp [hu])
      rw [hu] at ht
      have hrest {k : Nat} (hk : m.hear.2.actions.length < k) := ih _ (by omega) ht.2 hk rfl
      rw [ht.1] at hrest
      rw [afterTurn, afterTurn, hrest hless]
      exact hrest (by omega)

/-- A pull is a turn, and another pull if the turn is ignored. -/
theorem Engaged.pull_eq (h : s.Engaged g m) :
    ∃ t, (pull backend).run s =
        afterTurn t ((pull backend).run t) (upshot s.session.kind m.hear.1) ∧
      Led g m.hear.2 s t (upshot s.session.kind m.hear.1) := by
  obtain ⟨t, hrun, ht⟩ := h.turn
  refine ⟨t, ?_, ht⟩
  rw [h.run_pull, run_turns_succ _ hrun]
  cases hu : upshot s.session.kind m.hear.1 with
  | delivered | last => rfl
  | ignored =>
    rw [hu] at ht
    have hrest := ht.2.run_turns (Machine.length_actions_hear s.session.kind (by simp [hu]))
    rw [ht.1] at hrest
    rw [afterTurn, afterTurn, hrest]

/-- What a pull comes to: an event, and the rest of the script, or how the session is left. -/
inductive Draws (g : Backdrop) (m : Machine) (s : Seat World) (p : Played) : Prop
  | delivered {t : Seat World} {m' : Machine} {event : StreamEvent}
      (hrun : (pull backend).run s = .ok (some event) t) (hs : t.session = s.session)
      (ht : t.Engaged g m') (hless : m'.actions.length < m.actions.length)
      (hp : p = .after (.delivered event) m' (m'.play s.session.kind m'.actions))
  | last {t : Seat World}
      (hrun : (pull backend).run s = Act.result (p.finale.outcome.map fun _ => none) t)
      (hp : p.steps = []) (ht : Left g p.machine s t p.finale)

theorem Engaged.draws (h : s.Engaged g m) : Draws g m s (m.play s.session.kind m.actions) := by
  induction hl : m.actions.length using Nat.strong_induction_on generalizing m s with
  | _ l ih =>
    obtain ⟨t, hrun, ht⟩ := h.pull_eq
    rw [m.play_eq]
    cases hu : upshot s.session.kind m.hear.1 with
    | delivered event =>
      rw [hu] at hrun ht
      have hless := Machine.length_actions_hear s.session.kind (m := m) (by simp [hu])
      exact .delivered hrun ht.1 ht.2 hless rfl
    | ignored =>
      have hless := Machine.length_actions_hear s.session.kind (m := m) (by simp [hu])
      rw [hu] at hrun ht
      have hdraws := ih _ (by omega) ht.2 rfl
      rw [ht.1] at hdraws
      rw [Played.after]
      cases hdraws with
      | delivered hrun' hs' ht' hless' hp' =>
        exact .delivered (hrun.trans hrun') (hs'.trans ht.1) ht' (by omega) (by rw [hp', ht.1])
      | last hrun' hp' ht' => exact .last (hrun.trans hrun') hp' (.of_eq ht.1 ht')
    | last finale =>
      rw [hu] at hrun ht
      exact .last hrun rfl ht

/-- A loop over a session that may go on for long enough. -/
theorem Engaged.loop (h : s.Engaged g m) {n : Nat} (hn : m.actions.length < n)
    (spent : DrainEnd) :
    let p := m.play s.session.kind m.actions
    ∃ t, (loop backend spent n).run s = .ok p.drain t ∧ Left g p.machine s t p.finale := by
  intro p
  induction n generalizing m s with
  | zero => omega
  | succ n ih =>
    have hdraws : Draws g m s p := h.draws
    cases hdraws with
    | delivered hrun hs ht hless hp =>
      obtain ⟨t', hloop, hleft⟩ := ih ht (by omega)
      rw [hs] at hloop hleft
      rw [hp]
      exact ⟨t', run_loop_of_delivered hrun hloop, .of_eq hs hleft⟩
    | last hrun hp ht =>
      refine ⟨_, ?_, ht⟩
      rw [run_loop_of_last n hrun, Played.drain, hp, List.map_nil]

/-- A loop over a session that runs on a script plays the script. -/
theorem Engaged.drain (h : s.Engaged g m) :
    let p := m.play s.session.kind m.actions
    ∃ t, (drain backend).run s = .ok p.drain t ∧ Left g p.machine s t p.finale := by
  intro p
  have hdraws : Draws g m s p := h.draws
  cases hdraws with
  | delivered hrun hs ht hless hp =>
    obtain ⟨t', hloop, hleft⟩ :=
      ht.loop (Nat.lt_of_lt_of_eq (Nat.lt_succ_self _) ht.budget_eq.symm)
        (.failed { error := .stalled })
    rw [hs] at hloop hleft
    rw [hp]
    exact ⟨t', run_drain_of_delivered hrun hloop, .of_eq hs hleft⟩
  | last hrun hp ht =>
    refine ⟨_, ?_, ht⟩
    rw [run_drain_of_last hrun, Played.drain, hp, List.map_nil]

end Seat

end RollupEngine
