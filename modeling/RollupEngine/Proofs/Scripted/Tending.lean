import RollupEngine.Proofs.Noninterference
import RollupEngine.Proofs.Scripted.Guest
import RollupEngine.Proofs.Session.Word

/-!
# Tending the machines of the ledger guest

`Tended` is what an isolated controller keeps of a tame world: the canonical machine holds the
committed ledger, the fork of an open transaction is another machine, and no other machine is alive.
`Session.Plays` is what a session knows of the machine it runs on: it is somewhere in what the guest
does with the input, and holds the committed ledger and what was appended so far.

Both are kept by every move of a session (`Session.Moves.tended`), where the committed ledger grows
by the payload of the session when an advance comes to be accepted (`Session.adds`), and so by every
operation on an engine (`EngineOp.Does.committed`).
-/

namespace RollupEngine.Scripted

/-! ## The controller and the machines -/

/-- The controller `c` tends the machines of the world `w`, and the committed ledger is `ledger`. -/
structure Tended (ledger : Ledger) (c : Controller) (w : World) : Prop where
  tame : w.Tame
  canonical : ∃ m, w.machines[c.canonical]? = some m ∧ m.ledger = ledger ∧ m.alive = !c.closed
  scratch : ∀ v k, c.transaction = some (.isolated v k) →
    v ≠ c.canonical ∧ ∃ m, w.machines[v]? = some m ∧ m.alive = true
  alive : ∀ h m, w.machines[h]? = some m → m.alive = true →
    h = c.canonical ∨ ∃ k, c.transaction = some (.isolated h k)
  counted : c.created = c.released + c.inTransaction.toNat

namespace Tended

variable {ledger : Ledger} {c c' : Controller} {w w' : World} {xs : List Exchange}
  {ns : List Notice} {v : Handle} {m m' : Machine}

/-- An isolated transaction that is opened works on a machine with the committed ledger. -/
theorem begins {o : Except Failure Handle} (ht : Tended ledger c w)
    (h : c.Begins .isolated xs ns o c') (hx : backend.Replays w xs w') :
    (∃ f, o = .error f ∧ c' = c ∧ w' = w) ∨
      ∃ v, o = .ok v ∧ Tended ledger c' w' ∧ v ≠ c'.canonical ∧
        w'.machines[v]? = some { ledger } := by
  obtain ⟨m, hm, rfl, ha⟩ := ht.canonical
  have hfork (hc : c.Idle) : backend.fork c.canonical w = _ :=
    fork_of_alive ht.tame.faults hm (by rw [ha, hc.1]; rfl)
  have hlt : c.canonical < w.machines.length := (List.getElem?_eq_some_iff.1 hm).1
  cases h with
  | closed | busy =>
    cases hx
    exact .inl ⟨_, rfl, rfl, rfl⟩
  | direct _ hd => cases hd
  | failed hc | interrupted hc =>
    obtain ⟨_, he, -⟩ := hx.head
    cases (hfork hc).symm.trans he
  | isolated hc _ v =>
    obtain ⟨_, hreply, hnil⟩ := hx.head
    cases hnil
    obtain ⟨hv, hw'⟩ := Prod.mk.inj ((hfork hc).symm.trans hreply)
    obtain rfl : w.machines.length = v := Except.ok.inj hv
    subst hw'
    refine .inr ⟨_, rfl, ⟨⟨ht.tame.faults, ht.tame.programs⟩, ?_, ?_, ?_, ?_⟩,
      Nat.ne_of_gt hlt, ?_⟩
    · exact ⟨m, (List.getElem?_append_left hlt).trans hm, rfl, ha⟩
    · rintro v k ⟨⟩
      exact ⟨Nat.ne_of_gt hlt, _, List.getElem?_concat_length, rfl⟩
    · intro h m' hm' ha'
      rcases Nat.lt_or_ge h w.machines.length with hh | hh
      · refine (ht.alive h m' ?_ ha').imp_right ?_
        · exact (List.getElem?_append_left hh).symm.trans hm'
        · rw [hc.2]
          nofun
      · have hle : h < (w.machines ++ [({ ledger := m.ledger } : Machine)]).length :=
          (List.getElem?_eq_some_iff.1 hm').1
        rw [List.length_append, List.length_singleton] at hle
        obtain rfl : h = w.machines.length := Nat.le_antisymm (Nat.le_of_lt_succ hle) hh
        exact .inr ⟨_, rfl⟩
    · have hcounted := ht.counted
      rw [Controller.inTransaction, hc.2] at hcounted
      exact congrArg (· + 1) hcounted
    · exact List.getElem?_concat_length

/-- A machine other than the canonical one may change, as long as it does not come alive. -/
theorem set (ht : Tended ledger c w) (hv : v ≠ c.canonical) (hm : w.machines[v]? = some m)
    (ha : m'.alive = m.alive) (hw' : w'.Tame) (hset : w'.machines = w.machines.set v m') :
    Tended ledger c w' := by
  have hget (h : Handle) : w'.machines[h]? = if v = h then some m' else w.machines[h]? := by
    rw [hset, List.getElem?_set]
    split
    · next hh =>
      subst hh
      rw [if_pos (List.getElem?_eq_some_iff.1 hm).1]
    · rfl
  refine ⟨hw', ?_, fun u k hu => ?_, fun h n hn hna => ?_, ht.counted⟩
  · rw [hget, if_neg hv]
    exact ht.canonical
  · obtain ⟨hne, n, hn, hna⟩ := ht.scratch u k hu
    refine ⟨hne, ?_⟩
    rw [hget]
    split
    · next hvu =>
      subst hvu
      cases hm.symm.trans hn
      exact ⟨m', rfl, ha.trans hna⟩
    · exact ⟨n, hn, hna⟩
  · rw [hget] at hn
    split at hn
    · next hvh =>
      subst hvh
      cases hn
      exact ht.alive v m hm (ha.symm.trans hna)
    · exact ht.alive h n hn hna

/-- Of two machines that are alive, the machine `d` is shut down and the machine `q` is left. -/
theorem of_shutdown {q d : Handle} {n : Machine} (hw' : w'.Tame)
    (hq : w.machines[q]? = some m) (hqa : m.alive = true) (hd : w.machines[d]? = some n)
    (hne : q ≠ d) (hboth : ∀ h k, w.machines[h]? = some k → k.alive = true → h = q ∨ h = d)
    (hset : w'.machines = w.machines.set d { n with alive := false })
    (hcanonical : c'.canonical = q) (hopen : c'.closed = false) (hidle : c'.transaction = none)
    (hcounted : c'.created = c'.released) : Tended m.ledger c' w' where
  tame := hw'
  canonical := by
    rw [hcanonical, hset, List.getElem?_set_ne hne.symm, hopen]
    exact ⟨m, hq, rfl, hqa⟩
  scratch := by
    rw [hidle]
    nofun
  alive h k hk hka := by
    rw [hset] at hk
    by_cases hh : d = h
    · subst hh
      rw [List.getElem?_set_self (List.getElem?_eq_some_iff.1 hd).1] at hk
      cases hk
      cases hka
    · rw [List.getElem?_set_ne hh] at hk
      rw [hcanonical]
      exact .inl ((hboth h k hk hka).resolve_right (Ne.symm hh))
  counted := by
    rw [Controller.inTransaction, hidle]
    exact hcounted

/-- An isolated transaction is closed without a failure. If it is kept, the ledger of its fork is
the committed one. -/
theorem settles {keeps : Bool} {o : Except Failure Unit} (ht : Tended ledger c w)
    (hc : c.transaction = some (.isolated v c.canonical)) (hopen : c.closed = false)
    (hm : w.machines[v]? = some m) (h : c.Settles keeps xs ns o c')
    (hx : backend.Replays w xs w') :
    o = .ok () ∧ Tended (if keeps then m.ledger else ledger) c' w' := by
  obtain ⟨k, hk, rfl, hka⟩ := ht.canonical
  obtain ⟨hv, m', hm', hma⟩ := ht.scratch v _ hc
  cases hm.symm.trans hm'
  rw [hopen] at hka
  have hcounted := ht.counted
  rw [Controller.inTransaction, hc] at hcounted
  have hboth (h : Handle) (n : Machine) (hn : w.machines[h]? = some n) (hna : n.alive = true) :
      h = c.canonical ∨ h = v := by
    refine (ht.alive h n hn hna).imp_right ?_
    rintro ⟨_, ht'⟩
    cases hc.symm.trans ht'
    rfl
  cases h with
  | absent hn => cases hc.symm.trans hn
  | direct hd => cases hc.symm.trans hd
  | promoted hw hkeeps reply =>
    cases hc.symm.trans hw
    obtain ⟨_, hreply, hnil⟩ := hx.head
    cases hnil
    obtain ⟨rfl, hw'⟩ := Prod.mk.inj ((shutdown_of_alive ht.tame.faults hk hka).symm.trans hreply)
    subst hw' hkeeps
    exact ⟨rfl, of_shutdown ⟨ht.tame.faults, ht.tame.programs⟩ hm hma hk hv
      (fun h n hn hna => (hboth h n hn hna).symm) rfl rfl hopen rfl hcounted⟩
  | discarded hw hkeeps reply =>
    cases hc.symm.trans hw
    obtain ⟨_, hreply, hnil⟩ := hx.head
    cases hnil
    obtain ⟨rfl, hw'⟩ := Prod.mk.inj ((shutdown_of_alive ht.tame.faults hm hma).symm.trans hreply)
    subst hw' hkeeps
    exact ⟨rfl, of_shutdown ⟨ht.tame.faults, ht.tame.programs⟩ hk hka hm hv.symm hboth rfl rfl
      hopen rfl hcounted⟩

theorem stores {path : String} {o : Except Failure Unit} (ht : Tended ledger c w)
    (h : c.Stores path xs ns o) (hx : backend.Replays w xs w') : Tended ledger c w' := by
  obtain ⟨m, hm, -, ha⟩ := ht.canonical
  have hstore (hc : c.Idle) : backend.store c.canonical path w = _ :=
    store_of_alive ht.tame.faults hm (by rw [ha, hc.1]; rfl) path
  cases h with
  | closed | busy =>
    cases hx
    exact ht
  | failed hc =>
    obtain ⟨_, he, -⟩ := hx.head
    cases (hstore hc).symm.trans he
  | stored hc =>
    obtain ⟨_, hreply, hnil⟩ := hx.head
    cases hnil
    obtain ⟨-, rfl⟩ := Prod.mk.inj ((hstore hc).symm.trans hreply)
    exact ⟨⟨ht.tame.faults, ht.tame.programs⟩, ht.canonical, ht.scratch, ht.alive, ht.counted⟩

/-- No machine is left alive. -/
theorem shutsDown {o : Except Failure Unit} (ht : Tended ledger c w) (h : c.ShutsDown xs ns o c')
    (hx : backend.Replays w xs w') : Tended ledger c' w' := by
  obtain ⟨m, hm, hledger, ha⟩ := ht.canonical
  have hshutdown (hc : c.Idle) : backend.shutdown c.canonical w = _ :=
    shutdown_of_alive ht.tame.faults hm (by rw [ha, hc.1]; rfl)
  cases h with
  | closed | busy =>
    cases hx
    exact ht
  | failed hc =>
    obtain ⟨_, he, -⟩ := hx.head
    cases (hshutdown hc).symm.trans he
  | released hc =>
    obtain ⟨_, hreply, hnil⟩ := hx.head
    cases hnil
    obtain ⟨-, rfl⟩ := Prod.mk.inj ((hshutdown hc).symm.trans hreply)
    obtain ⟨hlt, -⟩ := List.getElem?_eq_some_iff.1 hm
    refine ⟨⟨ht.tame.faults, ht.tame.programs⟩, ⟨_, List.getElem?_set_self hlt, hledger, rfl⟩,
      fun v k hv => ?_, fun h k hk hka => ?_, ht.counted⟩
    · cases hc.2.symm.trans hv
    change (w.machines.set c.canonical _)[h]? = some k at hk
    by_cases hh : c.canonical = h
    · subst hh
      rw [List.getElem?_set_self hlt] at hk
      cases hk
      cases hka
    · rw [List.getElem?_set_ne hh] at hk
      exact ht.alive h k hk hka

end Tended

/-! ## Sessions -/

variable {ledger : Ledger} {c c' : Controller} {w w' : World} {xs own : List Exchange}
  {ns : List Notice} {fs : List Failure} {v : Handle} {m m' : Machine} {s : Session} {p : Phase}

/-- To hear a machine on which a guest runs uses up some of its actions. -/
theorem Tended.hears {o : Except Failure Reading} (ht : Tended ledger c w)
    (hm : w.machines[v]? = some m) (ha : m.alive = true) (hplain : ∀ a ∈ m.actions, a.Plain)
    (h : Hears v xs o) (hx : backend.Replays w xs w') :
    ∃ r reason m' used, o = .ok r ∧ m.Runs reason m' used ∧ w'.Tame ∧
      w'.machines = w.machines.set v m' := by
  obtain ⟨reason, m', used, hruns⟩ := Machine.runs_of_plain hplain
  have hrun : backend.run v w = (.ok reason, (w.count .run).setMachine v m') :=
    ht.tame.replies_run hm ha hruns
  have hw₁ : ((w.count .run).setMachine v m').Tame := ⟨ht.tame.faults, ht.tame.programs⟩
  have hm₁ : ((w.count .run).setMachine v m').machines[v]? = some m' :=
    List.getElem?_set_self (List.getElem?_eq_some_iff.1 hm).1
  have hreceive (hyield : isYield reason = true) :
      ∃ r, backend.receive v ((w.count .run).setMachine v m') =
        (.ok (some r), ((w.count .run).setMachine v m').count .receive) := by
    obtain ⟨r, hr⟩ := hruns.pending hyield
    exact ⟨r, by rw [receive_of_alive hw₁.faults hm₁ (hruns.alive.trans ha), Machine.answer, hr]⟩
  cases h with
  | stopped e =>
    obtain ⟨_, he, -⟩ := hx.head
    cases hrun.symm.trans he
  | broke reason' hno =>
    obtain ⟨_, hreply, hnil⟩ := hx.head
    cases hnil
    cases hrun.symm.trans hreply
    exact ⟨_, _, m', used, rfl, hruns, hw₁, rfl⟩
  | silent reason' hyield e =>
    obtain ⟨_, hreply, hx⟩ := hx.head
    cases hrun.symm.trans hreply
    obtain ⟨_, he, -⟩ := hx.head
    obtain ⟨r, hr⟩ := hreceive hyield
    cases hr.symm.trans he
  | yielded reason' hyield request =>
    obtain ⟨_, hreply, hx⟩ := hx.head
    cases hrun.symm.trans hreply
    obtain ⟨_, hreply, hnil⟩ := hx.head
    cases hnil
    obtain ⟨r, hr⟩ := hreceive hyield
    cases hr.symm.trans hreply
    exact ⟨_, _, m', used, rfl, hruns, ⟨hw₁.faults, hw₁.programs⟩, rfl⟩

/-- A machine is somewhere in what the guest does with the input of a session: it has done `used`,
and holds the committed ledger with what it appended. -/
structure Machine.Plays (ledger : Ledger) (s : Session) (used : List Action) (m : Machine) :
    Prop where
  actions : ledgerGuest ledger s.kind.reason s.payload = used ++ m.actions
  ledger : m.ledger = ledger ++ entries used

namespace Machine.Plays

variable {used : List Action}

theorem plain (h : m.Plays ledger s used) : ∀ a ∈ m.actions, a.Plain := fun a ha =>
  plain_ledgerGuest ledger s.kind.reason s.payload a <| by
    rw [h.actions]
    exact List.mem_append_right _ ha

theorem run {reason : Int} {used' : List Action} (h : m.Plays ledger s used)
    (hruns : m.Runs reason m' used') : m'.Plays ledger s (used ++ used') where
  actions := by rw [h.actions, hruns.actions, List.append_assoc]
  ledger := by rw [hruns.ledger, h.ledger, entries_append, List.append_assoc]

/-- Once a machine has run, it has appended the payload of its advance. -/
theorem appends {reason : Int} {used' : List Action} (h : m.Plays ledger s used)
    (hruns : m.Runs reason m' used') (hs : s.kind = .advance) :
    m'.ledger = ledger ++ [s.payload] := by
  have hplays := h.run hruns
  have hactions := hplays.actions
  rw [hs] at hactions
  rw [hplays.ledger, entries_of_advance hactions]
  intro hnone
  obtain ⟨rfl, hused'⟩ := List.append_eq_nil_iff.1 hnone
  -- a guest that has done nothing has something to do
  have hempty : m.actions = [] := Classical.byContradiction fun hne => hruns.nonempty hne hused'
  have hguest := h.actions
  obtain ⟨last, e, hadvance, -⟩ := ledgerAdvance_ends ledger s.payload
  rw [hs, hempty] at hguest
  cases hadvance.symm.trans hguest

end Machine.Plays

end Scripted

open Scripted

namespace Session

variable {ledger : Ledger} {c c' : Controller} {w w' : World} {xs : List Exchange}
  {ns : List Notice} {fs : List Failure} {s : Session} {p : Phase}

/-- The machine that a session runs on plays its input. -/
def Plays (ledger : Ledger) (w : World) (s : Session) : Prop :=
  ∀ v, s.phase = .running v → ∃ m used, w.machines[v]? = some m ∧ m.Plays ledger s used

/-- What the committed ledger grows by when a session comes to a phase. -/
def adds (s : Session) (p : Phase) : Ledger :=
  if s.kind = .advance ∧ s.phase.done = false ∧ p.state = .accepted then [s.payload] else []

theorem plays_of_not_running (h : s.phase.working? = none) : s.Plays ledger w := by
  intro v hv
  rw [hv] at h
  cases h

theorem adds_of_ne_accepted (h : p.state ≠ .accepted) : s.adds p = [] :=
  if_neg fun hadds => h hadds.2.2

theorem adds_of_done (h : s.phase.done = true) : s.adds p = [] :=
  if_neg fun hadds => Bool.noConfusion (h.symm.trans hadds.2.1)

theorem accepts_of_adds (h : s.adds p ≠ []) : ∃ result, s.Accepts p result := by
  obtain ⟨hkind, hdone, hstate⟩ := Classical.byContradiction fun hno => h (if_neg hno)
  cases p with
  | accepted result => exact ⟨result, hkind, hdone, rfl⟩
  | start | running | rejected | fatal | cancelled => cases hstate

/-- A session adds nothing by staying as it is. -/
theorem adds_self (s : Session) : s.adds s.phase = [] := by
  cases h : s.phase with
  | start | running | rejected | fatal | cancelled => exact adds_of_ne_accepted nofun
  | accepted => exact adds_of_done (by rw [h]; rfl)

/-- What a session that runs adds by its ending is what the ending keeps. -/
theorem adds_of_ending {v : Handle} (h : s.phase = .running v) (ending : Ending) :
    s.adds ending.phase = if ending.keeps s.kind then [s.payload] else [] := by
  unfold adds
  rw [h]
  cases ending <;> cases s.kind <;> rfl

/-- Unless the session comes to be accepted, the committed ledger stays as it is. -/
theorem tended_of_ne_accepted (hp : p.state ≠ .accepted) (ht : Tended ledger c w)
    (hs : (s.inPhase p).Plays ledger w) :
    Tended (ledger ++ s.adds p) c w ∧ (s.inPhase p).Plays (ledger ++ s.adds p) w := by
  rw [adds_of_ne_accepted hp, List.append_nil]
  exact ⟨ht, hs⟩

theorem Starts.tended {o : Except Failure Handle} (h : s.Starts c xs ns o c' p)
    (hx : backend.Replays w xs w') (hm : s.isolation = .isolated) (ht : Tended ledger c w) :
    Tended ledger c' w' ∧ (s.inPhase p).Plays ledger w' ∧ p.state ≠ .accepted := by
  -- the machine that was forked takes the input
  have send {v : Handle} {c' : Controller} {w₁ : World} {reply : Except Error Unit}
      {ys : List Exchange} (ht : Tended ledger c' w₁) (hv : v ≠ c'.canonical)
      (hm : w₁.machines[v]? = some { ledger })
      (hx : backend.Replays w₁ (.send v s.kind.reason s.payload reply :: ys) w') :
      reply = .ok () ∧
        (ys = [] → Tended ledger c' w' ∧ (s.inPhase (.running v)).Plays ledger w') := by
    obtain ⟨w₂, hreply, hys⟩ := hx.head
    obtain ⟨rfl, rfl⟩ := Prod.mk.inj ((ht.tame.send hm rfl _ _).symm.trans hreply)
    refine ⟨rfl, ?_⟩
    rintro rfl
    cases hys
    obtain ⟨hlt, -⟩ := List.getElem?_eq_some_iff.1 hm
    refine ⟨ht.set hv hm ?_ ⟨ht.tame.faults, ht.tame.programs⟩ rfl, ?_⟩
    · rfl
    · rintro u ⟨⟩
      exact ⟨_, [], List.getElem?_set_self hlt, rfl, (List.append_nil _).symm⟩
  cases h with
  | refused h =>
    rw [hm] at h
    obtain ⟨f, -, rfl, rfl⟩ | ⟨v, ho, -⟩ := ht.begins h hx
    · exact ⟨ht, plays_of_not_running rfl, by decide⟩
    · cases ho
  | sent h | interrupted h | failed h =>
    rw [hm] at h
    obtain ⟨w₁, hbegin, hsend⟩ := hx.split
    obtain ⟨f, ho, -⟩ | ⟨v, ho, ht₁, hv, hmachine⟩ := ht.begins h hbegin
    · cases ho
    · cases ho
      obtain ⟨hreply, hsent⟩ := send ht₁ hv hmachine hsend
      cases hreply <;> exact ⟨(hsent rfl).1, (hsent rfl).2, nofun⟩

theorem Turns.tended {v : Handle} {o : Except Failure Seat.Turn}
    (h : Turns s.kind v c xs ns o c' p) (hp : s.phase = .running v)
    (hx : backend.Replays w xs w') (hc : c.transaction = some (.isolated v c.canonical))
    (hopen : c.closed = false) (ht : Tended ledger c w) (hs : s.Plays ledger w) :
    Tended (ledger ++ s.adds p) c' w' ∧ (s.inPhase p).Plays (ledger ++ s.adds p) w' := by
  obtain ⟨m, used, hm, hplays⟩ := hs v hp
  obtain ⟨hv, m', hm', ha⟩ := ht.scratch v _ hc
  cases hm.symm.trans hm'
  have hears {xs : List Exchange} {o : Except Failure Reading} {w₁ : World} (h : Hears v xs o)
      (hx : backend.Replays w xs w₁) :
      ∃ r reason m' used', o = .ok r ∧ m.Runs reason m' used' ∧ Tended ledger c w₁ ∧
        w₁.machines[v]? = some m' := by
    obtain ⟨r, reason, m', used', ho, hruns, hw₁, hset⟩ := ht.hears hm ha hplays.plain h hx
    refine ⟨r, reason, m', used', ho, hruns, ht.set hv hm hruns.alive hw₁ hset, ?_⟩
    rw [hset]
    exact List.getElem?_set_self (List.getElem?_eq_some_iff.1 hm).1
  cases h with
  | interrupted h =>
    obtain ⟨_, _, _, _, ho, -⟩ := hears h hx
    cases ho
  | failed h =>
    obtain ⟨w₁, hhear, -⟩ := hx.split
    obtain ⟨_, _, _, _, ho, -⟩ := hears h hhear
    cases ho
  | heard h hj =>
    obtain ⟨w₁, hhear, hrest⟩ := hx.split
    obtain ⟨r, reason, m', used', -, hruns, ht₁, hm₁⟩ := hears h hhear
    have goes_on (hrest : backend.Replays w₁ [] w') :
        Tended (ledger ++ s.adds (.running v)) c w' ∧
          (s.inPhase (.running v)).Plays (ledger ++ s.adds (.running v)) w' := by
      cases hrest
      refine tended_of_ne_accepted nofun ht₁ ?_
      rintro u ⟨⟩
      obtain ⟨hactions, hledger⟩ := hplays.run hruns
      exact ⟨m', used ++ used', hm₁, hactions, hledger⟩
    cases hj with
    | delivered | passed | refused => exact goes_on hrest
    | @ended _ _ ending _ _ _ he =>
      obtain ⟨_, _, hsettles⟩ := he.settles
      obtain ⟨-, ht'⟩ := ht₁.settles hc hopen hm₁ hsettles hrest
      refine ⟨?_, plays_of_not_running (Phase.working?_of_done ending.done_phase)⟩
      rw [adds_of_ending hp]
      cases hkeeps : ending.keeps s.kind with
      | false =>
        rw [hkeeps] at ht'
        simpa using ht'
      | true =>
        rw [hkeeps, if_pos rfl] at ht'
        rw [if_pos rfl, ← hplays.appends hruns (Ending.of_keeps hkeeps).1]
        exact ht'

/-- Every move of a session on machines of the ledger guest leaves them tended. The committed
ledger grows by the payload of an advance that comes to be accepted. -/
theorem Moves.tended (h : s.Moves c xs ns fs c' p) (hx : backend.Replays w xs w')
    (hm : s.isolation = .isolated)
    (hc : ∀ v, s.phase = .running v →
      c.transaction = some (.isolated v c.canonical) ∧ c.closed = false)
    (ht : Tended ledger c w) (hs : s.Plays ledger w) :
    Tended (ledger ++ s.adds p) c' w' ∧ (s.inPhase p).Plays (ledger ++ s.adds p) w' := by
  have closes {ns : List Notice} {o : Except Failure Unit} (h : s.Closes c xs ns o c' p) :
      Tended (ledger ++ s.adds p) c' w' ∧ (s.inPhase p).Plays (ledger ++ s.adds p) w' := by
    cases h with
    | fresh =>
      cases hx
      exact tended_of_ne_accepted (by decide) ht (plays_of_not_running rfl)
    | done hdone =>
      cases hx
      rw [adds_of_done hdone, List.append_nil]
      exact ⟨ht, hs⟩
    | running hp hset =>
      obtain ⟨m, used, hv, -⟩ := hs _ hp
      obtain ⟨-, ht'⟩ := ht.settles (hc _ hp).1 (hc _ hp).2 hv hset hx
      exact tended_of_ne_accepted (by decide) ht' (plays_of_not_running rfl)
  cases h with
  | close h | abandon h => exact closes h
  | start _ h =>
    obtain ⟨ht', hs', hp⟩ := h.tended hx hm ht
    exact tended_of_ne_accepted hp ht' hs'
  | turn hp h => exact h.tended hp hx (hc _ hp).1 (hc _ hp).2 ht hs

/-- What is added on the way to a phase is added up to any phase in between, and from there on. -/
theorem adds_append {q : Phase} (h : s.phase.done = true → p = s.phase)
    (h' : p.done = true → q = p) : s.adds p ++ (s.inPhase p).adds q = s.adds q := by
  cases hp : p.done with
  | true =>
    rw [adds_of_done (s := s.inPhase p) hp, List.append_nil, h' hp]
  | false =>
    have hs : s.phase.done = false := Bool.eq_false_iff.2 fun hdone => by
      rw [h hdone, hdone] at hp
      cases hp
    have hne : p.state ≠ .accepted := by
      intro hstate
      cases p <;> cases hstate
      cases hp
    rw [adds_of_ne_accepted hne, List.nil_append]
    simp only [adds, inPhase, hp, hs]

end Session

/-! ## Paths -/

namespace Seat

variable {ledger : Ledger} {s s' : Seat World} {xs own : List Exchange} {ns : List Notice}
  {fs : List Failure} {foreign : Option Transaction}

/-- The transaction of a session that runs is open, and so is the controller. -/
theorem Linked.open_of_running {v : Handle} (h : s.Linked foreign own)
    (hp : s.session.phase = .running v) : s.controller.closed = false := by
  obtain ⟨-, t, ht, -⟩ := h.of_running hp
  refine Bool.eq_false_iff.2 fun hclosed => ?_
  rw [h.fits.closed hclosed] at ht
  cases ht

theorem Path.tended (h : Path backend s xs ns fs s') (hs : s.Linked foreign own)
    (hm : s.session.isolation = .isolated) (ht : Tended ledger s.controller s.world)
    (hplays : s.session.Plays ledger s.world) :
    Tended (ledger ++ s.session.adds s'.session.phase) s'.controller s'.world ∧
      s'.session.Plays (ledger ++ s.session.adds s'.session.phase) s'.world := by
  induction h generalizing own ledger with
  | refl s =>
    rw [s.session.adds_self, List.append_nil]
    exact ⟨ht, hplays⟩
  | @step s t s'' _ _ _ _ _ _ head tail ih =>
    have hrunning (v : Handle) (hv : s.session.phase = .running v) :
        s.controller.transaction = some (.isolated v s.controller.canonical) ∧
          s.controller.closed = false :=
      ⟨hs.isolated hm hv, hs.open_of_running hv⟩
    obtain ⟨ht₁, hplays₁⟩ := head.moves.tended head.follows.world hm hrunning ht hplays
    rw [← head.session] at hplays₁
    have hrest := ih (head.linked hs) (head.isolation.trans hm) ht₁ hplays₁
    have hadds : s.session.adds t.session.phase ++ t.session.adds s''.session.phase =
        s.session.adds s''.session.phase := by
      rw [head.session]
      exact Session.adds_append (fun hd => (head.moves.of_done hd).2.2.2.2)
        fun hd => (tail.of_done hd).2.2.2.2
    rwa [List.append_assoc, hadds] at hrest

end Seat

/-! ## Rooms -/

/-- The machines of a room are tended, those on which its sessions run play their inputs, and
`ledger` is committed. -/
structure Room.Committed (ledger : Ledger) (r : Room World) : Prop where
  tended : Tended ledger r.controller r.world
  plays : ∀ n s, r.session? n = some s → s.Plays ledger r.world

namespace Room

variable {ledger : Ledger} {r r' : Room World} {n : Nat} {s : Session}

/-- A new engine on a machine with this ledger has committed it. -/
theorem opening_committed (ledger : Ledger) :
    (opening 0 { world := .ofLedger ledger [] [] }).Committed ledger where
  tended :=
    { tame := ⟨rfl, rfl⟩
      canonical := ⟨_, rfl, rfl, rfl⟩
      scratch := nofun
      alive := by
        rintro (_ | h) m hm -
        · exact .inl rfl
        · cases hm
      counted := rfl }
  plays n s hs := by cases hs

theorem plays_of_not_runs (hn : ¬r.Runs n) (hs : r.session? n = some s) (ledger : Ledger)
    (w : World) : s.Plays ledger w := by
  intro v hv
  exact absurd ⟨s, hs, by rw [hv]; rfl⟩ hn

/-- What others do beside a session that runs makes no session run. -/
theorem Rearranges.of_running {ss : List (Option Session)} {m : Nat} {v : Handle}
    (h : r.Rearranges n ss) (hs : ({ r with sessions := ss } : Room World).session? m = some s)
    (hv : s.phase = .running v) : r.session? m = some s := by
  have hrunning {q : Phase} (hq : s.phase = q) (hw : q.working? = none) : False := by
    rw [← hq, hv] at hw
    cases hw
  cases h with
  | kept => exact hs
  | made session hstart =>
    rw [session?_append] at hs
    split at hs
    · cases hs
      exact (hrunning hstart rfl).elim
    · exact hs
  | cancelled k session _ hk =>
    rw [session?_set hk] at hs
    split at hs
    · cases hs
      exact (hrunning rfl rfl).elim
    · exact hs
  | letGo k session _ hk =>
    rw [session?_set hk] at hs
    split at hs
    · cases hs
    · exact hs

end Room

namespace EngineOp

variable {ledger : Ledger} {config : EngineConfig} {op : EngineOp} {r r' : Room World}
  {xs own : List Exchange} {ns : List Notice} {fs : List Failure} {n : Nat}

/-- What an operation adds to the committed ledger: the payload of an advance that it brings to be
accepted. -/
def adds {W : Type} (b : Backend W) (config : EngineConfig) (op : EngineOp) (r : Room W) : Ledger :=
  match op.acting? b config r with
  | some (s, t) => s.adds t.phase
  | none => []

theorem adds_of_acting {s t : Session} (h : op.acting? backend config r = some (s, t)) :
    op.adds backend config r = s.adds t.phase := by
  rw [adds, h]

theorem adds_of_acting_none (h : op.acting? backend config r = none) :
    op.adds backend config r = [] := by
  rw [adds, h]

/-- An operation that stands by leaves the room committed. -/
theorem Bystands.committed (h : op.Bystands backend config n r)
    (hdoes : Does backend config r op xs ns fs (op.perform backend config r).2)
    (hm : config.isolation = .isolated) (hlinked : r.Linked config.isolation own)
    (hr : r.Committed ledger) :
    (op.perform backend config r).2.Committed (ledger ++ op.adds backend config r) := by
  have hxs : xs = [] := by
    have hcalls := hdoes.follows.calls
    rw [h.desk] at hcalls
    exact List.self_eq_append_right.1 hcalls
  -- to accept an advance would take a call
  have hadds : op.adds backend config r = [] := by
    refine Classical.byContradiction fun hadds => ?_
    cases hact : op.acting? backend config r with
    | none => exact hadds (adds_of_acting_none hact)
    | some st =>
      rw [adds_of_acting hact] at hadds
      obtain ⟨result, ha⟩ := Session.accepts_of_adds hadds
      obtain ⟨_, _, _, _, _, pre, -, -, hcalls, -⟩ :=
        hdoes.promoted hlinked hm ⟨_, _, hact, ha⟩
      rw [hxs] at hcalls
      simp at hcalls
  rw [hadds, List.append_nil]
  refine ⟨by rw [h.desk]; exact hr.tended, fun m s hs v hv => ?_⟩
  have hs' := h.sessions.of_running (m := m) (s := s) hs hv
  rw [h.desk]
  exact hr.plays m s hs' v hv

/-- Every operation on an isolated engine leaves its room committed. -/
theorem Does.committed (h : Does backend config r op xs ns fs (op.perform backend config r).2)
    (hm : config.isolation = .isolated) (hlinked : r.Linked config.isolation own)
    (hr : r.Committed ledger) :
    (op.perform backend config r).2.Committed (ledger ++ op.adds backend config r) := by
  by_cases hother : ∃ n, r.Runs n ∧ op.isOn n = false
  · obtain ⟨n, hn, hop⟩ := hother
    exact (bystands hlinked hn hop).committed h hm hlinked hr
  -- unless the operation is on it, no session runs
  have hquiet {n : Nat} (hop : op.isOn n = false) : ¬r.Runs n := fun hn => hother ⟨n, hn, hop⟩
  have still (hnone : op.acting? backend config r = none) :
      ledger ++ op.adds backend config r = ledger := by
    rw [adds_of_acting_none hnone, List.append_nil]
  generalize (op.perform backend config r).2 = r' at h
  cases h with
  | @closed kind input _ hc =>
    rw [still (by cases input <;> simp [acting?, hc])]
    exact hr
  | notBytes =>
    rw [still rfl]
    exact hr
  | absent hs =>
    rw [still (by simp [acting?, hs])]
    exact hr
  | opened _ hc =>
    rw [still (by simp [acting?, hc])]
    refine ⟨hr.tended, fun n s hs => ?_⟩
    rw [Room.session?_append] at hs
    split at hs
    · cases hs
      exact Session.plays_of_not_running rfl
    · exact hr.plays n s hs
  | collected _ _ hact path =>
    rw [adds_of_acting hact]
    obtain ⟨ht, -⟩ := path.tended (hlinked.fresh rfl rfl) hm hr.tended
      (Session.plays_of_not_running rfl)
    exact ⟨ht, fun n s hs => Room.plays_of_not_runs (hquiet rfl) hs _ _⟩
  | @walked n sop session _ _ _ s hn hact path =>
    rw [adds_of_acting hact]
    obtain ⟨ht, hplays⟩ := path.tended (hlinked.seat hn) ((hlinked.isolation n session hn).trans hm)
      hr.tended (hr.plays n session hn)
    refine ⟨ht, fun m t hs => ?_⟩
    rw [Room.session?_set hn] at hs
    split at hs
    · split at hs
      · cases hs
        exact hplays
      · cases hs
    · next hmn =>
      refine Room.plays_of_not_runs (hquiet ?_) hs _ _
      exact Bool.eq_false_iff.2 fun hop => hmn (isOn_session.1 hop).symm
  | stored h hd follows =>
    rw [still rfl]
    have ht := hr.tended.stores h follows.world
    rw [← hd] at ht
    exact ⟨ht, fun n s hs => Room.plays_of_not_runs (hquiet rfl) hs _ _⟩
  | shutDown h follows =>
    rw [still rfl]
    exact ⟨hr.tended.shutsDown h follows.world,
      fun n s hs => Room.plays_of_not_runs (hquiet rfl) hs _ _⟩

/-- The payloads of the advances that came to be accepted in a journal, in the order of
acceptance. -/
def history {W : Type} (b : Backend W) (config : EngineConfig) (js : List (Page W)) : Ledger :=
  js.flatMap fun page => page.op.adds b config page.before

theorem history_concat (js : List (Page World)) (op : EngineOp) (r : Room World) :
    history backend config (js ++ [op.page backend config r]) =
      history backend config js ++ op.adds backend config r := by
  rw [history, List.flatMap_append, List.flatMap_singleton]
  rfl

/-- A run of an isolated engine commits the payloads of the advances that are accepted. -/
theorem run_committed (config : EngineConfig) (hm : config.isolation = .isolated)
    (ledger : Ledger) (ops : List EngineOp) :
    let r := Room.opening 0 { world := .ofLedger ledger [] [] }
    (run backend config ops r).Committed
        (ledger ++ history backend config (journal backend config ops r)) ∧
      ∃ own, (run backend config ops r).Linked config.isolation own := by
  intro r
  have hopening : r.Committed (ledger ++ history backend config []) ∧
      ∃ own, r.Linked config.isolation own := by
    rw [history, List.flatMap_nil, List.append_nil]
    exact ⟨Room.opening_committed ledger, [], Room.opening_linked _ _ _⟩
  refine run_journal (p := fun js r => r.Committed (ledger ++ history backend config js) ∧
    ∃ own, r.Linked config.isolation own) ?_ ops hopening
  rintro js r op xs ns fs hdoes - - ⟨hr, own, hlinked⟩
  rw [history_concat, ← List.append_assoc]
  exact ⟨hdoes.committed hm hlinked hr, _, hdoes.linked hlinked⟩

end EngineOp

end RollupEngine
