import RollupEngine.Proofs.Engine

/-!
# What is done on a controller

A controller can be used without an engine: transactions are opened and closed at will, sessions of
any isolation are made on it, and nothing keeps the two apart. `RoomOp.Does` says all that an
operation does to such a room, and `RoomOp.does` that every operation does one of these, for every
backend. The record of a run (`RoomOp.record`) has an `Entry` for every operation, with the answer
and with the rooms before and after; `RoomOp.run_entries` carries what every operation keeps, of a
record and the room it led to, along a run.
-/

namespace RollupEngine

variable {W : Type}

/-- An operation on a controller in the course of a run. -/
structure Entry (W : Type) where
  op : RoomOp
  answer : Answer
  before : Room W
  after : Room W

namespace Entry

/-- The calls that an operation made. -/
def calls (e : Entry W) : List Exchange :=
  e.after.calls.drop e.before.calls.length

/-- The notices that an operation made. -/
def notices (e : Entry W) : List Notice :=
  e.after.notices.drop e.before.notices.length

variable {b : Backend W} {e : Entry W} {xs : List Exchange} {ns : List Notice}

theorem calls_of_follows (h : e.before.toSite.Follows b xs ns e.after.toSite) : e.calls = xs := by
  rw [calls, h.calls, List.drop_left]

theorem notices_of_follows (h : e.before.toSite.Follows b xs ns e.after.toSite) :
    e.notices = ns := by
  rw [notices, h.notices, List.drop_left]

end Entry

namespace RoomOp

/-- All that an operation does to a room, with the calls and the notices on the way. -/
inductive Does (b : Backend W) (r : Room W) :
    RoomOp → List Exchange → List Notice → Room W → Prop
  | began {mode : Isolation} {xs : List Exchange} {ns : List Notice} {o : Except Failure Handle}
      {d : Desk W} (h : r.controller.Begins mode xs ns o d.controller)
      (follows : r.toSite.Follows b xs ns d.toSite) :
    Does b r (.begin mode) xs ns { r with toDesk := d }
  | committed {xs : List Exchange} {ns : List Notice} {o : Except Failure Unit} {d : Desk W}
      (h : r.controller.Settles true xs ns o d.controller)
      (follows : r.toSite.Follows b xs ns d.toSite) :
    Does b r .commit xs ns { r with toDesk := d }
  | rolledBack {xs : List Exchange} {ns : List Notice} {o : Except Failure Unit} {d : Desk W}
      (h : r.controller.Settles false xs ns o d.controller)
      (follows : r.toSite.Follows b xs ns d.toSite) :
    Does b r .rollback xs ns { r with toDesk := d }
  | stored {path : String} {xs : List Exchange} {ns : List Notice} {o : Except Failure Unit}
      {d : Desk W} (h : r.controller.Stores path xs ns o) (hd : d.controller = r.controller)
      (follows : r.toSite.Follows b xs ns d.toSite) :
    Does b r (.store path) xs ns { r with toDesk := d }
  | shutDown {xs : List Exchange} {ns : List Notice} {o : Except Failure Unit} {d : Desk W}
      (h : r.controller.ShutsDown xs ns o d.controller)
      (follows : r.toSite.Follows b xs ns d.toSite) :
    Does b r .shutdown xs ns { r with toDesk := d }
  | made {kind : InputKind} {isolation : Isolation} {payload : Bytes} :
    Does b r (.makeSession kind isolation payload) [] []
      { r with sessions := r.sessions ++ [some { kind, payload, isolation }] }
  /-- An operation on a session that is not there. -/
  | absent {number : Nat} {op : SessionOp} (h : r.session? number = none) :
    Does b r (.session number op) [] [] r
  /-- An operation on a session. -/
  | walked {number : Nat} {op : SessionOp} {session : Session} {xs : List Exchange}
      {ns : List Notice} {fs : List Failure} {s : Seat W} (h : r.session? number = some session)
      (path : Seat.Path b ⟨r.toDesk, session⟩ xs ns fs s) :
    Does b r (.session number op) xs ns
      { toDesk := s.toDesk
        sessions := r.sessions.set number (if op.keeps then some s.session else none) }

/-- Every operation does one of these. -/
theorem does (b : Backend W) (op : RoomOp) (r : Room W) :
    ∃ xs ns, Does b r op xs ns (op.perform b r).2 := by
  cases op with
  | begin mode =>
    obtain ⟨xs, ns, o, d, hrun, hbegins⟩ := Desk.begin_cases b mode r.toDesk
    rw [show perform b (.begin mode) r = _ from Room.reply_onDesk hrun .working]
    exact ⟨xs, ns, .began hbegins hrun.follows⟩
  | commit =>
    obtain ⟨xs, ns, o, d, hrun, hsettles⟩ := Desk.commit_cases b r.toDesk
    rw [show perform b .commit r = _ from Room.reply_onDesk hrun fun _ => .done]
    exact ⟨xs, ns, .committed hsettles hrun.follows⟩
  | rollback =>
    obtain ⟨xs, ns, o, d, hrun, hsettles⟩ := Desk.rollback_cases b r.toDesk
    rw [show perform b .rollback r = _ from Room.reply_onDesk hrun fun _ => .done]
    exact ⟨xs, ns, .rolledBack hsettles hrun.follows⟩
  | store path =>
    obtain ⟨xs, ns, o, d, hrun, hstores, hd⟩ := Desk.store_cases b path r.toDesk
    rw [show perform b (.store path) r = _ from Room.reply_onDesk hrun fun _ => .done]
    exact ⟨xs, ns, .stored hstores hd hrun.follows⟩
  | shutdown =>
    obtain ⟨xs, ns, o, d, hrun, hdown⟩ := Desk.shutdown_cases b r.toDesk
    rw [show perform b .shutdown r = _ from Room.reply_onDesk hrun fun _ => .done]
    exact ⟨xs, ns, .shutDown hdown hrun.follows⟩
  | makeSession kind isolation payload => exact ⟨[], [], .made⟩
  | session number op =>
    change ∃ xs ns, Does b r (.session number op) xs ns (Room.onSession b number op r).2
    unfold Room.onSession
    cases hs : r.session? number with
    | none => exact ⟨[], [], .absent hs⟩
    | some s =>
      obtain ⟨xs, ns, fs, hpath, -⟩ := op.path b ⟨r.toDesk, s⟩
      exact ⟨xs, ns, .walked hs hpath⟩

theorem Does.follows {b : Backend W} {op : RoomOp} {r r' : Room W} {xs : List Exchange}
    {ns : List Notice} (h : Does b r op xs ns r') : r.toSite.Follows b xs ns r'.toSite := by
  cases h with
  | made | absent => exact .refl b r.toSite
  | began _ follows | committed _ follows | rolledBack _ follows | shutDown _ follows =>
    exact follows
  | stored _ _ follows => exact follows
  | walked _ path => exact path.follows

/-! ## Records of runs -/

/-- The entry of an operation. -/
def entry (b : Backend W) (op : RoomOp) (r : Room W) : Entry W where
  op := op
  answer := (op.perform b r).1
  before := r
  after := (op.perform b r).2

/-- An entry for every operation of a run. -/
def record (b : Backend W) : List RoomOp → Room W → List (Entry W)
  | [], _ => []
  | op :: ops, r => op.entry b r :: record b ops (op.perform b r).2

variable {b : Backend W}

@[simp]
theorem run_nil (r : Room W) : run b [] r = r := rfl

/-- What every operation keeps, of a record and the room that it led to, holds along a run. -/
theorem run_entries {p : List (Entry W) → Room W → Prop}
    (step : ∀ {es r} op {xs ns}, Does b r op xs ns (op.perform b r).2 →
      (op.entry b r).calls = xs → (op.entry b r).notices = ns → p es r →
      p (es ++ [op.entry b r]) (op.perform b r).2)
    (ops : List RoomOp) {l : List (Entry W)} {r : Room W} (h : p l r) :
    p (l ++ record b ops r) (run b ops r) := by
  induction ops generalizing l r with
  | nil => simpa [record] using h
  | cons op ops ih =>
    obtain ⟨xs, ns, hdoes⟩ := op.does b r
    have hcalls : (op.entry b r).calls = xs := Entry.calls_of_follows hdoes.follows
    have hnotices : (op.entry b r).notices = ns := Entry.notices_of_follows hdoes.follows
    have hrest := ih (step op hdoes hcalls hnotices h)
    rwa [List.append_assoc] at hrest

/-- The calls that a run adds to the record of the site are those of its operations. -/
theorem run_calls (b : Backend W) (ops : List RoomOp) (r : Room W) :
    (run b ops r).calls = r.calls ++ (record b ops r).flatMap Entry.calls := by
  refine run_entries (p := fun es r' => r'.calls = r.calls ++ es.flatMap Entry.calls)
    (fun {es r'} op xs ns hdoes hcalls _ h => ?_) ops (l := []) (r := r) (by simp)
  rw [hdoes.follows.calls, h, List.flatMap_append, List.flatMap_singleton, hcalls,
    List.append_assoc]

end RoomOp

end RollupEngine
