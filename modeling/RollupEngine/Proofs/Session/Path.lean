import RollupEngine.Proofs.Session.Move

/-!
# Paths of moves

`Session.Moves` is all that a session does at once: it starts, makes a turn, is closed, or is
closed because nobody holds it any more. A `Seat.Path` is a sequence of moves, with the calls, the
notices and the failures on the way.
-/

namespace RollupEngine

variable {W α : Type}

/-! ## Moves -/

/-- A session that is over works on no machine. -/
theorem Phase.working?_of_done {p : Phase} (h : p.done = true) : p.working? = none := by
  cases p with
  | start | running => cases h
  | accepted | rejected | fatal | cancelled => rfl

theorem Phase.eq_running {p : Phase} {w : Handle} (h : p.working? = some w) : p = .running w := by
  cases p with
  | running => exact congrArg Phase.running (Option.some.inj h)
  | start | accepted | rejected | fatal | cancelled => cases h

/-- The failure of an outcome, as a list. -/
def failures : Except Failure α → List Failure
  | .ok _ => []
  | .error f => [f]

/-- An operation that ends well ends with no failure. -/
theorem forall_failure_of_ok {a : α} {p : Failure → Prop} :
    ∀ f, (Except.ok a : Except Failure α) = .error f → p f := by
  intro f h
  cases h

/-- What is noticed of a close that nobody asked for. -/
def lament : Except Failure Unit → List Notice
  | .ok _ => []
  | .error f => if f.ordinary then [.cancelFailed] else []

theorem lament_channel {o : Except Failure Unit} : ∀ n ∈ lament o, n.channel ≠ .transaction := by
  unfold lament
  split
  · simp
  · split <;> simp [Notice.channel]

/-- What a session does at once. -/
inductive Session.Moves (s : Session) (c : Controller) :
    List Exchange → List Notice → List Failure → Controller → Phase → Prop
  | start {xs : List Exchange} {ns : List Notice} {o : Except Failure Handle} {c' : Controller}
      {p : Phase} (hp : s.phase = .start) (h : s.Starts c xs ns o c' p) :
    Moves s c xs ns (failures o) c' p
  | turn {xs : List Exchange} {ns : List Notice} {w : Handle} {o : Except Failure Seat.Turn}
      {c' : Controller} {p : Phase} (hp : s.phase = .running w)
      (h : Turns s.kind w c xs ns o c' p) : Moves s c xs ns (failures o) c' p
  | close {xs : List Exchange} {ns : List Notice} {o : Except Failure Unit} {c' : Controller}
      {p : Phase} (h : s.Closes c xs ns o c' p) : Moves s c xs ns (failures o) c' p
  | abandon {xs : List Exchange} {ns : List Notice} {o : Except Failure Unit} {c' : Controller}
      {p : Phase} (h : s.Closes c xs ns o c' p) :
    Moves s c xs (ns ++ lament o) (failures o) c' p

namespace Session

variable {kind : InputKind} {ending : Ending} {w : Handle} {r : Reading} {s : Session}
  {c c' : Controller} {p : Phase} {xs : List Exchange} {ns : List Notice}

/-- An ending that does not fail is the end. -/
theorem Ends.over_of_ok {o : Except Failure Seat.Turn} {turn : Seat.Turn}
    (h : Ends kind ending c xs ns o c') (ho : o = .ok turn) :
    turn = .over ∧ ∃ result, ending = .accepted result := by
  cases h with
  | settled =>
    cases ending with
    | accepted result =>
      cases ho
      exact ⟨rfl, result, rfl⟩
    | rejected | exception | violation => cases ho
  | unsettled => cases ho

theorem Turns.running_of_ignored {o : Except Failure Seat.Turn} (h : Turns kind w c xs ns o c' p)
    (ho : o = .ok .ignored) : p = .running w := by
  cases h with
  | heard _ hj =>
    cases hj with
    | delivered | passed | refused => rfl
    | ended _ he => cases (he.over_of_ok ho).1
  | interrupted => rfl
  | failed => cases ho

theorem Turns.running_of_delivered {o : Except Failure Seat.Turn}
    (h : Turns kind w c xs ns o c' p) {event : StreamEvent} (ho : o = .ok (.delivered event)) :
    p = .running w := by
  cases h with
  | heard _ hj =>
    cases hj with
    | delivered => rfl
    | passed | refused => cases ho
    | ended _ he => cases (he.over_of_ok ho).1
  | interrupted | failed => cases ho

/-- Only an input that was accepted is over without a failure. -/
theorem Turns.accepted_of_over {o : Except Failure Seat.Turn} (h : Turns kind w c xs ns o c' p)
    (ho : o = .ok .over) : ∃ result, p = .accepted result := by
  cases h with
  | heard _ hj =>
    cases hj with
    | delivered | passed | refused => cases ho
    | ended _ he =>
      obtain ⟨-, result, rfl⟩ := he.over_of_ok ho
      exact ⟨result, rfl⟩
  | interrupted | failed => cases ho

theorem Starts.running_of_ok {o : Except Failure Handle} (h : Starts s c xs ns o c' p)
    (ho : o = .ok w) : p = .running w := by
  cases h with
  | sent => rw [Except.ok.inj ho]
  | refused | interrupted | failed => simp at ho

/-- To close a session that runs is to discard its transaction. -/
theorem Closes.settles {o : Except Failure Unit} (h : s.Closes c xs ns o c' p)
    (hp : s.phase = .running w) :
    p = .cancelled ∧ ∃ ms o', ns = .cancelled s.kind :: ms ∧ o = o'.mapError .closing ∧
      c.Settles false xs ms o' c' := by
  cases h with
  | fresh h => simp [hp] at h
  | done h => simp [hp, Phase.done] at h
  | running _ h => exact ⟨rfl, _, _, rfl, rfl, h⟩

/-- A session that was closed no longer works on a machine. -/
theorem Closes.working?_eq_none {o : Except Failure Unit} (h : Closes s c xs ns o c' p) :
    p.working? = none := by
  cases h with
  | fresh | running => rfl
  | done h => exact Phase.working?_of_done h

/-- A session that is over does nothing any more. -/
theorem Moves.of_done {fs : List Failure} (h : s.Moves c xs ns fs c' p)
    (hs : s.phase.done = true) : xs = [] ∧ ns = [] ∧ fs = [] ∧ c' = c ∧ p = s.phase := by
  have hclose {o : Except Failure Unit} {ns : List Notice} (h : s.Closes c xs ns o c' p) :
      xs = [] ∧ ns = [] ∧ o = .ok () ∧ c' = c ∧ p = s.phase := by
    cases h with
    | done => exact ⟨rfl, rfl, rfl, rfl, rfl⟩
    | fresh hp | running hp => rw [hp] at hs; cases hs
  cases h with
  | start hp | turn hp => rw [hp] at hs; cases hs
  | close h | abandon h =>
    obtain ⟨rfl, rfl, rfl, hc, hp⟩ := hclose h
    exact ⟨rfl, rfl, rfl, hc, hp⟩

/-- The calls of a move: the canonical machine is forked, the input is sent to the machine of the
new transaction, the machine of the session is heard, or some machine is released. -/
theorem Moves.mem {fs : List Failure} (h : s.Moves c xs ns fs c' p) {x : Exchange} (hx : x ∈ xs) :
    (s.isolation = .isolated ∧ ∃ reply, x = .fork c.canonical reply) ∨
      (∃ w reply ys ms c', x = .send w s.kind.reason s.payload reply ∧
        c.Begins s.isolation ys ms (.ok w) c' ∧ ys ⊆ xs) ∨
      (∃ w, s.phase = .running w ∧ ((∃ reply, x = .run w reply) ∨ ∃ reply, x = .receive w reply)) ∨
      ∃ m reply, x = .shutdown m reply := by
  cases h with
  | start hp h =>
    cases h with
    | refused h => exact .inl (h.mem hx)
    | sent h | interrupted h =>
      rcases List.mem_append.1 hx with hx | hx
      · exact .inl (h.mem hx)
      · have hsend := List.mem_singleton.1 hx
        exact .inr (.inl ⟨_, _, _, _, _, hsend, h, List.subset_append_left ..⟩)
    | failed h _ _ hf =>
      rcases List.mem_append.1 hx with hx | hx
      · exact .inl (h.mem hx)
      rcases List.mem_cons.1 hx with hsend | hx
      · exact .inr (.inl ⟨_, _, _, _, _, hsend, h, List.subset_append_left ..⟩)
      · exact .inr (.inr (.inr (hf.mem hx)))
  | turn hp h =>
    refine .inr (.inr ?_)
    cases h with
    | heard hh hj =>
      rcases List.mem_append.1 hx with hx | hx
      · exact .inl ⟨_, hp, hh.mem hx⟩
      · exact .inr (hj.mem hx)
    | interrupted hh => exact .inl ⟨_, hp, hh.mem hx⟩
    | failed hh _ hf =>
      rcases List.mem_append.1 hx with hx | hx
      · exact .inl ⟨_, hp, hh.mem hx⟩
      · exact .inr (hf.mem hx)
  | close h | abandon h => exact .inr (.inr (.inr (h.mem hx)))

end Session

namespace Seat

/-- A move of the session at a seat. -/
structure Move (b : Backend W) (s : Seat W) (xs : List Exchange) (ns : List Notice)
    (fs : List Failure) (s' : Seat W) : Prop where
  moves : s.session.Moves s.controller xs ns fs s'.controller s'.session.phase
  follows : s.site.Follows b xs ns s'.site
  session : s'.session = s.session.inPhase s'.session.phase

/-- A sequence of moves, with the calls, the notices and the failures on the way. -/
inductive Path (b : Backend W) :
    Seat W → List Exchange → List Notice → List Failure → Seat W → Prop
  | refl (s : Seat W) : Path b s [] [] [] s
  | step {s s' s'' : Seat W} {xs ys : List Exchange} {ns ms : List Notice} {fs gs : List Failure}
      (head : Move b s xs ns fs s') (tail : Path b s' ys ms gs s'') :
    Path b s (xs ++ ys) (ns ++ ms) (fs ++ gs) s''

namespace Path

variable {b : Backend W} {s s' s'' : Seat W} {xs ys : List Exchange} {ns ms : List Notice}
  {fs gs : List Failure}

theorem single (h : Move b s xs ns fs s') : Path b s xs ns fs s' := by
  simpa using Path.step h (.refl s')

theorem trans (h : Path b s xs ns fs s') (h' : Path b s' ys ms gs s'') :
    Path b s (xs ++ ys) (ns ++ ms) (fs ++ gs) s'' := by
  induction h with
  | refl => exact h'
  | step head _ ih =>
    simp only [List.append_assoc]
    exact .step head (ih h')

theorem follows (h : Path b s xs ns fs s') : s.site.Follows b xs ns s'.site := by
  induction h with
  | refl s => exact .refl b s.site
  | step head _ ih => exact head.follows.trans ih

/-- A path changes the phase of a session, and nothing else about it. -/
theorem session (h : Path b s xs ns fs s') :
    s'.session = s.session.inPhase s'.session.phase := by
  induction h with
  | refl => rfl
  | step head _ ih => rw [ih, head.session]; rfl

theorem of_done (h : Path b s xs ns fs s') (hs : s.session.phase.done = true) :
    xs = [] ∧ ns = [] ∧ fs = [] ∧ s'.controller = s.controller ∧
      s'.session.phase = s.session.phase := by
  induction h with
  | refl => exact ⟨rfl, rfl, rfl, rfl, rfl⟩
  | step head _ ih =>
    obtain ⟨rfl, rfl, rfl, hc, hp⟩ := head.moves.of_done hs
    obtain ⟨rfl, rfl, rfl, hc', hp'⟩ := ih (by rw [hp]; exact hs)
    exact ⟨rfl, rfl, rfl, hc'.trans hc, hp'.trans hp⟩

end Path

end Seat

end RollupEngine
