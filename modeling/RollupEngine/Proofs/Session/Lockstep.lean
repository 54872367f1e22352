import RollupEngine.Proofs.Link
import RollupEngine.Proofs.Session.Rest

/-!
# Sessions in lockstep

Two operations are alike if they end with the same outcome and keep their states related
(`Act.Alike`); this passes from parts to the whole. Everything that can be done with a session is
put together from a few things, to pull it once or to its end, to close it and to let it go. So a
relation of sessions that these keep, on possibly different machines, is kept by every operation
(`Seat.Lockstep`, `SessionOp.perform_alike`).

Whoever holds one of two sessions that are so related cannot tell which (`Room.Paired.sights_eq`).
This holds as well of an observer who does not see all of an answer, and of operations that agree
in what he sees (`SessionOp.Agrees`).
-/

namespace RollupEngine

variable {W W' α β : Type}

/-! ## Operations that are alike -/

namespace Act

variable {σ τ : Type} {R : σ → τ → Prop} {s : σ} {s' : τ}

/-- Two operations end with the same outcome, in states that `R` relates. -/
def Alike (R : σ → τ → Prop) (act : Act σ α) (act' : Act τ α) (s : σ) (s' : τ) : Prop :=
  ∃ o t t', act.run s = result o t ∧ act'.run s' = result o t' ∧ R t t'

namespace Alike

variable {act : Act σ α} {act' : Act τ α} {next : α → Act σ β} {next' : α → Act τ β}

theorem pure (a : α) (h : R s s') : Alike R (Pure.pure a) (Pure.pure a) s s' :=
  ⟨.ok a, s, s', rfl, rfl, h⟩

theorem throw (f : Failure) (h : R s s') :
    Alike R (MonadExcept.throw f : Act σ α) (MonadExcept.throw f) s s' :=
  ⟨.error f, s, s', rfl, rfl, h⟩

theorem bind (h : Alike R act act' s s')
    (hnext : ∀ a t t', R t t' → Alike R (next a) (next' a) t t') :
    Alike R (act >>= next) (act' >>= next') s s' := by
  obtain ⟨o, t, t', hrun, hrun', ht⟩ := h
  cases o with
  | error f => exact ⟨.error f, t, t', by simp [EStateM.run_bind, hrun, result],
      by simp [EStateM.run_bind, hrun', result], ht⟩
  | ok a =>
    obtain ⟨p, u, u', hnext, hnext', hu⟩ := hnext a t t' ht
    exact ⟨p, u, u', by simpa [EStateM.run_bind, hrun, result] using hnext,
      by simpa [EStateM.run_bind, hrun', result] using hnext', hu⟩

theorem get_bind {next : σ → Act σ β} {next' : τ → Act τ β}
    (h : Alike R (next s) (next' s') s s') : Alike R (get >>= next) (get >>= next') s s' :=
  h

theorem attempt (h : Alike R act act' s s') :
    Alike R (Act.attempt act) (Act.attempt act') s s' := by
  obtain ⟨o, t, t', hrun, hrun', ht⟩ := h
  exact ⟨.ok o, t, t', run_attempt_of_run hrun, run_attempt_of_run hrun', ht⟩

end Alike

end Act

theorem Answer.reply_alike {σ τ : Type} {R : σ → τ → Prop} {s : σ} {s' : τ} {act : Act σ Reply}
    {act' : Act τ Reply} (h : act.Alike R act' s s') :
    (reply act s).1 = (reply act' s').1 ∧ R (reply act s).2 (reply act' s').2 := by
  obtain ⟨o, t, t', hrun, hrun', ht⟩ := h
  rw [reply_of_run hrun, reply_of_run hrun']
  exact ⟨rfl, ht⟩

/-! ## Sessions -/

namespace Seat

/-- Related sessions are in the same state, with the same result. -/
def Looks (R : Seat W → Seat W' → Prop) : Prop :=
  ∀ {s s'}, R s s' → s.session.phase.state = s'.session.phase.state ∧
    s.session.phase.result? = s'.session.phase.result?

section

variable {b : Backend W} {b' : Backend W'} {R : Seat W → Seat W' → Prop} {s : Seat W}
  {s' : Seat W'} (hpull : ∀ {s s'}, R s s' → (pull b).Alike R (Seat.pull b') s s')

include hpull

/-- What a loop does after a pull. -/
theorem pulled_alike (next : Seat W → Act (Seat W) Drain) (next' : Seat W' → Act (Seat W') Drain)
    (hs : R s s') (hnext : ∀ t t', R t t' → (next t).Alike R (next' t') t t') :
    Act.Alike R
      (do
        match ← Act.attempt (Seat.pull b) with
        | .error f => pure ⟨[], .failed f⟩
        | .ok none => pure ⟨[], .exhausted⟩
        | .ok (some event) =>
          let rest ← next (← get)
          pure { rest with events := event :: rest.events })
      (do
        match ← Act.attempt (Seat.pull b') with
        | .error f => pure ⟨[], .failed f⟩
        | .ok none => pure ⟨[], .exhausted⟩
        | .ok (some event) =>
          let rest ← next' (← get)
          pure { rest with events := event :: rest.events })
      s s' := by
  refine (hpull hs).attempt.bind fun o t t' ht => ?_
  rcases o with f | (- | event)
  · exact .pure _ ht
  · exact .pure _ ht
  · exact .get_bind ((hnext t t' ht).bind fun d u u' hu => .pure _ hu)

theorem loop_alike (spent : DrainEnd) (n : Nat) (hs : R s s') :
    (loop b spent n).Alike R (Seat.loop b' spent n) s s' := by
  induction n generalizing s s' with
  | zero => exact .pure _ hs
  | succ n ih =>
    exact pulled_alike hpull (fun _ => Seat.loop b spent n) (fun _ => Seat.loop b' spent n) hs
      fun t t' ht => ih ht

/-- Sessions that ask for as much patience are alike when they are pulled to their ends. -/
theorem drain_alike (hbudget : ∀ {s s'}, R s s' → budget b s = Seat.budget b' s') (hs : R s s') :
    (drain b).Alike R (Seat.drain b') s s' := by
  refine pulled_alike hpull (fun t => Seat.loop b _ (Seat.budget b t))
    (fun t => Seat.loop b' _ (Seat.budget b' t)) hs fun t t' ht => ?_
  rw [hbudget ht]
  exact loop_alike hpull _ _ ht

end

/-- A relation of sessions that is kept by what they do, while they look the same. -/
structure Lockstep (b : Backend W) (b' : Backend W') (R : Seat W → Seat W' → Prop) : Prop where
  pull : ∀ {s s'}, R s s' → (pull b).Alike R (Seat.pull b') s s'
  drain : ∀ {s s'}, R s s' → (drain b).Alike R (Seat.drain b') s s'
  close : ∀ {s s'}, R s s' → (close b).Alike R (Seat.close b') s s'
  abandon : ∀ {s s'}, R s s' → (abandon b).Alike R (Seat.abandon b') s s'
  looks : Looks R

namespace Lockstep

variable {b : Backend W} {b' : Backend W'} {R : Seat W → Seat W' → Prop} {s : Seat W}
  {s' : Seat W'}

theorem take (h : Lockstep b b' R) (limit : Option Nat) (hs : R s s') :
    (take b limit).Alike R (Seat.take b' limit) s s' := by
  cases limit with
  | none => exact h.drain hs
  | some n => exact loop_alike h.pull .stopped n hs

theorem scope (h : Lockstep b b' R) (limit : Option Nat) (raising : Option Error) (hs : R s s') :
    (scope b limit raising).Alike R (Seat.scope b' limit raising) s s' := by
  refine (h.take limit hs).bind fun d t t' ht => ?_
  refine (h.close ht).attempt.bind fun o u u' hu => ?_
  cases o with
  | error f => exact .pure _ hu
  | ok _ => exact .pure _ hu

theorem collect (h : Lockstep b b' R) (kind : InputKind) (hs : R s s') :
    (collect b kind).Alike R (Seat.collect b' kind) s s' := by
  refine (h.scope none none hs).bind fun d t t' ht => ?_
  obtain ⟨events, ending⟩ := d
  cases ending with
  | failed f => exact .throw f ht
  | exhausted | stopped =>
    refine .get_bind ?_
    rw [(h.looks ht).2]
    exact .pure _ ht

end Lockstep

end Seat

/-- Related sessions answer an operation in the same way, as far as `view` shows, and stay
related. -/
def SessionOp.Agrees (b : Backend W) (b' : Backend W') (R : Seat W → Seat W' → Prop)
    (view : Answer → α) (op : SessionOp) : Prop :=
  ∀ {s s'}, R s s' → view (op.perform b s).1 = view (op.perform b' s').1 ∧
    R (op.perform b s).2 (op.perform b' s').2

/-- Sessions in lockstep answer every operation in the same way, and stay in lockstep. -/
theorem SessionOp.perform_alike {b : Backend W} {b' : Backend W'} {R : Seat W → Seat W' → Prop}
    (h : Seat.Lockstep b b' R) (op : SessionOp) : op.Agrees b b' R id := by
  intro s s' hs
  have drained {act : Act (Seat W) Drain} {act' : Act (Seat W') Drain}
      (hact : act.Alike R act' s s') : (Answer.drain act s).1 = (Answer.drain act' s').1 ∧
        R (Answer.drain act s).2 (Answer.drain act' s').2 := by
    obtain ⟨o, t, t', hrun, hrun', ht⟩ := hact
    rw [Answer.drain, Answer.drain, show act s = _ from hrun, show act' s' = _ from hrun']
    cases o <;> exact ⟨rfl, ht⟩
  cases op with
  | pull => exact Answer.reply_alike ((h.pull hs).bind fun _ _ _ ht => .pure _ ht)
  | next =>
    refine Answer.reply_alike ((h.pull hs).bind fun event t t' ht => ?_)
    cases event with
    | none => exact .pure _ ht
    | some event => exact .pure _ ht
  | take limit => exact drained (h.take limit hs)
  | scope limit raising => exact drained (h.scope limit raising hs)
  | close => exact Answer.reply_alike ((h.close hs).bind fun _ _ _ ht => .pure _ ht)
  | drop => exact Answer.reply_alike ((h.abandon hs).bind fun _ _ _ ht => .pure _ ht)
  | collect kind => exact Answer.reply_alike ((h.collect kind hs).bind fun _ _ _ ht => .pure _ ht)

/-! ## Rooms -/

/-- What the holder of a session sees of it after an operation. -/
structure Sight where
  answer : Answer
  state? : Option SessionState
  result? : Option Bytes

/-- What an observer sees who sees this of an answer. -/
def Sight.through (view : Answer → Answer) (x : Sight) : Sight :=
  { x with answer := view x.answer }

theorem Sight.map_through_id (l : List Sight) : l.map (Sight.through id) = l :=
  List.map_id l

namespace EngineOp

/-- What the holder of session `n` sees after each of its operations. -/
def sights (b : Backend W) (config : EngineConfig) (n : Nat) :
    List SessionOp → Room W → List Sight
  | [], _ => []
  | op :: ops, r =>
    let (answer, r') := (session n op).perform b config r
    { answer
      state? := (r'.session? n).map (·.phase.state)
      result? := (r'.session? n).bind (·.phase.result?) } :: sights b config n ops r'

/-- What the holder of a new session sees after each of its operations. -/
def sightsOf (b : Backend W) (config : EngineConfig) (kind : InputKind) (payload : Bytes)
    (ops : List SessionOp) (r : Room W) : List Sight :=
  sights b config r.sessions.length ops
    ((submit kind (.bytes payload) (some false)).perform b config r).2

end EngineOp

namespace Room

/-- Session `n` of one room and session `m` of another are related, unless both were let go. -/
inductive Paired (R : Seat W → Seat W' → Prop) (n m : Nat) (r : Room W) (r' : Room W') : Prop
  | held {s : Session} {s' : Session} (hs : r.session? n = some s) (hs' : r'.session? m = some s')
    (h : R ⟨r.toDesk, s⟩ ⟨r'.toDesk, s'⟩)
  | gone (hs : r.session? n = none) (hs' : r'.session? m = none)

namespace Paired

variable {b : Backend W} {b' : Backend W'} {R : Seat W → Seat W' → Prop} {n m : Nat} {r : Room W}
  {r' : Room W'}

theorem perform {view : Answer → α} (config config' : EngineConfig) {op : SessionOp}
    (hop : op.Agrees b b' R view) (h : Paired R n m r r') :
    view ((EngineOp.session n op).perform b config r).1 =
        view ((EngineOp.session m op).perform b' config' r').1 ∧
      Paired R n m ((EngineOp.session n op).perform b config r).2
        ((EngineOp.session m op).perform b' config' r').2 := by
  cases h with
  | gone hs hs' =>
    rw [EngineOp.perform_session_none b config hs, EngineOp.perform_session_none b' config' hs']
    exact ⟨rfl, .gone hs hs'⟩
  | held hs hs' h =>
    obtain ⟨hanswer, hafter⟩ := hop h
    rw [EngineOp.perform_session b config hs, EngineOp.perform_session b' config' hs']
    refine ⟨hanswer, ?_⟩
    cases hkeeps : op.keeps with
    | true => exact .held (by simp [session?_set hs]) (by simp [session?_set hs']) hafter
    | false => exact .gone (by simp [session?_set hs]) (by simp [session?_set hs'])

/-- The sessions look the same. -/
theorem looks_eq (hR : Seat.Looks R) (h : Paired R n m r r') :
    (r.session? n).map (·.phase.state) = (r'.session? m).map (·.phase.state) ∧
      (r.session? n).bind (·.phase.result?) = (r'.session? m).bind (·.phase.result?) := by
  cases h with
  | gone hs hs' => simp [hs, hs']
  | held hs hs' h =>
    obtain ⟨hstate, hresult⟩ := hR h
    simpa [hs, hs'] using ⟨hstate, hresult⟩

/-- Related sessions look the same to their holders, whatever these do in which the sessions
agree. -/
theorem sights_eq {view : Answer → Answer} (hR : Seat.Looks R) (config config' : EngineConfig)
    (ops : List SessionOp) (hops : ∀ op ∈ ops, op.Agrees b b' R view) (h : Paired R n m r r') :
    (EngineOp.sights b config n ops r).map (Sight.through view) =
        (EngineOp.sights b' config' m ops r').map (Sight.through view) ∧
      Paired R n m (EngineOp.run b config (ops.map (.session n)) r)
        (EngineOp.run b' config' (ops.map (.session m)) r') := by
  induction ops generalizing r r' with
  | nil => exact ⟨rfl, h⟩
  | cons op ops ih =>
    obtain ⟨hop, hops⟩ := List.forall_mem_cons.1 hops
    obtain ⟨hanswer, hafter⟩ := h.perform config config' hop
    obtain ⟨hstate, hresult⟩ := hafter.looks_eq hR
    obtain ⟨hrest, hend⟩ := ih hops hafter
    refine ⟨?_, hend⟩
    simp only [EngineOp.sights, List.map_cons, Sight.through, hanswer, hstate, hresult]
    rw [hrest]

/-- Sessions in lockstep look the same to their holders, whatever these do. -/
theorem sights_eq_of_lockstep (hR : Seat.Lockstep b b' R) (config config' : EngineConfig)
    (ops : List SessionOp) (h : Paired R n m r r') :
    EngineOp.sights b config n ops r = EngineOp.sights b' config' m ops r' ∧
      Paired R n m (EngineOp.run b config (ops.map (.session n)) r)
        (EngineOp.run b' config' (ops.map (.session m)) r') := by
  have h := h.sights_eq hR.looks config config' ops fun op _ => op.perform_alike hR
  rwa [Sight.map_through_id, Sight.map_through_id] at h

end Paired

end Room

end RollupEngine
