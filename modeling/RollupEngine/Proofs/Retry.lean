import Mathlib.Data.List.Forall2
import Mathlib.Logic.Equiv.Basic
import RollupEngine.Proofs.Journal
import RollupEngine.Proofs.Session.Rest
import RollupEngine.Scripted.World

/-!
# Starting again

A session that is pulled for the first time opens its transaction before it does anything else. If
that fails, the controller is as it was (`Controller.Begins.eq_of_error`), and so is the session.
Nothing tells it from one that was made just now.

To say so, runs are compared in which sessions have other numbers. `Room.Renamed f r r'` says that
session `k` of `r` is session `f k` of `r'`. An operation does the same to both rooms if it names
its session accordingly (`Room.Renamed.perform`), hence so does a run (`Room.Renamed.journal`). A
session that could not begin and a new one are then renamed into each other in two ways: the new one
takes the place of the old one in all that is done later, or the two change places
(`EngineOp.page_retryable`).
-/

namespace RollupEngine

variable {W α : Type} {f : Nat → Nat}

/-! ## Other numbers -/

/-- A reply when the sessions have other numbers. -/
def Reply.rename (f : Nat → Nat) : Reply → Reply
  | .session number => .session (f number)
  | reply => reply

/-- An answer when the sessions have other numbers. -/
def Answer.rename (f : Nat → Nat) (a : Answer) : Answer :=
  { a with outcome := a.outcome.map (Reply.rename f) }

/-- What is the same act on a state is answered the same. -/
theorem Answer.reply_congr {σ : Type} {act act' : Act σ Reply} {s : σ}
    (h : act.run s = act'.run s) : reply act s = reply act' s := by
  rw [reply, show act s = act' s from h, reply]

theorem Answer.rename_reply {σ : Type} {act : Act σ Reply} {s : σ}
    (h : ∀ a s', act.run s = .ok a s' → a.rename f = a) :
    (reply act s).1.rename f = (reply act s).1 := by
  rw [reply]
  cases hact : act s with
  | ok a s' => exact congrArg (fun a => { outcome := Except.ok a : Answer }) (h a s' hact)
  | error e s' => rfl

theorem Answer.rename_ofDrain (d : Drain) : (ofDrain d).rename f = ofDrain d := by
  obtain ⟨events, ending⟩ := d
  cases ending <;> rfl

/-- No operation on a session replies with the number of one. -/
theorem SessionOp.rename_answer (b : Backend W) (f : Nat → Nat) (op : SessionOp) (s : Seat W) :
    (op.perform b s).1.rename f = (op.perform b s).1 := by
  have replied {β : Type} {act : Act (Seat W) β} {next : β → Act (Seat W) Reply}
      (h : ∀ a s reply s', (next a).run s = .ok reply s' → reply.rename f = reply) :
      (Answer.reply (act >>= next) s).1.rename f = (Answer.reply (act >>= next) s).1 := by
    refine Answer.rename_reply fun reply s' hrun => ?_
    rw [EStateM.run_bind] at hrun
    cases hact : act.run s with
    | ok a s₁ =>
      rw [hact] at hrun
      exact h a s₁ reply s' hrun
    | error e s₁ =>
      rw [hact] at hrun
      cases hrun
  have drained (act : Act (Seat W) Drain) :
      (Answer.drain act s).1.rename f = (Answer.drain act s).1 := by
    rw [Answer.drain]
    cases act s with
    | ok d => exact Answer.rename_ofDrain d
    | error e => rfl
  cases op with
  | pull | close | drop | collect => exact replied fun _ _ _ _ hrun => by cases hrun; rfl
  | next => exact replied fun event _ _ _ hrun => by cases event <;> cases hrun <;> rfl
  | take | scope => exact drained _

/-- An operation when the sessions have other numbers. -/
def EngineOp.rename (f : Nat → Nat) : EngineOp → EngineOp
  | .session number op => .session (f number) op
  | op => op

/-- Rooms with one desk, where session `k` of the first is session `f k` of the second. The second
may have sessions that the first has not. -/
structure Room.Renamed (f : Nat → Nat) (r r' : Room W) : Prop where
  desk : r'.toDesk = r.toDesk
  sessions : ∀ k, k < r.sessions.length → r'.sessions[f k]? = r.sessions[k]?
  /-- Sessions that are yet to come are numbered in the same order. -/
  fresh : ∀ i, f (r.sessions.length + i) = r'.sessions.length + i

/-- Pages on which the same happens to sessions with other numbers. -/
structure Page.Renamed (f : Nat → Nat) (p p' : Page W) : Prop where
  op : p'.op = p.op.rename f
  answer : p'.answer = p.answer.rename f
  calls : p'.calls = p.calls
  notices : p'.notices = p.notices
  before : p.before.Renamed f p'.before
  after : p.after.Renamed f p'.after

namespace Room.Renamed

variable {r r' : Room W}

theorem session? (h : Renamed f r r') (k : Nat) : r'.session? (f k) = r.session? k := by
  rw [Room.session?, Room.session?]
  rcases Nat.lt_or_ge k r.sessions.length with hk | hk
  · rw [h.sessions k hk]
  · obtain ⟨i, rfl⟩ := Nat.exists_eq_add_of_le hk
    rw [h.fresh, List.getElem?_eq_none (Nat.le_add_right _ i),
      List.getElem?_eq_none (Nat.le_add_right _ i)]

/-- The number of a session that is there names one that is there. -/
theorem lt_length (h : Renamed f r r') {k : Nat} (hk : k < r.sessions.length) :
    f k < r'.sessions.length := by
  have hsome := h.sessions k hk
  rw [List.getElem?_eq_getElem hk] at hsome
  exact (List.getElem?_eq_some_iff.1 hsome).1

theorem withDesk (h : Renamed f r r') (d : Desk W) :
    Renamed f { r with toDesk := d } { r' with toDesk := d } :=
  ⟨rfl, h.sessions, h.fresh⟩

/-- A new session. -/
theorem append (h : Renamed f r r') (s : Session) :
    Renamed f { r with sessions := r.sessions ++ [some s] }
      { r' with sessions := r'.sessions ++ [some s] } where
  desk := h.desk
  sessions k hk := by
    have hnext : f r.sessions.length = r'.sessions.length := h.fresh 0
    rw [List.length_append, List.length_singleton] at hk
    rcases Nat.lt_succ_iff_lt_or_eq.1 hk with hk | rfl
    · rw [List.getElem?_append_left hk, List.getElem?_append_left (h.lt_length hk),
        h.sessions k hk]
    · simp [hnext]
  fresh i := by
    have hnext := h.fresh (1 + i)
    rw [← Nat.add_assoc, ← Nat.add_assoc] at hnext
    simpa only [List.length_append, List.length_singleton] using hnext

/-- A session that is put in its place. -/
theorem set (hf : f.Injective) (h : Renamed f r r') (n : Nat) (place : Option Session) :
    Renamed f { r with sessions := r.sessions.set n place }
      { r' with sessions := r'.sessions.set (f n) place } where
  desk := h.desk
  sessions k hk := by
    rw [List.length_set] at hk
    rw [List.getElem?_set, List.getElem?_set]
    by_cases hkn : n = k
    · subst hkn
      simp [hk, h.lt_length hk]
    · rw [if_neg hkn, if_neg (fun h => hkn (hf h)), h.sessions k hk]
  fresh i := by
    simp only [List.length_set]
    exact h.fresh i

/-- An operation of the controller does not depend on the sessions. -/
theorem onDesk (h : Renamed f r r') (act : Act (Desk W) α) {reply : α → Reply}
    (hreply : ∀ a, (reply a).rename f = reply a) :
    let p (r : Room W) := Answer.reply (do return reply (← Room.onDesk act)) r
    (p r').1 = (p r).1.rename f ∧ Renamed f (p r).2 (p r').2 := by
  intro p
  obtain ⟨o, d, hrun⟩ : ∃ o d, act.run r.toDesk = Act.result o d := by
    cases hrun : act.run r.toDesk with
    | ok a d => exact ⟨.ok a, d, rfl⟩
    | error e d => exact ⟨.error e, d, rfl⟩
  have hp {r : Room W} (hrun : act.run r.toDesk = Act.result o d) :
      p r = ({ outcome := o.map reply }, { r with toDesk := d }) := by
    refine Answer.reply_of_run ?_
    rw [EStateM.run_bind, Room.onDesk, Act.run_focus, hrun]
    cases o <;> rfl
  rw [hp hrun, hp (h.desk ▸ hrun)]
  refine ⟨?_, h.withDesk d⟩
  cases o with
  | ok a => exact congrArg (fun a => { outcome := Except.ok a : Answer }) (hreply a).symm
  | error e => rfl

variable (b : Backend W) (config : EngineConfig)

theorem submit (h : Renamed f r r') (kind : InputKind) (input : Submission)
    (choice : Option Bool) :
    let op := EngineOp.submit kind input choice
    (op.perform b config r').1 = (op.perform b config r).1.rename f ∧
      Renamed f (op.perform b config r).2 (op.perform b config r').2 := by
  intro op
  have perform {o : Except Failure Reply} {r r₁ : Room W}
      (hrun : (Room.submit b config kind input choice).run r = Act.result o r₁) :
      op.perform b config r = ({ outcome := o }, r₁) := Answer.reply_of_run hrun
  cases hc : r.controller.closed with
  | true =>
    have hc' : r'.controller.closed = true := h.desk ▸ hc
    rw [perform (o := .error _) (EngineOp.run_submit_closed b config kind input choice hc),
      perform (o := .error _) (EngineOp.run_submit_closed b config kind input choice hc')]
    exact ⟨rfl, h⟩
  | false =>
    have hc' : r'.controller.closed = false := h.desk ▸ hc
    cases input with
    | other typeName =>
      rw [perform (o := .error _) (EngineOp.run_submit_other b config kind typeName choice hc),
        perform (o := .error _) (EngineOp.run_submit_other b config kind typeName choice hc')]
      exact ⟨rfl, h⟩
    | bytes payload =>
      cases hcollect : config.collects choice with
      | false =>
        rw [EngineOp.perform_opened b kind payload hc hcollect,
          EngineOp.perform_opened b kind payload hc' hcollect]
        refine ⟨?_, h.append _⟩
        have hnext : f r.sessions.length = r'.sessions.length := h.fresh 0
        rw [← hnext]
        rfl
      | true =>
        have collected {r : Room W} (hc : r.controller.closed = false) :
            op.perform b config r = Answer.reply (do
              return .collected (← Room.collectFresh b (config.session kind payload))) r := by
          have hrun := EngineOp.run_submit_bytes b config kind payload choice hc
          rw [hcollect] at hrun
          exact Answer.reply_congr hrun
        rw [collected hc, collected hc']
        exact h.onDesk _ fun _ => rfl

/-- An operation does the same to sessions with other numbers. -/
theorem perform (hf : f.Injective) (h : Renamed f r r') (op : EngineOp) :
    ((op.rename f).perform b config r').1 = (op.perform b config r).1.rename f ∧
      Renamed f (op.perform b config r).2 ((op.rename f).perform b config r').2 := by
  cases op with
  | submit kind input choice => exact h.submit b config kind input choice
  | store path => exact h.onDesk (do Desk.store b path) fun _ => rfl
  | shutdown => exact h.onDesk (Desk.shutdown b) fun _ => rfl
  | session n op =>
    have hn := h.session? n
    change ((EngineOp.session (f n) op).perform b config r').1 = _ ∧
      Renamed f _ ((EngineOp.session (f n) op).perform b config r').2
    cases hs : r.session? n with
    | none =>
      rw [EngineOp.perform_session_none b config hs,
        EngineOp.perform_session_none b config (hn.trans hs)]
      exact ⟨rfl, h⟩
    | some s =>
      rw [EngineOp.perform_session b config hs, EngineOp.perform_session b config (hn.trans hs),
        h.desk]
      exact ⟨(op.rename_answer b f _).symm, ((h.withDesk _).set hf n _)⟩

theorem page (hf : f.Injective) (h : Renamed f r r') (op : EngineOp) :
    (op.page b config r).Renamed f ((op.rename f).page b config r') := by
  obtain ⟨hanswer, hafter⟩ := h.perform b config hf op
  refine ⟨rfl, hanswer, ?_, ?_, h, hafter⟩
  · change List.drop r'.calls.length ((op.rename f).perform b config r').2.calls = _
    rw [h.desk, hafter.desk]
    rfl
  · change List.drop r'.notices.length ((op.rename f).perform b config r').2.notices = _
    rw [h.desk, hafter.desk]
    rfl

/-- A run does the same to sessions with other numbers. -/
theorem journal (hf : f.Injective) (h : Renamed f r r') (ops : List EngineOp) :
    List.Forall₂ (Page.Renamed f) (EngineOp.journal b config ops r)
      (EngineOp.journal b config (ops.map (EngineOp.rename f)) r') := by
  induction ops generalizing r r' with
  | nil => exact .nil
  | cons op ops ih => exact .cons (h.page b config hf op) (ih (h.perform b config hf op).2)

end Room.Renamed

/-! ## A new session in the place of an old one -/

namespace Room

variable {r : Room W} {n : Nat} {t : Session}

/-- The room with another session, made on the same controller for the same input. -/
def remade (b : Backend W) (t : Session) (r : Room W) : Room W :=
  ((RoomOp.makeSession t.kind t.isolation t.payload).perform b r).2

/-- Session `m`, the last that was made, stands in for session `n`. -/
def standIn (n m k : Nat) : Nat :=
  if k = n then m else if k < m then k else k + 1

theorem standIn_injective (n m : Nat) : (standIn n m).Injective := by
  intro j k h
  unfold standIn at h
  split_ifs at h <;> omega

/-- A session that has not begun is as good as new. -/
theorem sessions_remade (b : Backend W) (ht : t.phase = .start) :
    (r.remade b t).sessions = r.sessions ++ [some t] := by
  obtain ⟨kind, payload, isolation, phase⟩ := t
  obtain rfl : phase = .start := ht
  rfl

/-- A new session in the place of one that has not begun. -/
theorem renamed_standIn (b : Backend W) (hn : r.session? n = some t) (ht : t.phase = .start) :
    Renamed (standIn n r.sessions.length) r (r.remade b t) where
  desk := rfl
  sessions k hk := by
    rw [sessions_remade b ht, standIn]
    split
    · next hkn => simp [hkn, Option.join_eq_some_iff.1 hn]
    · rw [List.getElem?_append_left hk]
  fresh i := by
    have hlt := lt_length hn
    rw [sessions_remade b ht, List.length_append, List.length_singleton, standIn,
      if_neg (by omega), if_neg (by omega)]
    omega

/-- A new session and one that has not begun, each in the place of the other. -/
theorem renamed_swap (b : Backend W) (hn : r.session? n = some t) (ht : t.phase = .start) :
    Renamed (Equiv.swap n r.sessions.length) (r.remade b t) (r.remade b t) where
  desk := rfl
  sessions k hk := by
    have hlt := lt_length hn
    have hold : (r.sessions ++ [some t])[n]? = some (some t) := by
      rw [List.getElem?_append_left hlt, Option.join_eq_some_iff.1 hn]
    have hnew : (r.sessions ++ [some t])[r.sessions.length]? = some (some t) := by simp
    rw [sessions_remade b ht]
    by_cases hkn : k = n
    · rw [hkn, Equiv.swap_apply_left, hnew, hold]
    · by_cases hkm : k = r.sessions.length
      · rw [hkm, Equiv.swap_apply_right, hnew, hold]
      · rw [Equiv.swap_apply_of_ne_of_ne hkn hkm]
  fresh i := by
    have hlt := lt_length hn
    rw [sessions_remade b ht, List.length_append, List.length_singleton]
    exact Equiv.swap_apply_of_ne_of_ne (by omega) (by omega)

end Room

/-! ## Starts that fail -/

/-- A session that cannot open its transaction stays as it is. -/
theorem Seat.run_pull_of_begin (b : Backend W) {s : Seat W} {e : Failure} {d : Desk W}
    (h : s.session.phase = .start)
    (hb : (Desk.begin b s.session.isolation).run s.toDesk = .error e d) :
    (pull b).run s = .error e { s with toDesk := d } := by
  rw [run_pull_start b h, EStateM.run_bind, start, EStateM.run_bind, EStateM.run_get]
  dsimp only
  rw [EStateM.run_bind, run_onDesk, hb]
  rfl

/-- So does every operation that pulls it, unless it closes it as well. -/
theorem SessionOp.perform_of_begin (b : Backend W) {s : Seat W} {e : Failure} {d : Desk W}
    {op : SessionOp} (h : s.session.phase = .start)
    (hb : (Desk.begin b s.session.isolation).run s.toDesk = .error e d) (hop : op.pulls = true)
    (hopen : op.closes = false) :
    op.perform b s = ({ outcome := .error e }, { s with toDesk := d }) := by
  have hpull := Seat.run_pull_of_begin b h hb
  cases op with
  | pull =>
    refine Answer.reply_of_run (o := .error e) ?_
    rw [EStateM.run_bind, hpull]
    rfl
  | next =>
    refine Answer.reply_of_run (o := .error e) ?_
    rw [EStateM.run_bind, hpull]
    rfl
  | take limit =>
    have hl : limit ≠ some 0 := by simpa [pulls] using hop
    exact Answer.drain_of_run (Seat.run_take_of_last (o := .error e) hl hpull)
  | scope | collect => cases hopen
  | close | drop => cases hop

/-- An operation fails with `e` because session `n`, which is `t`, could not open its transaction.
All that is left of it is a call that raised. -/
structure Page.Retryable (b : Backend W) (config : EngineConfig) (n : Nat) (t : Session)
    (e : Failure) (p : Page W) : Prop where
  answer : p.answer = { outcome := .error e }
  /-- The transaction was refused, or the canonical machine could not be forked. -/
  refused : p.before.controller.Begins t.isolation p.calls p.notices (.error e) p.after.controller
  controller : p.after.controller = p.before.controller
  sessions : p.after.sessions = p.before.sessions
  /-- Nothing is sent. -/
  calls : ∀ x ∈ p.calls, ∃ error, x = .fork p.before.controller.canonical (.error error)
  /-- Whatever is done later, it may as well be done with a new session. -/
  resumed : ∀ later, let f := Room.standIn n p.after.sessions.length
    List.Forall₂ (Page.Renamed f) (EngineOp.journal b config later p.after)
      (EngineOp.journal b config (later.map (.rename f)) (p.after.remade b t))
  /-- Where there is a new session, the two may change places. -/
  exchanged : ∀ later, let f := Equiv.swap n p.after.sessions.length
    List.Forall₂ (Page.Renamed f) (EngineOp.journal b config later (p.after.remade b t))
      (EngineOp.journal b config (later.map (.rename f)) (p.after.remade b t))

namespace EngineOp

/-- A pull that fails because no transaction could be opened leaves a session that can be pulled
again: it and a new one are interchangeable. -/
theorem page_retryable (b : Backend W) (config : EngineConfig) {n : Nat} {t : Session}
    {r : Room W} {op : SessionOp} {e : Failure} {d : Desk W} (hn : r.session? n = some t)
    (ht : t.phase = .start) (hop : op.pulls = true) (hopen : op.closes = false)
    (hb : (Desk.begin b t.isolation).run r.toDesk = .error e d) :
    ((session n op).page b config r).Retryable b config n t e := by
  have hseat := SessionOp.perform_of_begin b (s := ⟨r.toDesk, t⟩) ht hb hop hopen
  have hkeeps : op.keeps = true := by cases op <;> first | rfl | cases hop
  have hperform := perform_session b config hn op
  rw [hseat, hkeeps, if_pos rfl, Room.sessions_set_self hn] at hperform
  -- the page is that of an operation which leaves the desk `d` and the sessions as they were
  obtain ⟨xs, ns, o, d', hrun, hbegins⟩ := Desk.begin_cases b t.isolation r.toDesk
  obtain ⟨rfl, rfl⟩ : o = .error e ∧ d' = d := Act.result_inj (hrun.run.symm.trans hb)
  have hanswer : ((session n op).page b config r).answer = { outcome := .error e } :=
    congrArg Prod.fst hperform
  have hafter : ((session n op).page b config r).after = { r with toDesk := d' } :=
    congrArg Prod.snd hperform
  have hsite : r.toSite.Follows b xs ns ((session n op).page b config r).after.toSite := by
    rw [hafter]
    exact hrun.follows
  have hcalls : ((session n op).page b config r).calls = xs := Page.calls_of_follows hsite
  have hnotices : ((session n op).page b config r).notices = ns := Page.notices_of_follows hsite
  have hn' : ((session n op).page b config r).after.session? n = some t := by
    rw [hafter]
    exact hn
  refine
    { answer := hanswer, refused := ?refused, controller := ?controller, sessions := ?sessions,
      calls := ?calls, resumed := ?resumed, exchanged := ?exchanged }
  case refused =>
    rw [hcalls, hnotices, hafter]
    exact hbegins
  case controller =>
    rw [hafter]
    exact hbegins.eq_of_error
  case sessions => rw [hafter]; rfl
  case calls =>
    rw [hcalls]
    intro x hx
    generalize d'.controller = c at hbegins
    cases hbegins with
    | closed | busy => cases hx
    | failed _ _ error | interrupted _ _ error => exact ⟨error, List.mem_singleton.1 hx⟩
  case resumed =>
    exact (Room.renamed_standIn b hn' ht).journal b config (Room.standIn_injective _ _)
  case exchanged =>
    exact (Room.renamed_swap b hn' ht).journal b config (Equiv.injective _)

/-- An advance whose fork fails at first. -/
theorem unforked_retryable :
    let b := Scripted.backend
    let program := Scripted.Program.script [.automatic .output [1], .manual .accepted [3]]
    let error : Error := .fault "runtime" "no room"
    let site : Site Scripted.World :=
      { world := .ofLedger [] [program] [⟨.fork, 1, error⟩] }
    let r := run b {} [.submit .advance (.bytes [5]) none] (.opening 0 site)
    let t : Session := { kind := .advance, payload := [5] }
    r.session? 0 = some t ∧
      ((session 0 .pull).page b {} r).Retryable b {} 0 t (.fatalFrom "fork failed: " [] error) := by
  intro b program error site r t
  have hbegin : (Desk.begin b .isolated).run r.toDesk =
      .error (.fatalFrom "fork failed: " [] error) (Act.final (Desk.begin b .isolated) r.toDesk) :=
    rfl
  exact ⟨rfl, page_retryable b {} rfl rfl rfl rfl hbegin⟩

end EngineOp

end RollupEngine
