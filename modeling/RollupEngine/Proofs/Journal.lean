import RollupEngine.Proofs.Link

/-!
# The journal of a run

A run of an engine leaves a room; its journal (`EngineOp.journal`) keeps what happened on the way.
It has a `Page` for every operation, with the answer and with the rooms before and after. The calls
and notices of an operation are what it added to the record of the site (`Page.calls`,
`Page.notices`). What happened to one session is read off the pages of the operations on it
(`sessionCalls`, `sessionNotices`, `sessionAnswers`).

`EngineOp.run_journal` carries what every operation keeps, of a journal and the room it led to,
along a run. For what is true of a session and its share of the journal (`Shares`),
`EngineOp.Does.shares` leaves two things to show: it is true of a new session, and a path keeps it.
-/

namespace RollupEngine

variable {W : Type}

/-! ## Pages -/

/-- An operation in the course of a run. -/
structure Page (W : Type) where
  op : EngineOp
  answer : Answer
  before : Room W
  after : Room W

namespace Page

/-- The calls that an operation made. -/
def calls (p : Page W) : List Exchange :=
  p.after.calls.drop p.before.calls.length

/-- The notices that an operation made. -/
def notices (p : Page W) : List Notice :=
  p.after.notices.drop p.before.notices.length

variable {b : Backend W} {p : Page W} {xs : List Exchange} {ns : List Notice}

theorem calls_of_follows (h : p.before.toSite.Follows b xs ns p.after.toSite) : p.calls = xs := by
  rw [calls, h.calls, List.drop_left]

theorem calls_eq_nil (h : p.after.toSite = p.before.toSite) : p.calls = [] := by
  rw [calls, h, List.drop_length]

theorem notices_of_follows (h : p.before.toSite.Follows b xs ns p.after.toSite) :
    p.notices = ns := by
  rw [notices, h.notices, List.drop_left]

end Page

namespace EngineOp

/-- The session that an operation is on, by its number. -/
def number? : EngineOp → Option Nat
  | .session number _ => some number
  | _ => none

/-- Whether an operation is on the session with a number. -/
def isOn (number : Nat) (op : EngineOp) : Bool :=
  op.number? = some number

theorem isOn_session {number n : Nat} {op : SessionOp} :
    (session number op).isOn n = true ↔ number = n := by
  simp [isOn, number?]

theorem exists_eq_session_of_isOn {op : EngineOp} {n : Nat} (h : op.isOn n = true) :
    ∃ sop, op = .session n sop := by
  cases op with
  | submit | store | shutdown => cases h
  | session m sop =>
    obtain rfl := isOn_session.1 h
    exact ⟨sop, rfl⟩

/-- The page of an operation. -/
def page (b : Backend W) (config : EngineConfig) (op : EngineOp) (r : Room W) : Page W where
  op := op
  answer := (op.perform b config r).1
  before := r
  after := (op.perform b config r).2

/-- The calls of an operation on a session are those that it makes there. -/
theorem calls_of_session (b : Backend W) (config : EngineConfig) {r : Room W} {n : Nat}
    {s : Session} {op : SessionOp} (hn : r.session? n = some s) {xs : List Exchange}
    {ns : List Notice}
    (h : r.toSite.Follows b xs ns (op.perform b ⟨r.toDesk, s⟩).2.site) :
    ((session n op).page b config r).calls = xs := by
  have hsite : r.toSite.Follows b xs ns ((session n op).perform b config r).2.toSite := by
    rw [perform_session b config hn]
    exact h
  exact Page.calls_of_follows hsite

/-- A page for every operation of a run. -/
def journal (b : Backend W) (config : EngineConfig) : List EngineOp → Room W → List (Page W)
  | [], _ => []
  | op :: ops, r => op.page b config r :: journal b config ops (op.perform b config r).2

end EngineOp

/-! ## The share of a session -/

/-- The calls that the operations on a session made. -/
def sessionCalls (number : Nat) (js : List (Page W)) : List Exchange :=
  (js.filter fun p => p.op.isOn number).flatMap Page.calls

/-- The notices that the operations on a session made. -/
def sessionNotices (number : Nat) (js : List (Page W)) : List Notice :=
  (js.filter fun p => p.op.isOn number).flatMap Page.notices

/-- The answers to the operations on a session. -/
def sessionAnswers (number : Nat) (js : List (Page W)) : List Answer :=
  (js.filter fun p => p.op.isOn number).map Page.answer

section

variable {number : Nat} {js : List (Page W)} {p : Page W}

theorem sessionAnswers_cons_of_isOn (h : p.op.isOn number = true) :
    sessionAnswers number (p :: js) = p.answer :: sessionAnswers number js := by
  simp [sessionAnswers, h]

theorem sessionAnswers_cons (h : p.op.isOn number = false) :
    sessionAnswers number (p :: js) = sessionAnswers number js := by
  simp [sessionAnswers, h]

theorem sessionCalls_cons_of_isOn (h : p.op.isOn number = true) :
    sessionCalls number (p :: js) = p.calls ++ sessionCalls number js := by
  simp [sessionCalls, h]

theorem sessionCalls_cons (h : p.op.isOn number = false) :
    sessionCalls number (p :: js) = sessionCalls number js := by
  simp [sessionCalls, h]

theorem sessionCalls_concat_of_isOn (h : p.op.isOn number = true) :
    sessionCalls number (js ++ [p]) = sessionCalls number js ++ p.calls := by
  simp [sessionCalls, List.filter_append, h]

theorem sessionCalls_concat (h : p.op.isOn number = false) :
    sessionCalls number (js ++ [p]) = sessionCalls number js := by
  simp [sessionCalls, List.filter_append, h]

theorem sessionNotices_concat_of_isOn (h : p.op.isOn number = true) :
    sessionNotices number (js ++ [p]) = sessionNotices number js ++ p.notices := by
  simp [sessionNotices, List.filter_append, h]

theorem sessionNotices_concat (h : p.op.isOn number = false) :
    sessionNotices number (js ++ [p]) = sessionNotices number js := by
  simp [sessionNotices, List.filter_append, h]

end

/-- `P` is true of every session that was made, as it is or was when it was let go, and of its share
of the journal. -/
structure Shares (P : Session → List Exchange → List Notice → Prop) (js : List (Page W))
    (r : Room W) : Prop where
  share : ∀ n, n < r.sessions.length → ∃ s, P s (sessionCalls n js) (sessionNotices n js) ∧
    ∀ s', r.session? n = some s' → s' = s
  unborn : ∀ n, r.sessions.length ≤ n → sessionCalls n js = [] ∧ sessionNotices n js = []

namespace Shares

variable {P : Session → List Exchange → List Notice → Prop} {js ks : List (Page W)} {r r' : Room W}

theorem opening (P : Session → List Exchange → List Notice → Prop) (machine : Handle)
    (s : Site W) : Shares P [] (.opening machine s) where
  share n hn := absurd hn (Nat.not_lt_zero n)
  unborn _ _ := ⟨rfl, rfl⟩

theorem of_session (h : Shares P js r) {n : Nat} {s : Session} (hn : r.session? n = some s) :
    P s (sessionCalls n js) (sessionNotices n js) := by
  obtain ⟨t, ht, heq⟩ := h.share n (Room.lt_length hn)
  rw [heq s hn]
  exact ht

theorem congr (h : Shares P js r) (hs : r'.sessions = r.sessions)
    (hcalls : ∀ n, sessionCalls n ks = sessionCalls n js)
    (hnotices : ∀ n, sessionNotices n ks = sessionNotices n js) : Shares P ks r' := by
  have hsession (n : Nat) : r'.session? n = r.session? n := by
    rw [Room.session?, hs, Room.session?]
  refine ⟨fun n hn => ?_, fun n hn => ?_⟩
  · rw [hcalls, hnotices, hsession]
    exact h.share n (hs ▸ hn)
  · rw [hcalls, hnotices]
    exact h.unborn n (hs ▸ hn)

end Shares

/-! ## Runs -/

namespace EngineOp

variable {b : Backend W} {config : EngineConfig}

theorem run_concat (ops : List EngineOp) (op : EngineOp) (r : Room W) :
    run b config (ops ++ [op]) r = (op.perform b config (run b config ops r)).2 :=
  List.foldl_append

theorem journal_concat (ops : List EngineOp) (op : EngineOp) (r : Room W) :
    journal b config (ops ++ [op]) r =
      journal b config ops r ++ [op.page b config (run b config ops r)] := by
  induction ops generalizing r with
  | nil => rfl
  | cons first ops ih => exact congrArg (first.page b config r :: ·) (ih _)

/-- What every operation keeps, of a journal and the room that it led to, holds along a run. -/
theorem run_journal {p : List (Page W) → Room W → Prop}
    (step : ∀ {js r} op {xs ns fs}, Does b config r op xs ns fs (op.perform b config r).2 →
      (op.page b config r).calls = xs → (op.page b config r).notices = ns → p js r →
      p (js ++ [op.page b config r]) (op.perform b config r).2)
    (ops : List EngineOp) {js : List (Page W)} {r : Room W} (h : p js r) :
    p (js ++ journal b config ops r) (run b config ops r) := by
  induction ops generalizing js r with
  | nil => simpa [journal] using h
  | cons op ops ih =>
    obtain ⟨xs, ns, fs, hdoes, -⟩ := op.does b config r
    have hcalls : (op.page b config r).calls = xs := Page.calls_of_follows hdoes.follows
    have hnotices : (op.page b config r).notices = ns := Page.notices_of_follows hdoes.follows
    have hrest := ih (step op hdoes hcalls hnotices h)
    rwa [List.append_assoc] at hrest

/-- An operation leaves a session alone that it is not on, unless it makes the session. -/
theorem Does.session?_cases {op : EngineOp} {r r' : Room W} {xs : List Exchange} {ns : List Notice}
    {fs : List Failure} {n : Nat} (h : Does b config r op xs ns fs r') (hop : op.isOn n = false) :
    r'.session? n = r.session? n ∨
      n = r.sessions.length ∧
        ∃ kind payload, r'.session? n = some (config.session kind payload) := by
  cases h with
  | closed | notBytes | absent | collected | stored | shutDown => exact .inl rfl
  | @opened kind payload =>
    rw [Room.session?_append]
    split
    · next hn => exact .inr ⟨hn, kind, payload, rfl⟩
    · exact .inl rfl
  | @walked m sop _ _ _ _ _ hm =>
    have hne : n ≠ m := by
      rintro rfl
      rw [isOn_session.2 rfl] at hop
      cases hop
    rw [Room.session?_set hm, if_neg hne]
    exact .inl rfl

/-- A session that is there stays as it is when an operation is not on it. -/
theorem Does.session?_of_some {op : EngineOp} {r r' : Room W} {xs : List Exchange}
    {ns : List Notice} {fs : List Failure} {n : Nat} {s : Session}
    (h : Does b config r op xs ns fs r') (hop : op.isOn n = false) (hs : r.session? n = some s) :
    r'.session? n = some s := by
  rcases h.session?_cases hop with hsame | ⟨rfl, -⟩
  · exact hsame.trans hs
  · exact absurd (Room.lt_length hs) (Nat.lt_irrefl _)

/-- What is true of a new session, and kept by every path, stays true of every session and its share
of the journal. -/
theorem Does.shares {P : Session → List Exchange → List Notice → Prop} {js : List (Page W)}
    {op : EngineOp} {r r' : Room W} {xs : List Exchange} {ns : List Notice} {fs : List Failure}
    (h : Does b config r op xs ns fs r') (hcalls : (op.page b config r).calls = xs)
    (hnotices : (op.page b config r).notices = ns)
    (hstart : ∀ kind payload, P (config.session kind payload) [] [])
    (hpath : ∀ {n s s' ys ms}, r.session? n = some s → Seat.Path b ⟨r.toDesk, s⟩ xs ns fs s' →
      P s ys ms → P s'.session (ys ++ xs) (ms ++ ns))
    (hr : Shares P js r) : Shares P (js ++ [op.page b config r]) r' := by
  have quiet {n : Nat} (hop : op.isOn n = false) :
      sessionCalls n (js ++ [op.page b config r]) = sessionCalls n js ∧
        sessionNotices n (js ++ [op.page b config r]) = sessionNotices n js :=
    ⟨sessionCalls_concat hop, sessionNotices_concat hop⟩
  cases h with
  | closed | notBytes | collected | stored | shutDown =>
    exact hr.congr rfl (fun _ => (quiet rfl).1) fun _ => (quiet rfl).2
  | @absent m sop =>
    refine hr.congr rfl (fun n => ?_) fun n => ?_ <;> cases hop : (session m sop).isOn n
    · exact sessionCalls_concat hop
    · rw [sessionCalls_concat_of_isOn hop, hcalls, List.append_nil]
    · exact sessionNotices_concat hop
    · rw [sessionNotices_concat_of_isOn hop, hnotices, List.append_nil]
  | @opened kind payload =>
    refine ⟨fun n hn => ?_, fun n hn => ?_⟩ <;> rw [(quiet rfl).1, (quiet rfl).2] <;>
      rw [List.length_append, List.length_singleton] at hn
    · rcases Nat.lt_or_ge n r.sessions.length with hlt | hge
      · obtain ⟨s, hs, heq⟩ := hr.share n hlt
        refine ⟨s, hs, fun s' hs' => heq s' ?_⟩
        rwa [Room.session?_append, if_neg (Nat.ne_of_lt hlt)] at hs'
      · obtain ⟨hnone, hquiet⟩ := hr.unborn n hge
        rw [hnone, hquiet]
        refine ⟨_, hstart kind payload, fun s' hs' => ?_⟩
        rw [Room.session?_append, if_pos (by omega)] at hs'
        exact (Option.some.inj hs').symm
    · exact hr.unborn n (Nat.le_of_succ_le hn)
  | @walked m sop s _ _ _ s' hm _ path =>
    have hother {n : Nat} (hn : n ≠ m) : (session m sop).isOn n = false :=
      Bool.eq_false_iff.2 fun hop => hn (isOn_session.1 hop).symm
    refine ⟨fun n hn => ?_, fun n hn => ?_⟩ <;> rw [List.length_set] at hn
    · by_cases hmn : n = m
      · have hop : (session m sop).isOn n = true := isOn_session.2 hmn.symm
        rw [sessionCalls_concat_of_isOn hop, sessionNotices_concat_of_isOn hop, hcalls, hnotices]
        subst hmn
        refine ⟨s'.session, hpath hm path (hr.of_session hm), fun t ht => ?_⟩
        rw [Room.session?_set hm, if_pos rfl] at ht
        cases hkeeps : sop.keeps with
        | true =>
          rw [hkeeps, if_pos rfl] at ht
          exact (Option.some.inj ht).symm
        | false =>
          rw [hkeeps] at ht
          cases ht
      · rw [(quiet (hother hmn)).1, (quiet (hother hmn)).2]
        obtain ⟨t, ht, heq⟩ := hr.share n hn
        refine ⟨t, ht, fun t' ht' => heq t' ?_⟩
        rwa [Room.session?_set hm, if_neg hmn] at ht'
    · have hmn : n ≠ m := Nat.ne_of_gt (Nat.lt_of_lt_of_le (Room.lt_length hm) hn)
      rw [(quiet (hother hmn)).1, (quiet (hother hmn)).2]
      exact hr.unborn n hn

end EngineOp

end RollupEngine
