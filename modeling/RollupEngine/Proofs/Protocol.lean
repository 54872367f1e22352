import RollupEngine.Proofs.Journal
import RollupEngine.Proofs.Session.Rest
import RollupEngine.Proofs.Session.Word
import RollupEngine.Scripted.World

/-!
# The protocol of machine calls

All calls that an engine makes, whatever is done to it and its sessions, form a chronicle: whole
words of sessions, and stores of the canonical machine between them (`Chronicle`). Only the last
word may be unfinished, and then its session runs; a release of the canonical machine comes last, if
the engine was shut down (`Spoken`).

Every call is made on behalf of an author (`EngineOp.author`), so that a word belongs to one
session, and what is sent is what was submitted for it. A session that began has sent its input
exactly once (`Phase.Sent`). `EngineOp.run_obeys` says all this of every run whose machines raise no
interrupts.
-/

namespace RollupEngine

variable {W : Type}

/-! ## Authors -/

/-- On whose behalf a call is made. -/
inductive Author where
  /-- A session, with its number if it was handed out. -/
  | session (number : Option Nat) (kind : InputKind) (payload : Bytes)
  | engine (op : EngineOp)

/-- The author of the calls of a session. -/
def Session.author (s : Session) (number : Option Nat) : Author :=
  .session number s.kind s.payload

/-- The author of the calls of an operation. -/
def EngineOp.author (r : Room W) : EngineOp → Author
  | .submit kind (.bytes payload) _ => .session none kind payload
  | .session n op =>
    match r.session? n with
    | some s => s.author n
    | none => .engine (.session n op)
  | op => .engine op

/-- The calls of a journal, with their authors. -/
def record (js : List (Page W)) : List (Author × Exchange) :=
  js.flatMap fun p => p.calls.map (p.op.author p.before, ·)

/-- The calls `xs`, all on behalf of the same author. -/
def Author.makes (a : Author) (xs : List Exchange) : List (Author × Exchange) :=
  xs.map (a, ·)

theorem Author.makes_nil (a : Author) : a.makes [] = [] := rfl

theorem Author.makes_append (a : Author) (xs ys : List Exchange) :
    a.makes (xs ++ ys) = a.makes xs ++ a.makes ys :=
  List.map_append

theorem Author.map_makes (a : Author) (xs : List Exchange) : (a.makes xs).map Prod.snd = xs := by
  simp [makes, Function.comp_def]

theorem record_concat (js : List (Page W)) (p : Page W) :
    record (js ++ [p]) = record js ++ (p.op.author p.before).makes p.calls := by
  simp [record, Author.makes]

/-! ## Chronicles -/

/-- Calls of an engine around the machine `machine`, up to a time at which no transaction is open,
and the machine that is canonical then. -/
inductive Chronicle (mode : Isolation) (machine : Handle) :
    List (Author × Exchange) → Handle → Prop
  | nil : Chronicle mode machine [] machine
  | word {past : List (Author × Exchange)} {canonical canonical' : Handle} {xs : List Exchange}
      (h : Chronicle mode machine past canonical) (number : Option Nat) {kind : InputKind}
      {payload : Bytes} (hw : Word mode kind payload canonical xs canonical') :
    Chronicle mode machine (past ++ (Author.session number kind payload).makes xs) canonical'
  | stored {past : List (Author × Exchange)} {canonical : Handle}
      (h : Chronicle mode machine past canonical) (path : String) (reply : Except Error Unit) :
    Chronicle mode machine
      (past ++ (Author.engine (.store path)).makes [.store canonical path reply]) canonical

/-- All calls that led to a room. -/
inductive Spoken (mode : Isolation) (machine : Handle) :
    List (Author × Exchange) → Room W → Prop
  | idle {r : Room W} {past : List (Author × Exchange)}
      (h : Chronicle mode machine past r.controller.canonical) (hc : r.controller.Idle) :
    Spoken mode machine past r
  /-- Session `n` runs, and is in the midst of its word. -/
  | amid {r : Room W} {past : List (Author × Exchange)} {n : Nat} {s : Session}
      {t : Transaction} {xs : List Exchange}
      (h : Chronicle mode machine past r.controller.canonical) (hn : r.session? n = some s)
      (hp : s.phase = .running t.working) (ht : r.controller.transaction = some t)
      (begun : Begun mode s.kind s.payload r.controller.canonical t.working xs) :
    Spoken mode machine (past ++ (s.author n).makes xs) r
  /-- The engine was shut down. -/
  | closed {r : Room W} {past : List (Author × Exchange)}
      (h : Chronicle mode machine past r.controller.canonical) (hc : r.controller.closed = true)
      (reply : Except Error Unit) :
    Spoken mode machine (past ++
      (Author.engine .shutdown).makes [.shutdown r.controller.canonical reply]) r

/-! ## Words on a path -/

namespace Session

variable {s : Session} {c c' : Controller} {p : Phase} {xs : List Exchange} {ns : List Notice}
  {fs : List Failure} {f : Failure}

/-- A session that is refused does not begin. -/
theorem Moves.of_refused (h : s.Moves c xs ns fs c' p) (hs : s.phase = .start)
    (hf : c.refusal? = some f) : xs = [] ∧ c' = c ∧ (p = .start ∨ p.done = true) := by
  have busy := Controller.not_idle_of_refusal hf
  have closes {o : Except Failure Unit} {ns : List Notice} (hclose : s.Closes c xs ns o c' p) :
      xs = [] ∧ c' = c ∧ (p = .start ∨ p.done = true) := by
    cases hclose with
    | fresh => exact ⟨rfl, rfl, .inr rfl⟩
    | done hd => exact ⟨rfl, rfl, .inr hd⟩
    | running hp => cases hs.symm.trans hp
  cases h with
  | start _ h =>
    cases h with
    | refused hb =>
      cases hb with
      | closed | busy => exact ⟨rfl, rfl, .inl rfl⟩
      | failed h | interrupted h => exact absurd h busy
    | sent hb | interrupted hb | failed hb => exact absurd hb.idle busy
  | turn hp => cases hs.symm.trans hp
  | close h | abandon h => exact closes h

end Session

namespace Seat

variable {b : Backend W} {s s' : Seat W} {xs ys own : List Exchange} {ns : List Notice}
  {fs : List Failure} {foreign : Option Transaction} {number : Option Nat} {machine : Handle}
  {record : List (Author × Exchange)}

theorem Path.of_refused {f : Failure} (h : Path b s xs ns fs s') (hs : s.session.phase = .start)
    (hf : s.controller.refusal? = some f) : xs = [] ∧ s'.controller = s.controller := by
  induction h with
  | refl => exact ⟨rfl, rfl⟩
  | step head tail ih =>
    obtain ⟨rfl, hc, hp⟩ := head.moves.of_refused hs hf
    rcases hp with hp | hp
    · obtain ⟨rfl, hc'⟩ := ih hp (by rw [hc]; exact hf)
      exact ⟨rfl, hc'.trans hc⟩
    · obtain ⟨rfl, -, -, hc', -⟩ := tail.of_done hp
      exact ⟨rfl, hc'.trans hc⟩

/-- The calls that led to a seat are a chronicle, and what the session there has said since. -/
def Speaks (number : Option Nat) (machine : Handle) (record : List (Author × Exchange))
    (s : Seat W) : Prop :=
  ∃ past xs, record = past ++ (s.session.author number).makes xs ∧
    Chronicle s.session.isolation machine past s.controller.canonical ∧
    s.session.Says s.controller xs

theorem Move.speaks (h : Move b s ys ns fs s') (hs : s.Linked foreign own)
    (hspeaks : s.Speaks number machine record) (hy : ∀ y ∈ ys, y.ordinary = true) :
    s'.Speaks number machine (record ++ (s.session.author number).makes ys) := by
  obtain ⟨past, xs, rfl, hpast, hsaid⟩ := hspeaks
  rw [List.append_assoc, ← Author.makes_append]
  have hsession := h.session
  rcases h.moves.word hsaid hs.fits hy with ⟨hsaid, hcanonical⟩ | ⟨hsaid, hword⟩
  · rw [← hsession] at hsaid
    refine ⟨past, xs ++ ys, ?_, ?_, hsaid⟩
    · rw [hsession]
      rfl
    · rw [hcanonical, h.isolation]
      exact hpast
  · rw [← hsession] at hsaid
    refine ⟨_, [], (List.append_nil _).symm, ?_, hsaid⟩
    rw [h.isolation]
    exact hpast.word number hword

/-- The author is the same all along a path, since a session keeps its input. -/
theorem Path.speaks (h : Path b s ys ns fs s') (hs : s.Linked foreign own)
    (hspeaks : s.Speaks number machine record) (hy : ∀ y ∈ ys, y.ordinary = true) :
    s'.Speaks number machine (record ++ (s.session.author number).makes ys) := by
  induction h generalizing own record with
  | refl => rwa [Author.makes_nil, List.append_nil]
  | @step s t _ xs _ _ _ _ _ head _ ih =>
    have hhead := head.speaks hs hspeaks fun y h => hy y (List.mem_append_left _ h)
    have hrest := ih (head.linked hs) hhead fun y h => hy y (List.mem_append_right _ h)
    have hauthor : t.session.author number = s.session.author number := by
      rw [head.session]
      rfl
    rwa [hauthor, List.append_assoc, ← Author.makes_append] at hrest

end Seat

/-! ## Operations of an engine -/

section

variable {b : Backend W} {mode : Isolation} {own : List Exchange} {foreign : Option Transaction}
  {machine : Handle} {number : Option Nat} {record : List (Author × Exchange)} {r : Room W}
  {s s' : Seat W}

/-- The room after a session has moved. Its word is finished, or it runs and has a number. -/
theorem Seat.Path.spoken {xs : List Exchange} {ns : List Notice} {fs : List Failure}
    (h : Path b s xs ns fs s') (hs : s.Linked foreign own) (hm : s.session.isolation = mode)
    (hspeaks : s.Speaks number machine record) (hx : ∀ x ∈ xs, x.ordinary = true)
    (hdesk : r.toDesk = s'.toDesk)
    (hn : s'.session.phase.working? ≠ none →
      ∃ n, number = some n ∧ r.session? n = some s'.session) :
    Spoken mode machine (record ++ (s.session.author number).makes xs) r := by
  have hmode : s'.session.isolation = mode := by rw [h.session]; exact hm
  obtain ⟨past, ys, hrecord, hpast, hsaid⟩ := h.speaks hs hspeaks hx
  rw [hrecord]
  rw [hmode, ← hdesk] at hpast
  rw [← hdesk] at hsaid
  cases hsaid with
  | nothing hc =>
    rw [Author.makes_nil, List.append_nil]
    exact .idle hpast hc
  | begun _ ht hp hbegun =>
    obtain ⟨n, rfl, hsession⟩ := hn (by rw [hp]; nofun)
    rw [hmode] at hbegun
    exact .amid hpast hsession hp ht hbegun

/-- A session that does not run has said nothing in a room that is idle. -/
theorem Chronicle.speaks (h : Chronicle s.session.isolation machine record s.controller.canonical)
    (hc : s.controller.Idle) (hp : s.session.phase.working? = none) :
    s.Speaks number machine record :=
  ⟨record, [], (List.append_nil _).symm, h, .nothing hc hp⟩

end

namespace EngineOp

variable {b : Backend W} {config : EngineConfig} {op : EngineOp} {r r' : Room W}
  {xs own : List Exchange} {ns : List Notice} {fs : List Failure} {machine : Handle}
  {calls : List (Author × Exchange)}

/-- While the controller refuses, only the session that runs calls machines. -/
theorem Does.of_refusal (h : Does b config r op xs ns fs r') {f : Failure}
    (hf : r.controller.refusal? = some f)
    (hop : ∀ n, op.isOn n = true → r.working? n = none) :
    xs = [] ∧ r'.controller = r.controller := by
  have busy := Controller.not_idle_of_refusal hf
  cases h with
  | closed | notBytes | opened | absent => exact ⟨rfl, rfl⟩
  | collected _ _ _ path => exact path.of_refused rfl hf
  | @walked n _ s _ _ _ _ hn _ path =>
    cases hp : s.phase with
    | start => exact path.of_refused hp hf
    | accepted | rejected | fatal | cancelled =>
      obtain ⟨rfl, -, -, hc, -⟩ := path.of_done (by rw [hp]; rfl)
      exact ⟨rfl, hc⟩
    | running w =>
      have hw := hop n (isOn_session.2 rfl)
      rw [Room.working?_eq hn, hp] at hw
      cases hw
  | stored h hd =>
    cases h with
    | closed | busy => exact ⟨rfl, hd⟩
    | stored h | failed h => exact absurd h busy
  | @shutDown _ _ _ d h =>
    change xs = [] ∧ d.controller = _
    generalize d.controller = c at h
    cases h with
    | closed | busy => exact ⟨rfl, rfl⟩
    | released h | failed h => exact absurd h busy

theorem author_session {n : Nat} {s : Session} (h : r.session? n = some s) (sop : SessionOp) :
    (session n sop).author r = s.author n := by
  rw [author, h]

/-- What is refused adds nothing to what was said, and leaves a word as it is. -/
theorem Does.spoken_of_refusal (h : Does b config r op xs ns fs r') {f : Failure}
    (hf : r.controller.refusal? = some f) (hop : ∀ n, op.isOn n = true → r.working? n = none)
    (hspoken : Spoken config.isolation machine calls r) :
    Spoken config.isolation machine (calls ++ (op.author r).makes xs) r' := by
  obtain ⟨rfl, hc⟩ := h.of_refusal hf hop
  rw [Author.makes_nil, List.append_nil]
  cases hspoken with
  | idle hpast hidle =>
    rw [← hc] at hpast hidle
    exact .idle hpast hidle
  | @amid _ _ n s _ _ hpast hs hp ht hbegun =>
    have hother : op.isOn n = false := by
      cases hon : op.isOn n with
      | false => rfl
      | true =>
        have hw := hop n hon
        rw [Room.working?_eq hs, hp] at hw
        cases hw
    rw [← hc] at hpast ht hbegun
    exact .amid hpast (h.session?_of_some hother hs) hp ht hbegun
  | closed hpast hclosed reply =>
    rw [← hc] at hpast hclosed ⊢
    exact .closed hpast hclosed reply

/-- An operation on a session goes on with its word, and leaves no other unfinished. -/
theorem Does.spoken_of_isOn {n : Nat} {s : Session} (h : Does b config r op xs ns fs r')
    (hr : r.Linked config.isolation own) (hop : op.isOn n = true) (hs : r.session? n = some s)
    (hspeaks : Seat.Speaks n machine calls ⟨r.toDesk, s⟩) (hx : ∀ x ∈ xs, x.ordinary = true) :
    Spoken config.isolation machine (calls ++ (op.author r).makes xs) r' := by
  obtain ⟨sop, rfl⟩ := exists_eq_session_of_isOn hop
  rw [author_session hs]
  cases h with
  | absent hnone => cases hnone.symm.trans hs
  | walked hs' _ path hlet =>
    cases hs.symm.trans hs'
    refine path.spoken (hr.seat hs) (hr.isolation n s hs) hspeaks hx rfl fun hw => ⟨n, rfl, ?_⟩
    rw [Room.session?_set hs, if_pos rfl]
    cases hkeeps : sop.keeps with
    | true => rfl
    | false => exact absurd (hlet hkeeps) hw

/-- While a session is in the midst of its word, only operations on it go on with it. -/
theorem Does.spoken_of_busy {n : Nat} {s : Session} {t : Transaction} {ys : List Exchange}
    (h : Does b config r op xs ns fs r') (hr : r.Linked config.isolation own)
    (hpast : Chronicle config.isolation machine calls r.controller.canonical)
    (hn : r.session? n = some s) (hp : s.phase = .running t.working)
    (ht : r.controller.transaction = some t)
    (hbegun : Begun config.isolation s.kind s.payload r.controller.canonical t.working ys)
    (hx : ∀ x ∈ xs, x.ordinary = true) :
    Spoken config.isolation machine (calls ++ (s.author n).makes ys ++ (op.author r).makes xs)
      r' := by
  have hopen : r.controller.closed = false := by
    cases hc : r.controller.closed with
    | false => rfl
    | true => cases ht.symm.trans (hr.fits.closed hc)
  cases hop : op.isOn n with
  | true =>
    rw [← hr.isolation n s hn] at hpast hbegun
    exact h.spoken_of_isOn hr hop hn ⟨calls, ys, rfl, hpast, .begun hopen ht hp hbegun⟩ hx
  | false =>
    -- whoever else is asked is refused, because only one session runs
    have hrefused := Controller.refusal?_of_busy hopen (by rw [ht]; nofun)
    refine h.spoken_of_refusal hrefused (fun m hm => ?_) (.amid hpast hn hp ht hbegun)
    have hw : r.working? n = some t.working := by rw [Room.working?_eq hn, hp]; rfl
    cases hv : r.working? m with
    | none => rfl
    | some v =>
      rw [hr.unique m n v _ hv hw, hop] at hm
      cases hm

/-- An idle engine begins a word, saves its machine, or releases it for good. -/
theorem Does.spoken_of_idle (h : Does b config r op xs ns fs r')
    (hr : r.Linked config.isolation own)
    (hpast : Chronicle config.isolation machine calls r.controller.canonical)
    (hidle : r.controller.Idle) (hx : ∀ x ∈ xs, x.ordinary = true) :
    Spoken config.isolation machine (calls ++ (op.author r).makes xs) r' := by
  have silent (hc : r'.controller = r.controller) :
      Spoken config.isolation machine (calls ++ (op.author r).makes []) r' := by
    rw [← hc] at hpast hidle
    rw [Author.makes_nil, List.append_nil]
    exact .idle hpast hidle
  cases h with
  | closed | notBytes | opened | absent => exact silent rfl
  | @collected kind payload _ _ _ _ _ _ _ _ path hs =>
    have hfresh : Seat.Speaks none machine calls ⟨r.toDesk, config.session kind payload⟩ :=
      hpast.speaks hidle rfl
    exact path.spoken (hr.fresh rfl rfl) rfl hfresh hx rfl fun hw => absurd hs hw
  | @walked n _ s _ _ _ _ hn hact path hlet =>
    have hp : s.phase.working? = none :=
      (Room.working?_eq hn).symm.trans (hr.working?_eq_none hidle.2 n)
    have hsaid : Seat.Speaks n machine calls ⟨r.toDesk, s⟩ := by
      rw [← hr.isolation n s hn] at hpast
      exact hpast.speaks hidle hp
    exact (Does.walked hn hact path hlet).spoken_of_isOn hr (isOn_session.2 rfl) hn hsaid hx
  | @stored path _ _ _ d h hd =>
    cases h with
    | closed | busy => exact silent hd
    | stored | failed =>
      rw [← hd] at hpast hidle ⊢
      exact .idle (hpast.stored path _) hidle
  | @shutDown _ _ _ d h =>
    have hc : d.controller = r.controller ∧ xs = [] ∨
        d.controller = { r.controller with closed := true } ∧
          ∃ reply, xs = [.shutdown r.controller.canonical reply] := by
      generalize d.controller = c at h
      cases h with
      | closed | busy => exact .inl ⟨rfl, rfl⟩
      | released | failed => exact .inr ⟨rfl, _, rfl⟩
    rcases hc with ⟨hc, rfl⟩ | ⟨hc, reply, rfl⟩
    · exact silent hc
    · have hclosed : d.controller.closed = true := by rw [hc]
      have hcanonical : d.controller.canonical = r.controller.canonical := by rw [hc]
      rw [← hcanonical] at hpast ⊢
      exact Spoken.closed (r := { r with toDesk := d }) hpast hclosed reply

/-- Every operation goes on with what was said before, if nothing interrupts it. -/
theorem Does.spoken (h : Does b config r op xs ns fs r') (hr : r.Linked config.isolation own)
    (hspoken : Spoken config.isolation machine calls r) (hx : ∀ x ∈ xs, x.ordinary = true) :
    Spoken config.isolation machine (calls ++ (op.author r).makes xs) r' := by
  cases hspoken with
  | idle hpast hidle => exact h.spoken_of_idle hr hpast hidle hx
  | amid hpast hn hp ht hbegun => exact h.spoken_of_busy hr hpast hn hp ht hbegun hx
  | closed hpast hc reply =>
    exact h.spoken_of_refusal (Controller.refusal?_of_closed hc)
      (fun n _ => hr.working?_eq_none (hr.fits.closed hc) n) (.closed hpast hc reply)

end EngineOp

/-! ## Sends -/

/-- The calls that were made for a session have sent its input if it began. -/
def Session.Sent (s : Session) (xs : List Exchange) (_ : List Notice) : Prop :=
  s.phase.Sent (xs.countP Exchange.isSend)

namespace EngineOp

variable {b : Backend W} {config : EngineConfig} {op : EngineOp} {r r' : Room W}
  {js : List (Page W)} {xs : List Exchange} {ns : List Notice} {fs : List Failure}

/-- A session that an operation begins, whether it is handed out or not, has sent its input once. -/
theorem Does.sent_of_start (h : Does b config r op xs ns fs r') {s t : Session}
    (hact : op.acting? b config r = some (s, t)) (hs : s.phase = .start) :
    t.phase.Sent (xs.countP Exchange.isSend) := by
  have hfresh : s.phase.Sent 0 := by
    rw [hs]
    exact .fresh
  have walked {d : Desk W} {s' : Seat W} (path : Seat.Path b ⟨d, s⟩ xs ns fs s') :
      s'.session.phase.Sent (xs.countP Exchange.isSend) := by
    simpa using path.sends hfresh
  cases h with
  | @closed _ input _ h => cases input <;> simp [acting?, h] at hact
  | notBytes | stored | shutDown => cases hact
  | opened _ h => simp [acting?, h] at hact
  | absent h => simp [acting?, h] at hact
  | collected _ _ hact' path | walked _ hact' path =>
    cases hact.symm.trans hact'
    exact walked path

/-- What the sessions of a room have sent stays on record. -/
theorem Does.sent (h : Does b config r op xs ns fs r')
    (hcalls : (op.page b config r).calls = xs) (hnotices : (op.page b config r).notices = ns)
    (hr : Shares Session.Sent js r) : Shares Session.Sent (js ++ [op.page b config r]) r' := by
  refine h.shares hcalls hnotices (fun _ _ => .fresh) (fun _ path hs => ?_) hr
  rw [Session.Sent, List.countP_append]
  exact path.sends hs

/-! ## Sessions that are not pulled -/

/-- Whether an operation asks a session for an event. -/
def pulls : EngineOp → Bool
  | .session _ op => op.pulls
  | _ => false

/-- A session that is not pulled does not begin. -/
theorem calls_of_unpulled (b : Backend W) (config : EngineConfig) {n : Nat}
    (hop : op.isOn n = true) (hpull : op.pulls = false) (hr : r.working? n = none) :
    (op.page b config r).calls = [] ∧ (op.perform b config r).2.working? n = none := by
  obtain ⟨sop, rfl⟩ := exists_eq_session_of_isOn hop
  cases hs : r.session? n with
  | none =>
    have hperform := perform_session_none b config hs sop
    rw [hperform]
    exact ⟨Page.calls_eq_nil (by rw [page, hperform]), hr⟩
  | some s =>
    obtain ⟨a, p, hsop, hp⟩ : ∃ a p, sop.perform b ⟨r.toDesk, s⟩ = (a, ⟨r.toDesk, s.inPhase p⟩) ∧
        p.working? = none := by
      rw [Room.working?_eq hs] at hr
      cases hp : s.phase with
      | start =>
        refine ⟨_, _, SessionOp.perform_of_unpulled b (s := ⟨r.toDesk, s⟩) hp hpull, ?_⟩
        unfold SessionOp.phaseRefused
        split <;> rfl
      | accepted | rejected | fatal | cancelled =>
        have hd : s.phase.done = true := by rw [hp]; rfl
        exact ⟨_, s.phase, SessionOp.perform_of_done b (s := ⟨r.toDesk, s⟩) hd sop, hr⟩
      | running w =>
        rw [hp] at hr
        cases hr
    have hperform := perform_session b config hs sop
    rw [hsop] at hperform
    refine ⟨Page.calls_eq_nil (by rw [page, hperform]), ?_⟩
    rw [hperform, Room.working?, Room.session?_set hs, if_pos rfl]
    cases sop.keeps with
    | true => exact hp
    | false => rfl

end EngineOp

/-! ## Submissions -/

/-- In the course of a journal, an input was submitted for the session with this number, if it has
one. -/
def Submitted (js : List (Page W)) (number : Option Nat) (kind : InputKind) (payload : Bytes) :
    Prop :=
  ∃ p ∈ js, ∃ choice, p.op = .submit kind (.bytes payload) choice ∧
    ∀ n, number = some n → p.answer.outcome = .ok (.session n)

theorem Submitted.append {js ks : List (Page W)} {number : Option Nat} {kind : InputKind}
    {payload : Bytes} (h : Submitted js number kind payload) :
    Submitted (js ++ ks) number kind payload := by
  obtain ⟨p, hp, h⟩ := h
  exact ⟨p, List.mem_append_left _ hp, h⟩

namespace EngineOp

variable {b : Backend W} {config : EngineConfig} {op : EngineOp} {r r' : Room W}
  {js : List (Page W)} {xs : List Exchange} {ns : List Notice} {fs : List Failure}

/-- Every session is made for an input that is submitted. -/
theorem Does.submitted (h : Does b config r op xs ns fs r')
    (hr : ∀ n s, r.session? n = some s → Submitted js n s.kind s.payload) :
    ∀ n s, r'.session? n = some s →
      Submitted (js ++ [op.page b config r]) n s.kind s.payload := by
  intro n s hs
  cases h with
  | closed | notBytes | absent | collected | stored | shutDown => exact (hr n s hs).append
  | @opened kind payload choice hopen hc =>
    rw [Room.session?_append] at hs
    split at hs
    · next hn =>
      cases hs
      refine ⟨_, List.mem_append_right _ (List.mem_singleton.2 rfl), choice, rfl, ?_⟩
      rintro m ⟨⟩
      rw [page, perform_opened b kind payload hopen hc, hn]
    · exact (hr n s hs).append
  | @walked m sop t _ _ _ t' hm _ path =>
    rw [Room.session?_set hm] at hs
    split at hs
    · next hn =>
      subst hn
      cases hkeeps : sop.keeps with
      | false =>
        rw [hkeeps] at hs
        cases hs
      | true =>
        rw [hkeeps, if_pos rfl, Option.some.injEq] at hs
        rw [← hs, path.session]
        exact (hr _ t hm).append
    · exact (hr n s hs).append

/-- What is called on behalf of a session is called for an input that was submitted. -/
theorem submitted_of_author {number : Option Nat} {kind : InputKind} {payload : Bytes}
    (hr : ∀ n s, r.session? n = some s → Submitted js n s.kind s.payload)
    (h : op.author r = .session number kind payload) :
    Submitted (js ++ [op.page b config r]) number kind payload := by
  cases op with
  | store | shutdown => cases h
  | submit k input choice =>
    cases input with
    | other => cases h
    | bytes =>
      cases h
      exact ⟨_, List.mem_append_right _ (List.mem_singleton.2 rfl), choice, rfl, nofun⟩
  | session n sop =>
    cases hs : r.session? n with
    | none =>
      rw [author, hs] at h
      cases h
    | some s =>
      rw [author_session hs] at h
      cases h
      exact (hr n s hs).append

/-! ## Runs -/

/-- What the calls of a run obey that led from an engine around the machine `machine` to a room. -/
structure Obeys (b : Backend W) (config : EngineConfig) (machine : Handle) (js : List (Page W))
    (r : Room W) : Prop where
  /-- They are words of sessions and stores of the canonical machine, of which only the last word
  may be unfinished, and perhaps a release of the canonical machine in the end. -/
  spoken : Spoken config.isolation machine (record js) r
  /-- A session speaks of the input that was submitted for it. -/
  submitted : ∀ number kind payload x, (.session number kind payload, x) ∈ record js →
    Submitted js number kind payload
  /-- A session that began has sent its input once, and no other has. -/
  sent : ∀ n s, r.session? n = some s →
    s.phase.Sent ((sessionCalls n js).countP Exchange.isSend)
  /-- So it is when a session begins and ends in one operation, and is not handed out. -/
  collected : ∀ p ∈ js, ∀ s t, p.op.acting? b config p.before = some (s, t) → s.phase = .start →
    t.phase.Sent (p.calls.countP Exchange.isSend)
  /-- A session that was let go has not sent its input twice either. -/
  once : ∀ n, (sessionCalls n js).countP Exchange.isSend ≤ 1
  /-- A session that is not pulled says nothing. -/
  unpulled : ∀ n, (∀ p ∈ js, p.op.isOn n = true → p.op.pulls = false) → sessionCalls n js = []
  /-- While the controller refuses to open a transaction, nothing is said but by the session that
  runs. -/
  refused : ∀ p ∈ js, ∀ f, p.before.controller.refusal? = some f →
    (∀ n, p.op.isOn n = true → p.before.working? n = none) → p.calls = []

/-- What every operation keeps of the calls of a run, which began at the site `s`. -/
structure Kept (mode : Isolation) (machine : Handle) (s : Site W) (js : List (Page W))
    (r : Room W) : Prop where
  linked : ∃ own, r.Linked mode own
  calls : r.calls = s.calls ++ (record js).map Prod.snd
  spoken : (∀ x ∈ record js, x.2.ordinary = true) → Spoken mode machine (record js) r
  made : ∀ n session, r.session? n = some session →
    Submitted js n session.kind session.payload
  submitted : ∀ number kind payload x, (.session number kind payload, x) ∈ record js →
    Submitted js number kind payload
  sent : Shares Session.Sent js r
  unpulled : ∀ n, (∀ p ∈ js, p.op.isOn n = true → p.op.pulls = false) →
    sessionCalls n js = [] ∧ r.working? n = none

theorem opening_kept (mode : Isolation) (machine : Handle) (s : Site W) :
    Kept mode machine s [] (.opening machine s) where
  linked := ⟨[], Room.opening_linked mode machine s⟩
  calls := (List.append_nil _).symm
  spoken _ := .idle .nil ⟨rfl, rfl⟩
  made n session h := by simp [Room.opening, Room.session?] at h
  submitted _ _ _ _ h := absurd h List.not_mem_nil
  sent := .opening _ machine s
  unpulled n _ := ⟨rfl, (Room.opening_linked mode machine s).working?_eq_none rfl n⟩

variable {machine : Handle} {s : Site W}

theorem Does.kept (h : Does b config r op xs ns fs (op.perform b config r).2)
    (hcalls : (op.page b config r).calls = xs) (hnotices : (op.page b config r).notices = ns)
    (hr : Kept config.isolation machine s js r) :
    Kept config.isolation machine s (js ++ [op.page b config r]) (op.perform b config r).2 where
  linked := by
    obtain ⟨own, hlinked⟩ := hr.linked
    exact ⟨_, h.linked hlinked⟩
  calls := by
    rw [h.follows.calls, hr.calls, record_concat, hcalls, List.map_append, Author.map_makes,
      List.append_assoc]
  spoken hx := by
    obtain ⟨own, hlinked⟩ := hr.linked
    rw [record_concat, hcalls] at hx ⊢
    refine h.spoken hlinked (hr.spoken fun x hmem => hx x (List.mem_append_left _ hmem))
      fun x hmem => ?_
    exact hx (_, x) (List.mem_append_right _ (List.mem_map_of_mem hmem))
  made := h.submitted hr.made
  submitted number kind payload x hx := by
    rw [record_concat] at hx
    rcases List.mem_append.1 hx with hx | hx
    · exact (hr.submitted _ _ _ _ hx).append
    · obtain ⟨y, -, hy⟩ := List.mem_map.1 hx
      exact submitted_of_author hr.made (congrArg Prod.fst hy)
  sent := h.sent hcalls hnotices hr.sent
  unpulled n hn := by
    obtain ⟨hnone, hw⟩ := hr.unpulled n fun p hp => hn p (List.mem_append_left _ hp)
    cases hop : op.isOn n with
    | true =>
      have hpull := hn _ (List.mem_append_right _ (List.mem_singleton.2 rfl)) hop
      obtain ⟨hcalls, hw⟩ := calls_of_unpulled b config hop hpull hw
      rw [sessionCalls_concat_of_isOn hop, hnone, hcalls]
      exact ⟨rfl, hw⟩
    | false =>
      rw [sessionCalls_concat hop]
      refine ⟨hnone, ?_⟩
      rcases h.session?_cases hop with hsame | ⟨-, kind, payload, hmade⟩
      · rwa [Room.working?, hsame]
      · exact Room.working?_eq hmade

/-- What is true of every page is true of every page of a journal. -/
theorem forall_mem_journal {q : Page W → Prop}
    (h : ∀ (op : EngineOp) (r : Room W), q (op.page b config r)) (ops : List EngineOp)
    {r : Room W} : ∀ p ∈ journal b config ops r, q p := by
  induction ops generalizing r with
  | nil => exact List.forall_mem_nil q
  | cons op ops ih =>
    intro p hp
    rcases List.mem_cons.1 hp with rfl | hp
    · exact h op r
    · exact ih p hp

/-- Whatever is done to an engine and its sessions, and whatever its machines do that raise no
interrupt, the calls obey the protocol. -/
theorem run_obeys (b : Backend W) (config : EngineConfig) (machine : Handle) (s : Site W)
    (ops : List EngineOp)
    (hx : ∀ x ∈ record (journal b config ops (.opening machine s)), x.2.ordinary = true) :
    let r := run b config ops (.opening machine s)
    let js := journal b config ops (.opening machine s)
    r.calls = s.calls ++ (record js).map Prod.snd ∧ Obeys b config machine js r := by
  intro r js
  have hr : Kept config.isolation machine s js r :=
    run_journal (fun _ _ _ _ hdoes hcalls hnotices => hdoes.kept hcalls hnotices) ops
      (opening_kept config.isolation machine s)
  refine ⟨hr.calls, hr.spoken hx, hr.submitted, fun n s hs => hr.sent.of_session hs, ?collected,
    fun n => ?once, fun n hn => (hr.unpulled n hn).1, ?refused⟩
  case collected =>
    refine forall_mem_journal (fun op r s t hact hs => ?_) ops
    obtain ⟨xs, ns, fs, hdoes, -⟩ := op.does b config r
    rw [Page.calls_of_follows hdoes.follows]
    exact hdoes.sent_of_start hact hs
  case once =>
    rcases Nat.lt_or_ge n r.sessions.length with hlt | hge
    · obtain ⟨s, hs, -⟩ := hr.sent.share n hlt
      exact Phase.Sent.le_one hs
    · rw [(hr.sent.unborn n hge).1]
      exact Nat.zero_le _
  case refused =>
    refine forall_mem_journal (fun op r f hf hop => ?_) ops
    obtain ⟨xs, ns, fs, hdoes, -⟩ := op.does b config r
    rw [Page.calls_of_follows hdoes.follows]
    exact (hdoes.of_refusal hf hop).1

/-- An advance that is collected, a store, and an inspect that cannot fork at first and is closed
early. -/
theorem advance_obeys :
    let b := Scripted.backend
    let program := Scripted.Program.script [.automatic .output [1], .manual .accepted [3]]
    let fault : Scripted.Fault :=
      { method := .fork, nth := 2, error := Scripted.machineError "out of memory" }
    let site : Site Scripted.World := { world := .ofLedger [] [program] [fault] }
    let ops : List EngineOp := [.submit .advance (.bytes [5]) (some true), .store "a",
      .submit .inspect (.bytes [6]) (some false), .session 0 .pull, .session 0 .pull, .shutdown,
      .session 0 .close, .shutdown]
    let js := journal b {} ops (.opening 0 site)
    (∀ x ∈ record js, x.2.ordinary = true) ∧
      Obeys b {} 0 js (run b {} ops (.opening 0 site)) := by
  intro b program fault site ops js
  have hx : ∀ x ∈ record js, x.2.ordinary = true := by decide +kernel
  exact ⟨hx, (run_obeys b {} 0 site ops hx).2⟩

end EngineOp

end RollupEngine
