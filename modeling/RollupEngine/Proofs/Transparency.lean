import RollupEngine.Proofs.Scripted.Play
import RollupEngine.Proofs.Session.Lockstep

/-!
# Yields that change nothing

A guest may tell the host of its progress, and may yield automatically for reasons that the host
does not know. Whether it does makes no difference to what the host keeps of it: the outputs, the
reports, how the input ends, and the ledger.

A script is thinned (`Thins`) if some of these yields are left out. What it comes to is then the
same for every observer who overlooks what was left out (`Machine.play_thins`), and so is what comes
of sessions on it, as long as they are pulled to the end (`Seat.Matched.drain`). A single pull tells
more, for a progress event that is delivered takes the place of the next event; but if nothing that
was left out would have been delivered, the sessions are in lockstep (`Seat.Matched.lockstep`).
-/

namespace RollupEngine

open Scripted

/-- A request that carries neither output nor report: progress, whether or not it can be decoded, or
a reason that is not known. -/
def YieldRequest.Negligible (q : YieldRequest) : Prop :=
  q.reason = Coded.code AutomaticReason.progress ∨ Coded.ofCode? AutomaticReason q.reason = none

/-- Outputs and reports, which are kept when a session is collected. -/
def StreamEvent.isPayload : StreamEvent → Bool
  | .progress _ => false
  | _ => true

/-- Who sees only these events of a session of a kind misses nothing if these requests are
dropped. -/
def InputKind.Overlooks (kind : InputKind) (shows : StreamEvent → Bool)
    (drops : YieldRequest → Prop) : Prop :=
  kind = .advance → ∀ q value, drops q → readAutomatic q = .event (.stream (.progress value)) →
    shows (.progress value) = false

theorem InputKind.overlooks_isPayload (kind : InputKind) (drops : YieldRequest → Prop) :
    kind.Overlooks StreamEvent.isPayload drops :=
  fun _ _ _ _ _ => rfl

theorem readAutomatic_of_negligible {q : YieldRequest} (hq : q.Negligible) :
    (readAutomatic q).event? = none ∨
      ∃ value, readAutomatic q = .event (.stream (.progress value)) := by
  unfold readAutomatic
  rcases hq with hq | hq
  · rw [Coded.ofCode?_eq_some_iff.2 hq.symm]
    cases hvalue : Bytes.word32? q.payload with
    | none => exact .inl rfl
    | some value => exact .inr ⟨value, rfl⟩
  · rw [hq]
    exact .inl rfl

namespace Scripted

/-! ## Thinned scripts -/

variable {drops : YieldRequest → Prop} {kind : InputKind}

/-- The second script is the first without some of its automatic yields, which request what may be
dropped. -/
inductive Thins (drops : YieldRequest → Prop) : List Action → List Action → Prop
  | nil : Thins drops [] []
  | keep {l l' : List Action} (action : Action) (h : Thins drops l l') :
    Thins drops (action :: l) (action :: l')
  | drop {l l' : List Action} {q : YieldRequest} (hq : drops q) (h : Thins drops l l') :
    Thins drops (.breakWith automaticBreak (.request q) :: l) l'

theorem Thins.refl : ∀ l : List Action, Thins drops l l
  | [] => .nil
  | action :: l => .keep action (.refl l)

theorem Thins.sublist {l l' : List Action} (h : Thins drops l l') : l'.Sublist l := by
  induction h with
  | nil => exact .slnil
  | keep action _ ih => exact ih.cons_cons action
  | drop _ _ ih => exact ih.cons _

/-- A machine whose script is thinned holds the same ledger. -/
structure Machine.Thins (drops : YieldRequest → Prop) (m m' : Machine) : Prop where
  ledger : m'.ledger = m.ledger
  actions : Scripted.Thins drops m.actions m'.actions

/-- Two programs of which the second does the same, thinned. -/
inductive Program.Thins (drops : YieldRequest → Prop) : Program → Program → Prop
  | script {l l' : List Action} (h : Scripted.Thins drops l l') :
    Program.Thins drops (.script l) (.script l')
  | ledger : Program.Thins drops .ledger .ledger

namespace Program.Thins

variable {p p' : Program} {programs programs' : List Program}

theorem actions (h : Program.Thins drops p p') (ledger : Ledger) (reason : RequestReason)
    (payload : Bytes) :
    Scripted.Thins drops (p.actions ledger reason payload) (p'.actions ledger reason payload) := by
  cases h with
  | script h => exact h
  | ledger => exact .refl _

theorem deathless (h : Program.Thins drops p p') (hp : p.Deathless) : p'.Deathless := by
  cases h with
  | script h => exact fun hdie => hp (h.sublist.subset hdie)
  | ledger => trivial

theorem deathless_of_forall₂ (h : List.Forall₂ (Program.Thins drops) programs programs')
    (hp : ∀ p ∈ programs, p.Deathless) : ∀ p ∈ programs', p.Deathless := by
  induction h with
  | nil => simp
  | cons h _ ih =>
    simp only [List.forall_mem_cons] at hp ⊢
    exact ⟨h.deathless hp.1, ih hp.2⟩

theorem programAt (h : List.Forall₂ (Program.Thins drops) programs programs') (sends : Nat) :
    Program.Thins drops (Scripted.programAt programs sends)
      (Scripted.programAt programs' sends) := by
  unfold Scripted.programAt
  rw [← h.length_eq]
  generalize min sends (programs.length - 1) = i
  by_cases hi : i < programs.length
  · rw [List.getElem?_eq_getElem hi, List.getElem?_eq_getElem (h.length_eq ▸ hi)]
    exact h.get hi (h.length_eq ▸ hi)
  · rw [List.getElem?_eq_none (by omega), List.getElem?_eq_none (by rw [← h.length_eq]; omega)]
    exact .ledger

end Program.Thins

/-- Programs of which none lets its machine die, and the same programs thinned. -/
structure Thinning (drops : YieldRequest → Prop) (programs programs' : List Program) : Prop where
  negligible : ∀ q, drops q → q.Negligible
  thins : List.Forall₂ (Program.Thins drops) programs programs'
  deathless : ∀ p ∈ programs, p.Deathless

/-! ## What they come to -/

/-- What a script and a thinned one come to: they end alike, and who overlooks what was dropped sees
the same events, on machines that have come equally far. -/
structure Played.Resembles (drops : YieldRequest → Prop) (kind : InputKind) (p p' : Played) :
    Prop where
  finale : p'.finale = p.finale
  machine : p.machine.Thins drops p'.machine
  steps : ∀ shows, kind.Overlooks shows drops →
    List.Forall₂ (fun x x' => x'.1 = x.1 ∧ x.2.Thins drops x'.2)
      (p.steps.filter (shows ·.1)) (p'.steps.filter (shows ·.1))

namespace Played.Resembles

variable {p p' : Played} {m m' : Machine} {q : YieldRequest}

/-- The same turn before both. -/
theorem after (h : p.Resembles drops kind p') (u : Upshot) (hm : m.Thins drops m') :
    (Played.after u m p).Resembles drops kind (.after u m' p') := by
  cases u with
  | delivered event =>
    refine ⟨h.finale, h.machine, fun shows hshows => ?_⟩
    have hrest := h.steps shows hshows
    by_cases hevent : shows event = true
    · simpa [Played.after, hevent] using ⟨hm, hrest⟩
    · simpa [Played.after, hevent] using hrest
  | ignored => exact h
  | last finale => exact ⟨rfl, hm, fun _ _ => .nil⟩

/-- A turn that is dropped from the second. -/
theorem dropped (h : p.Resembles drops kind p') (m : Machine) (hdrop : drops q)
    (hq : q.Negligible) :
    (Played.after (upshot kind (.ok (readAutomatic q))) m p).Resembles drops kind p' := by
  have hignored {u : Upshot} (hu : u = .ignored) :
      (Played.after u m p).Resembles drops kind p' := by
    rw [hu]
    exact h
  rcases readAutomatic_of_negligible hq with hnone | ⟨value, hvalue⟩
  · refine hignored ?_
    unfold upshot
    cases hr : readAutomatic q with
    | event => simp [hr, Reading.event?] at hnone
    | undecodableProgress | unknownYield => rfl
    | unwritable v => exact absurd hr (readAutomatic_ne_unwritable q v)
  · rw [hvalue]
    cases kind with
    | inspect => exact hignored rfl
    | advance =>
      refine ⟨h.finale, h.machine, fun shows hshows => ?_⟩
      have hhidden := hshows rfl q value hdrop hvalue
      change List.Forall₂ _ (List.filter _ ((.progress value, m) :: p.steps)) _
      rw [List.filter_cons_of_neg (by simp [hhidden])]
      exact h.steps shows hshows

/-- The loops end alike, and who overlooks what was dropped sees the same events. -/
theorem filter_events (h : p.Resembles drops kind p') {shows : StreamEvent → Bool}
    (hshows : kind.Overlooks shows drops) :
    p'.drain.events.filter shows = p.drain.events.filter shows := by
  have hmap {l l' : List (StreamEvent × Machine)}
      (hl : List.Forall₂ (fun x x' => x'.1 = x.1 ∧ x.2.Thins drops x'.2) l l') :
      l'.map (·.1) = l.map (·.1) := by
    induction hl with
    | nil => rfl
    | cons hx _ ih => rw [List.map_cons, List.map_cons, hx.1, ih]
  simp only [Played.drain, List.filter_map]
  exact hmap (h.steps shows hshows)

end Played.Resembles

/-- A yield that can be dropped is read as an automatic one. -/
theorem Machine.reading_automatic (m : Machine) {q : YieldRequest} (h : m.pending = .request q) :
    m.reading (.ok automaticBreak) = .ok (readAutomatic q) := by
  have hyield : isYield automaticBreak = true := by decide
  have hbreak : automaticBreak ≠ manualBreak := by decide
  simp [Machine.reading, Except.bind, Except.map, Machine.answer, h, readBreak, hyield, hbreak]

/-- A script that is thinned comes to the same. -/
theorem Machine.play_thins (kind : InputKind) (hdrops : ∀ q, drops q → q.Negligible)
    {l l' : List Action} (h : Scripted.Thins drops l l') {m m' : Machine}
    (hledger : m'.ledger = m.ledger) :
    (m.play kind l).Resembles drops kind (m'.play kind l') := by
  -- The machines themselves differ at a yield that is dropped: the first has been there already.
  induction h generalizing m m' with
  | nil => exact ⟨rfl, ⟨hledger, .nil⟩, fun _ _ => .nil⟩
  | keep action h ih =>
    cases action with
    | append entry => exact ih (by simp [hledger])
    | die => exact ih hledger
    | raise | breakWith =>
      dsimp only [Machine.play]
      refine .after (ih ?_) _ ⟨?_, ?_⟩
      · exact hledger
      · exact hledger
      · exact h
  | drop hq h ih =>
    rw [Machine.play, Machine.reading_automatic _ rfl]
    refine .dropped (ih ?_) _ hq (hdrops _ hq)
    exact hledger

end Scripted

/-! ## Sessions on thinned scripts -/

/-- Two loops end alike, and who overlooks what was dropped sees the same events. -/
structure Drain.Resembles (drops : YieldRequest → Prop) (kind : InputKind) (d d' : Drain) :
    Prop where
  ending : d'.ending = d.ending
  events : ∀ shows, kind.Overlooks shows drops → d'.events.filter shows = d.events.filter shows

theorem Drain.Resembles.raisedIn {drops : YieldRequest → Prop} {kind : InputKind} {d d' : Drain}
    (h : d.Resembles drops kind d') (raising : Option Error) :
    (Seat.raisedIn raising d).Resembles drops kind (Seat.raisedIn raising d') := by
  obtain ⟨events, ending⟩ := d
  obtain ⟨events', ending'⟩ := d'
  obtain ⟨hending, hevents⟩ := h
  obtain rfl : ending' = ending := hending
  cases ending' <;> cases raising <;> exact ⟨rfl, hevents⟩

/-- What is collected depends on the outputs and the reports alone. -/
theorem Collected.gather_eq (kind : InputKind) {events events' : List StreamEvent} (root : Bytes)
    (h : events'.filter StreamEvent.isPayload = events.filter StreamEvent.isPayload) :
    gather kind events' root = gather kind events root := by
  have payloads {f : StreamEvent → Option Bytes} (hf : ∀ value, f (.progress value) = none)
      (l : List StreamEvent) : (l.filter StreamEvent.isPayload).filterMap f = l.filterMap f := by
    rw [List.filterMap_filter]
    refine List.filterMap_congr fun e _ => ?_
    cases e <;> simp [StreamEvent.isPayload, hf]
  have houtputs := payloads (f := StreamEvent.output?) fun _ => rfl
  have hreports := payloads (f := StreamEvent.report?) fun _ => rfl
  unfold gather
  rw [← houtputs, ← hreports, h, houtputs, hreports]

namespace Seat

variable {drops : YieldRequest → Prop} {kind : InputKind} {programs programs' : List Program}
  {g g' : Backdrop} {m m' n n' : Machine} {s s' t t' : Seat World}

/-- Two sessions run abreast in one mode, over the same ledger, the second on a script that is
thinned. -/
structure Thinned (drops : YieldRequest → Prop) (kind : InputKind)
    (programs programs' : List Program) (g g' : Backdrop) (m m' : Machine) (s s' : Seat World) :
    Prop extends Abreast kind programs programs' g g' m m' s s' where
  base_eq : g'.base = g.base
  mode_eq : s'.session.isolation = s.session.isolation
  machine : m.Thins drops m'

/-- Two sessions with the same input, the second on a script that is thinned, have come equally
far. -/
inductive Matched (drops : YieldRequest → Prop) (kind : InputKind)
    (programs programs' : List Program) (s s' : Seat World) : Prop
  | fresh {sends : Nat} {ledger : Ledger} (hk : s.session.kind = kind)
    (hk' : s'.session.kind = kind) (hpayload : s'.session.payload = s.session.payload)
    (hmode : s'.session.isolation = s.session.isolation) (hp : s.session.phase = .start)
    (hp' : s'.session.phase = .start) (h : s.Ready programs sends ledger)
    (h' : s'.Ready programs' sends ledger)
  | running {g g' : Backdrop} {m m' : Machine}
    (h : Thinned drops kind programs programs' g g' m m' s s')
  | ended {sends : Nat} {ledger : Ledger} (hdone : s.session.phase.done = true)
    (hp : s'.session.phase = s.session.phase) (h : s.Ready programs sends ledger)
    (h' : s'.Ready programs' sends ledger)

namespace Thinned

/-- Thinned sessions stay so after a turn in which both run on. -/
theorem step (h : Thinned drops kind programs programs' g g' m m' s s') (hn : n.Thins drops n')
    (ht : t.session = s.session ∧ t.Engaged g n)
    (ht' : t'.session = s'.session ∧ t'.Engaged g' n') :
    Thinned drops kind programs programs' g g' n n' t t' :=
  ⟨h.toAbreast.step ht ht', h.base_eq, by rw [ht.1, ht'.1, h.mode_eq], hn⟩

/-- Thinned sessions that are left in the same way are matched. -/
theorem matched {finale : Finale} (h : Thinned drops kind programs programs' g g' m m' s s')
    (hn : n.Thins drops n') (hfair : finale.Fair kind) (ht : Left g n s t finale)
    (ht' : Left g' n' s' t' finale) : Matched drops kind programs programs' t t' := by
  cases finale with
  | suspended => exact .running (h.step hn ht ht')
  | ended failure? phase kept =>
    obtain ⟨hp, hp', hready, hready'⟩ := h.ready ht ht'
    rw [h.base_eq, h.mode_eq, hn.ledger] at hready'
    exact .ended (by rw [hp]; exact hfair.1) (by rw [hp, hp']) hready hready'

theorem played (h : Thinned drops kind programs programs' g g' m m' s s')
    (hdrops : ∀ q, drops q → q.Negligible) :
    (m.play kind m.actions).Resembles drops kind (m'.play kind m'.actions) :=
  Machine.play_thins kind hdrops h.machine.actions h.machine.ledger

/-- Thinned sessions come to much the same when they are pulled to the end. -/
theorem drain (h : Thinned drops kind programs programs' g g' m m' s s')
    (hdrops : ∀ q, drops q → q.Negligible) :
    ∃ d d' t t', (drain backend).run s = .ok d t ∧ (Seat.drain backend).run s' = .ok d' t' ∧
      d.Resembles drops kind d' ∧ Matched drops kind programs programs' t t' := by
  obtain ⟨t, hrun, ht⟩ := h.engaged.drain
  obtain ⟨t', hrun', ht'⟩ := h.engaged'.drain
  have hplay := h.played hdrops
  rw [h.kind_eq] at hrun ht
  rw [h.kind_eq', hplay.finale] at ht'
  rw [h.kind_eq'] at hrun'
  refine ⟨_, _, t, t', hrun, hrun', ⟨?_, fun _ => hplay.filter_events⟩, ?_⟩
  · simp only [Played.drain, hplay.finale]
  · exact h.matched hplay.machine (Machine.fair_play _ _ _) ht ht'

/-- Thinned sessions deliver the same event next, or are left in the same way, if nothing that was
dropped would have been delivered. -/
theorem pull_alike (h : Thinned drops kind programs programs' g g' m m' s s')
    (hdrops : ∀ q, drops q → q.Negligible) (hsilent : kind.Overlooks (fun _ => true) drops) :
    (pull backend).Alike (Matched drops kind programs programs') (pull backend) s s' := by
  have hplay := h.played hdrops
  have hsteps := hplay.steps _ hsilent
  have hdraws := h.engaged.draws
  have hdraws' := h.engaged'.draws
  rw [List.filter_true, List.filter_true] at hsteps
  rw [h.kind_eq] at hdraws
  rw [h.kind_eq'] at hdraws'
  -- Everything is seen, so the two scripts come to the same steps, and the pulls to the first.
  cases hdraws with
  | delivered hrun hs ht _ hp =>
    rw [hp] at hsteps
    cases hdraws' with
    | delivered hrun' hs' ht' _ hp' =>
      rw [hp'] at hsteps
      obtain ⟨⟨rfl, hn⟩, -⟩ := List.forall₂_cons.1 hsteps
      exact ⟨.ok (some _), _, _, hrun, hrun', .running (h.step hn ⟨hs, ht⟩ ⟨hs', ht'⟩)⟩
    | last _ hnil =>
      rw [hnil] at hsteps
      nomatch hsteps
  | last hrun hnil ht =>
    rw [hnil, List.forall₂_nil_left_iff] at hsteps
    cases hdraws' with
    | delivered _ _ _ _ hp' =>
      rw [hp'] at hsteps
      nomatch hsteps
    | last hrun' _ ht' =>
      rw [hplay.finale] at hrun' ht'
      exact ⟨_, _, _, hrun, hrun', h.matched hplay.machine (Machine.fair_play _ _ _) ht ht'⟩

end Thinned

/-- Sessions with the same input start on scripts of which the second is thinned. -/
theorem thinned_of_ready {sends : Nat} {ledger : Ledger} (hthin : Thinning drops programs programs')
    (hk : s.session.kind = kind) (hk' : s'.session.kind = kind)
    (hpayload : s'.session.payload = s.session.payload)
    (hmode : s'.session.isolation = s.session.isolation) (hp : s.session.phase = .start)
    (hp' : s'.session.phase = .start) (h : s.Ready programs sends ledger)
    (h' : s'.Ready programs' sends ledger) :
    ∃ g g' m m' t t', (pull backend).run s = (pull backend).run t ∧
      (pull backend).run s' = (pull backend).run t' ∧
      Thinned drops kind programs programs' g g' m m' t t' := by
  obtain ⟨t, t', hrun, hrun', ht, ht', habreast⟩ := abreast_of_ready hthin.deathless
    (Program.Thins.deathless_of_forall₂ hthin.thins hthin.deathless) hk hk' hp hp' h h'
  refine ⟨_, _, _, _, t, t', hrun, hrun', habreast, rfl, by rw [ht, ht', hmode], rfl, ?_⟩
  have hactions := (Program.Thins.programAt hthin.thins sends).actions ledger s.session.kind.reason
    s.session.payload
  simpa only [newMachine, hk, hk', hpayload] using hactions

namespace Matched

theorem looks : Looks (Matched drops kind programs programs') := by
  intro s s' h
  cases h with
  | fresh _ _ _ _ hp hp' => simp [hp, hp']
  | running h => simp [h.engaged.phase, h.engaged'.phase, Phase.state, Phase.result?]
  | ended _ hp => simp [hp]

theorem drain (hthin : Thinning drops programs programs')
    (h : Matched drops kind programs programs' s s') :
    ∃ d d' t t', (drain backend).run s = .ok d t ∧ (Seat.drain backend).run s' = .ok d' t' ∧
      d.Resembles drops kind d' ∧ Matched drops kind programs programs' t t' := by
  cases h with
  | fresh hk hk' hpayload hmode hp hp' h h' =>
    obtain ⟨g, g', m, m', t, t', hrun, hrun', hthinned⟩ :=
      thinned_of_ready hthin hk hk' hpayload hmode hp hp' h h'
    rw [run_drain_congr hrun, run_drain_congr hrun']
    exact hthinned.drain hthin.negligible
  | running h => exact h.drain hthin.negligible
  | ended hdone hp h h' =>
    exact ⟨_, _, s, s', run_drain_of_last (o := .ok ()) (run_pull_over backend hdone),
      run_drain_of_last (o := .ok ()) (run_pull_over backend (by rw [hp]; exact hdone)),
      ⟨rfl, fun _ _ => rfl⟩, .ended hdone hp h h'⟩

/-- Matched sessions can be closed and let go of. -/
theorem closed (h : Matched drops kind programs programs' s s') :
    (∃ t t', (close backend).run s = .ok () t ∧ (close backend).run s' = .ok () t' ∧
      Matched drops kind programs programs' t t') ∧
    ∃ t t', (abandon backend).run s = .ok () t ∧ (abandon backend).run s' = .ok () t' ∧
      Matched drops kind programs programs' t t' := by
  cases h with
  | fresh hk hk' hpayload hmode hp hp' h h' =>
    exact ⟨⟨_, _, run_close_start backend hp, run_close_start backend hp', .ended rfl rfl h h'⟩,
      _, _, run_abandon backend (by rw [hp]; rfl), run_abandon backend (by rw [hp']; rfl),
      .fresh hk hk' hpayload hmode hp hp' h h'⟩
  | running h =>
    obtain ⟨t, hclose, habandon, ht⟩ := h.engaged.close
    obtain ⟨t', hclose', habandon', ht'⟩ := h.engaged'.close
    have hmatched := h.matched h.machine (Finale.fair_cancelled kind) ht ht'
    exact ⟨⟨t, t', hclose, hclose', hmatched⟩, t, t', habandon, habandon', hmatched⟩
  | ended hdone hp h h' =>
    have hrest := Phase.working?_of_done hdone
    exact ⟨⟨_, _, run_close_over backend hdone,
      run_close_over backend (by rw [hp]; exact hdone), .ended hdone hp h h'⟩,
      _, _, run_abandon backend hrest, run_abandon backend (by rw [hp]; exact hrest),
      .ended hdone hp h h'⟩

/-- If nothing that was dropped would have been delivered, every pull is the same. -/
theorem pull_alike (hthin : Thinning drops programs programs')
    (hsilent : kind.Overlooks (fun _ => true) drops)
    (h : Matched drops kind programs programs' s s') :
    (pull backend).Alike (Matched drops kind programs programs') (pull backend) s s' := by
  cases h with
  | fresh hk hk' hpayload hmode hp hp' h h' =>
    obtain ⟨g, g', m, m', t, t', hrun, hrun', hthinned⟩ :=
      thinned_of_ready hthin hk hk' hpayload hmode hp hp' h h'
    unfold Act.Alike
    rw [hrun, hrun']
    exact hthinned.pull_alike hthin.negligible hsilent
  | running h => exact h.pull_alike hthin.negligible hsilent
  | ended hdone hp h h' =>
    exact ⟨.ok none, s, s', run_pull_over backend hdone,
      run_pull_over backend (by rw [hp]; exact hdone), .ended hdone hp h h'⟩

/-- If nothing that was dropped would have been delivered, matched sessions are in lockstep. -/
theorem lockstep (hthin : Thinning drops programs programs')
    (hsilent : kind.Overlooks (fun _ => true) drops) :
    Lockstep backend backend (Matched drops kind programs programs') where
  pull h := h.pull_alike hthin hsilent
  drain h := by
    obtain ⟨⟨events, ending⟩, ⟨events', ending'⟩, t, t', hrun, hrun', hd, ht⟩ := h.drain hthin
    obtain rfl : ending' = ending := hd.ending
    obtain rfl : events' = events := by simpa using hd.events _ hsilent
    exact ⟨.ok _, t, t', hrun, hrun', ht⟩
  close h := by
    obtain ⟨⟨t, t', hrun, hrun', ht⟩, -⟩ := h.closed
    exact ⟨.ok (), t, t', hrun, hrun', ht⟩
  abandon h := by
    obtain ⟨-, t, t', hrun, hrun', ht⟩ := h.closed
    exact ⟨.ok (), t, t', hrun, hrun', ht⟩
  looks := looks

/-- Matched sessions come to much the same in a scope that takes all. -/
theorem scope (hthin : Thinning drops programs programs') (raising : Option Error)
    (h : Matched drops kind programs programs' s s') :
    ∃ d d' t t', (scope backend none raising).run s = .ok d t ∧
      (Seat.scope backend none raising).run s' = .ok d' t' ∧ d.Resembles drops kind d' ∧
      Matched drops kind programs programs' t t' := by
  obtain ⟨d, d', t, t', hrun, hrun', hd, ht⟩ := h.drain hthin
  obtain ⟨⟨u, u', hclose, hclose', hu⟩, -⟩ := ht.closed
  exact ⟨_, _, u, u', run_scope raising hrun hclose, run_scope raising hrun' hclose',
    hd.raisedIn raising, hu⟩

/-- Matched sessions collect the same. -/
theorem collect_alike (hthin : Thinning drops programs programs') (collected : InputKind)
    (h : Matched drops kind programs programs' s s') :
    (collect backend collected).Alike (Matched drops kind programs programs')
      (collect backend collected) s s' := by
  obtain ⟨d, d', t, t', hrun, hrun', hd, ht⟩ := h.scope hthin none
  have hfailure : d'.failure? = d.failure? := by rw [Drain.failure?, Drain.failure?, hd.ending]
  have hgather := Collected.gather_eq collected (t'.session.phase.result?.getD [])
    (hd.events _ (kind.overlooks_isPayload drops))
  refine ⟨_, t, t', run_collect collected hrun, ?_, ht⟩
  rw [run_collect collected hrun', hfailure, hgather, (looks ht).2]

/-- What can be told of a desk is the same for matched sessions. -/
theorem desk_eq (h : Matched drops kind programs programs' s s') :
    s'.controller.state = s.controller.state ∧ s'.canonicalLedger = s.canonicalLedger := by
  have ready {sends : Nat} {ledger : Ledger} (h : s.Ready programs sends ledger)
      (h' : s'.Ready programs' sends ledger) : s'.controller.state = s.controller.state ∧
        s'.canonicalLedger = s.canonicalLedger :=
    ⟨(Controller.state_eq_idle_iff.2 h'.idle).trans (Controller.state_eq_idle_iff.2 h.idle).symm,
      h'.canonicalLedger_eq.trans h.canonicalLedger_eq.symm⟩
  cases h with
  | fresh _ _ _ _ _ _ h h' => exact ready h h'
  | running h =>
    rw [h.engaged.state_eq, h.engaged'.state_eq, h.engaged.canonicalLedger_eq,
      h.engaged'.canonicalLedger_eq, h.base_eq, h.mode_eq, h.machine.ledger]
    exact ⟨rfl, rfl⟩
  | ended _ _ h h' => exact ready h h'

end Matched

end Seat

/-- Operations that pull a session to its end, or not at all. -/
def SessionOp.exhausts : SessionOp → Bool
  | .take none | .scope none _ | .close | .drop | .collect _ => true
  | _ => false

/-- What of an answer is seen by an observer who sees only some events. -/
def Answer.seen (shows : StreamEvent → Bool) (a : Answer) : Answer :=
  { a with events := a.events.filter shows }

/-- Matched sessions agree, for every observer who overlooks what was dropped, in what exhausts
them. -/
theorem SessionOp.agrees_of_exhausts {drops : YieldRequest → Prop} {kind : InputKind}
    {programs programs' : List Program} {shows : StreamEvent → Bool}
    (hthin : Thinning drops programs programs') (hshows : kind.Overlooks shows drops)
    {op : SessionOp} (hop : op.exhausts = true) :
    op.Agrees backend backend (Seat.Matched drops kind programs programs') (Answer.seen shows) := by
  intro s s' h
  have replied {act : Act (Seat World) Reply}
      (hact : act.Alike (Seat.Matched drops kind programs programs') act s s') :
      Answer.seen shows (Answer.reply act s).1 = Answer.seen shows (Answer.reply act s').1 ∧
        Seat.Matched drops kind programs programs' (Answer.reply act s).2
          (Answer.reply act s').2 := by
    obtain ⟨hanswer, hafter⟩ := Answer.reply_alike hact
    exact ⟨by rw [hanswer], hafter⟩
  have looped {act : Act (Seat World) Drain} (hact : ∃ d d' t t', act.run s = .ok d t ∧
      act.run s' = .ok d' t' ∧ d.Resembles drops kind d' ∧
      Seat.Matched drops kind programs programs' t t') :
      Answer.seen shows (Answer.drain act s).1 = Answer.seen shows (Answer.drain act s').1 ∧
        Seat.Matched drops kind programs programs' (Answer.drain act s).2
          (Answer.drain act s').2 := by
    obtain ⟨d, d', t, t', hrun, hrun', hd, ht⟩ := hact
    rw [Answer.drain_of_run hrun, Answer.drain_of_run hrun']
    refine ⟨?_, ht⟩
    simp only [Answer.seen, Answer.ofDrain, hd.ending, hd.events shows hshows]
  cases op with
  | pull | next => simp [exhausts] at hop
  | take limit =>
    cases limit with
    | none => exact looped (h.drain hthin)
    | some => simp [exhausts] at hop
  | scope limit raising =>
    cases limit with
    | none => exact looped (h.scope hthin raising)
    | some => simp [exhausts] at hop
  | close =>
    obtain ⟨⟨t, t', hrun, hrun', ht⟩, -⟩ := h.closed
    exact replied (Act.Alike.bind ⟨.ok (), t, t', hrun, hrun', ht⟩ fun _ _ _ ht => .pure _ ht)
  | drop =>
    obtain ⟨-, t, t', hrun, hrun', ht⟩ := h.closed
    exact replied (Act.Alike.bind ⟨.ok (), t, t', hrun, hrun', ht⟩ fun _ _ _ ht => .pure _ ht)
  | collect collected =>
    exact replied ((h.collect_alike hthin collected).bind fun _ _ _ ht => .pure _ ht)

/-! ## Engines -/

namespace EngineOp

variable {drops : YieldRequest → Prop} {programs programs' : List Program} {sends : Nat}
  {ledger : Ledger} {r r' : Room World}

/-- Inputs that are taken alike become sessions that are matched. -/
theorem submit_matched (config : EngineConfig) (hr : r.Ready programs sends ledger)
    (hr' : r'.Ready programs' sends ledger) (kind : InputKind) (payload : Bytes) :
    Room.Paired (Seat.Matched drops kind programs programs') r.sessions.length r'.sessions.length
      ((submit kind (.bytes payload) (some false)).perform backend config r).2
      ((submit kind (.bytes payload) (some false)).perform backend config r').2 := by
  rw [perform_opened backend kind payload hr.idle.1 rfl,
    perform_opened backend kind payload hr'.idle.1 rfl]
  exact .held ((Room.session?_append).trans (if_pos rfl))
    ((Room.session?_append).trans (if_pos rfl)) (.fresh rfl rfl rfl rfl rfl rfl hr hr')

/-- Inputs that are collected at once come to the same, and leave the same. -/
theorem submit_collected_eq (config : EngineConfig) (hthin : Thinning drops programs programs')
    (hr : r.Ready programs sends ledger) (hr' : r'.Ready programs' sends ledger) (kind : InputKind)
    (payload : Bytes) {choice : Option Bool} (hcollects : config.collects choice = true) :
    let q := (submit kind (.bytes payload) choice).perform backend config r
    let q' := (submit kind (.bytes payload) choice).perform backend config r'
    q'.1 = q.1 ∧ q'.2.controller.state = q.2.controller.state ∧
      q'.2.canonicalLedger = q.2.canonicalLedger := by
  intro q q'
  have hfresh : Seat.Matched drops kind programs programs'
      ⟨r.toDesk, config.session kind payload⟩ ⟨r'.toDesk, config.session kind payload⟩ :=
    .fresh rfl rfl rfl rfl rfl rfl hr hr'
  obtain ⟨o, t, t', hrun, hrun', ht⟩ := hfresh.collect_alike hthin kind
  have hq : q = _ := perform_collected backend hr.idle.1 hcollects hrun
  have hq' : q' = _ := perform_collected backend hr'.idle.1 hcollects hrun'
  rw [hq, hq']
  exact ⟨rfl, ht.desk_eq⟩

/-- Progress, and yields for reasons that are not known, change nothing. If some are left out of the
programs, an input that is collected comes to the same result or the same error, in an engine and
with a ledger that are left the same; a session delivers the same outputs and reports until it ends;
and if what is left out would not have been delivered, whoever holds the session cannot tell. -/
theorem thinned_agree (config : EngineConfig) (hthin : Thinning drops programs programs')
    (hr : r.Ready programs sends ledger) (hr' : r'.Ready programs' sends ledger) (kind : InputKind)
    (payload : Bytes) :
    (∀ choice, config.collects choice = true →
      let q := (submit kind (.bytes payload) choice).perform backend config r
      let q' := (submit kind (.bytes payload) choice).perform backend config r'
      q'.1 = q.1 ∧ q'.2.controller.state = q.2.controller.state ∧
        q'.2.canonicalLedger = q.2.canonicalLedger) ∧
    (∀ ops : List SessionOp, (∀ op ∈ ops, op.exhausts = true) →
      let seen := Sight.through (Answer.seen StreamEvent.isPayload)
      (sightsOf backend config kind payload ops r').map seen =
        (sightsOf backend config kind payload ops r).map seen) ∧
    ((kind = .inspect ∨ ∀ q, drops q → (readAutomatic q).event? = none) →
      ∀ ops, sightsOf backend config kind payload ops r' =
        sightsOf backend config kind payload ops r) := by
  refine ⟨fun choice hcollects => ?_, fun ops hops => ?_, fun hsilent ops => ?_⟩
  · exact submit_collected_eq config hthin hr hr' kind payload hcollects
  · intro seen
    have hagrees (op) (hop : op ∈ ops) : op.Agrees backend backend
        (Seat.Matched drops kind programs programs') (Answer.seen StreamEvent.isPayload) :=
      SessionOp.agrees_of_exhausts hthin (kind.overlooks_isPayload drops) (hops op hop)
    exact ((submit_matched config hr hr' kind payload).sights_eq Seat.Matched.looks config config
      ops hagrees).1.symm
  · have hoverlooks : kind.Overlooks (fun _ => true) drops := by
      rintro rfl q value hq hvalue
      rcases hsilent with hkind | hsilent
      · cases hkind
      · simpa [hvalue, Reading.event?] using hsilent q hq
    exact ((submit_matched config hr hr' kind payload).sights_eq_of_lockstep
      (Seat.Matched.lockstep hthin hoverlooks) config config ops).1.symm

/-- An advance that tells its progress, once so that nobody can read it, and yields for a reason
that nobody knows; and the same advance without all this. -/
theorem talkative_thinned_agree :
    let program := Program.script [.append [1], .automatic .progress (Bytes.word32 5),
      .automatic .output [2], .breakWith automaticBreak (.request ⟨1, 9, []⟩),
      .automatic .report [3], .automatic .progress [0], .manual .accepted [4]]
    let terse := Program.script [.append [1], .automatic .output [2], .automatic .report [3],
      .manual .accepted [4]]
    let r : Room World := .opening 0 { world := .ofLedger [[7]] [program] [] }
    let r' : Room World := .opening 0 { world := .ofLedger [[7]] [terse] [] }
    let advance : EngineOp := .submit .advance (.bytes [8]) (some true)
    let seen := Sight.through (Answer.seen StreamEvent.isPayload)
    Thinning YieldRequest.Negligible [program] [terse] ∧ r.Ready [program] 0 [[7]] ∧
      r'.Ready [terse] 0 [[7]] ∧
      (advance.perform backend {} r').1 = (advance.perform backend {} r).1 ∧
      (advance.perform backend {} r').2.canonicalLedger = [[7], [1]] ∧
      (sightsOf backend {} .advance [8] [.take none] r').map seen =
        (sightsOf backend {} .advance [8] [.take none] r).map seen ∧
      sightsOf backend {} .inspect [8] [.pull, .take none] r' =
        sightsOf backend {} .inspect [8] [.pull, .take none] r := by
  intro program terse r r' advance seen
  have hthins : Program.Thins YieldRequest.Negligible program terse :=
    .script (.keep _ (.drop (.inl rfl) (.keep _ (.drop (.inr (by decide)) (.keep _
      (.drop (.inl rfl) (.keep _ .nil)))))))
  have hthin : Thinning YieldRequest.Negligible [program] [terse] := by
    refine ⟨fun _ h => h, .cons hthins .nil, ?_⟩
    simp [program, Program.Deathless, Action.automatic, Action.manual]
  have hr : r.Ready [program] 0 [[7]] := ⟨⟨rfl, rfl⟩, ⟨rfl, rfl, rfl⟩, _, rfl, rfl, rfl⟩
  have hr' : r'.Ready [terse] 0 [[7]] := ⟨⟨rfl, rfl⟩, ⟨rfl, rfl, rfl⟩, _, rfl, rfl, rfl⟩
  have hadvance := thinned_agree {} hthin hr hr' .advance [8]
  have hinspect := thinned_agree {} hthin hr hr' .inspect [8]
  obtain ⟨hanswer, -, -⟩ := hadvance.1 (some true) rfl
  exact ⟨hthin, hr, hr', hanswer, by decide +kernel, hadvance.2.1 [.take none] (by decide),
    hinspect.2.2 (.inl rfl) _⟩

end EngineOp

end RollupEngine
