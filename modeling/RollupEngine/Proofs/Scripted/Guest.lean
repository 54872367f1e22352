import RollupEngine.Proofs.Session.Reference
import RollupEngine.Scripted.World

/-!
# The ledger guest

What a guest does between two breaks is told by its actions, if it neither dies nor fails
(`Action.Plain`): it appends entries, and it comes back to the host. The ledger guest is of this
kind (`plain_ledgerGuest`). So a machine on which it runs answers with the breaks among its actions,
whatever part of them the host asks for (`World.replays_breaks`), and this gives its reference: how
an input of the ledger guest ends, and the events on the way there (`ending?_ledgerAdvance`,
`ending?_ledgerInspect` and their companions).

In a world without faults, a call fails only on a machine that is not alive. `fork_of_alive`,
`send_of_alive` and so on say what the others do.
-/

namespace RollupEngine.Scripted

/-! ## Actions -/

/-- The request that a machine hands over. -/
def Pending.request? : Pending → Option YieldRequest
  | .request r => some r
  | _ => none

namespace Action

/-- The entry that an action appends. -/
def entry? : Action → Option Bytes
  | .append entry => some entry
  | _ => none

/-- The break with which an action comes back to the host. -/
def break? : Action → Option Break
  | .breakWith reason pending => some ⟨reason, pending.request?⟩
  | _ => none

/-- An action that neither dies nor fails, and comes back to the host with a break that can be read,
and with a request to hand over when it yields. -/
def Plain : Action → Prop
  | .append _ => True
  | .breakWith reason pending => (isYield reason = true → ∃ r, pending = .request r) ∧
      Break.Readable ⟨reason, pending.request?⟩
  | .die | .raise _ => False

theorem Plain.append_of_break? {a : Action} (h : a.Plain) (ha : a.break? = none) :
    ∃ entry, a = .append entry := by
  cases a with
  | append entry => exact ⟨entry, rfl⟩
  | breakWith => cases ha
  | die | raise => exact h.elim

theorem plain_automatic (reason : AutomaticReason) (payload : Bytes) :
    (automatic reason payload).Plain :=
  ⟨fun _ => ⟨_, rfl⟩, Break.readable_automatic _⟩

theorem plain_manual (reason : ManualReason) (payload : Bytes) : (manual reason payload).Plain :=
  ⟨fun _ => ⟨_, rfl⟩, by cases reason <;> rfl⟩

end Action

/-- The entries that actions append. -/
def entries (actions : List Action) : Ledger :=
  actions.filterMap Action.entry?

/-- The breaks among actions. -/
def breaks (actions : List Action) : List Break :=
  actions.filterMap Action.break?

theorem readable_of_plain {actions : List Action} (h : ∀ a ∈ actions, a.Plain) :
    ∀ a ∈ breaks actions, a.Readable := by
  intro a ha
  obtain ⟨action, hmem, hbreak⟩ := List.mem_filterMap.1 ha
  have hplain := h action hmem
  cases action with
  | append | die | raise => cases hbreak
  | breakWith =>
    cases hbreak
    exact hplain.2

theorem entries_append (as as' : List Action) : entries (as ++ as') = entries as ++ entries as' :=
  List.filterMap_append

/-! ## Inputs of the ledger guest -/

/-- A payload that the ledger guest accepts. -/
structure Acceptable (payload : Bytes) : Prop where
  not_reject : ¬Utf8.encode "reject" <+: payload
  not_raise : ¬Utf8.encode "raise:" <+: payload
  ne_halt : payload ≠ Utf8.encode "halt"

/-- What the guest does at the end of an advance, and the ending of the input that it is. -/
inductive AdvanceEnds (ledger : Ledger) (payload : Bytes) : List Action → Ending → Prop
  | rejected (h : Utf8.encode "reject" <+: payload) :
    AdvanceEnds ledger payload [.manual .rejected []] .rejected
  | exception (h : Utf8.encode "raise:" <+: payload) (reason : Bytes) :
    AdvanceEnds ledger payload [.manual .exception reason] (.exception (Utf8.decode reason))
  | halted (h : payload = Utf8.encode "halt") :
    AdvanceEnds ledger payload [.breakWith haltedBreak .absent]
      (.violation (.unexpectedBreak haltedBreak))
  | accepted (h : Acceptable payload) :
    AdvanceEnds ledger payload
      [.automatic .output payload, .automatic .report (Ledger.lengthReport (ledger ++ [payload])),
        .automatic .progress (Bytes.word32 100),
        .manual .accepted (Ledger.root (ledger ++ [payload]))]
      (.accepted (Ledger.root (ledger ++ [payload])))

theorem after?_eq_none {word : String} {payload : Bytes} (h : after? word payload = none) :
    ¬Utf8.encode word <+: payload := by
  unfold after? at h
  split at h
  · cases h
  · next hno => rwa [List.isPrefixOf_iff_prefix] at hno

theorem prefix_of_after? {word : String} {payload rest : Bytes}
    (h : after? word payload = some rest) : Utf8.encode word <+: payload := by
  unfold after? at h
  split at h
  · next hyes => exact List.isPrefixOf_iff_prefix.1 hyes
  · cases h

/-- An advance appends its payload, and ends. -/
theorem ledgerAdvance_ends (ledger : Ledger) (payload : Bytes) :
    ∃ last e, ledgerAdvance ledger payload =
      .append payload :: .automatic .progress (Bytes.word32 0) :: last ∧
        AdvanceEnds ledger payload last e := by
  cases hreject : after? "reject" payload with
  | some rest =>
    refine ⟨_, _, ?_, .rejected (prefix_of_after? hreject)⟩
    simp [ledgerAdvance, hreject]
  | none =>
    cases hraise : after? "raise:" payload with
    | some reason =>
      refine ⟨_, _, ?_, .exception (prefix_of_after? hraise) reason⟩
      simp [ledgerAdvance, hreject, hraise]
    | none =>
      by_cases hhalt : payload = Utf8.encode "halt"
      · refine ⟨_, _, ?_, .halted hhalt⟩
        simp only [ledgerAdvance, hreject, hraise, if_pos hhalt]
        rfl
      · refine ⟨_, _, ?_, .accepted ⟨after?_eq_none hreject, after?_eq_none hraise, hhalt⟩⟩
        simp [ledgerAdvance, hreject, hraise, hhalt]

/-- The ledger guest neither dies nor fails. -/
theorem plain_ledgerGuest (ledger : Ledger) (reason : RequestReason) (payload : Bytes) :
    ∀ a ∈ ledgerGuest ledger reason payload, a.Plain := by
  cases reason with
  | advance =>
    obtain ⟨last, e, hactions, hends⟩ := ledgerAdvance_ends ledger payload
    rw [ledgerGuest, hactions]
    refine List.forall_mem_cons.2 ⟨trivial, List.forall_mem_cons.2 ⟨Action.plain_automatic _ _, ?_⟩⟩
    cases hends with
    | rejected | exception => simp [Action.plain_manual]
    | halted => exact List.forall_mem_singleton.2 ⟨fun h => absurd h (by decide), rfl⟩
    | accepted => simp [Action.plain_automatic, Action.plain_manual]
  | inspect =>
    have hreports : ∀ a ∈ ledger.map (Action.automatic .report), a.Plain := by
      simp [Action.plain_automatic]
    have hend : ∀ a ∈ [Action.append (Utf8.encode "inspected"), .manual .accepted []], a.Plain :=
      List.forall_mem_cons.2 ⟨trivial, List.forall_mem_singleton.2 (Action.plain_manual _ _)⟩
    simp only [ledgerGuest, ledgerInspect, List.forall_mem_append]
    refine ⟨⟨⟨?_, ?_⟩, hreports⟩, hend⟩
    · exact List.forall_mem_singleton.2 (Action.plain_automatic _ _)
    · split
      · exact List.forall_mem_singleton.2 (Action.plain_automatic _ _)
      · exact List.forall_mem_nil _

/-- Once an advance has done anything, it has appended its payload. -/
theorem entries_of_advance {ledger : Ledger} {payload : Bytes} {used rest : List Action}
    (h : ledgerAdvance ledger payload = used ++ rest) (hused : used ≠ []) :
    entries used = [payload] := by
  obtain ⟨last, e, hactions, hends⟩ := ledgerAdvance_ends ledger payload
  have hlast : entries last = [] := by cases hends <;> rfl
  cases used with
  | nil => exact absurd rfl hused
  | cons a used =>
    rw [hactions, List.cons_append] at h
    obtain ⟨rfl, htail⟩ := List.cons.inj h
    have hrest : entries (used ++ rest) = [] := by
      rw [← htail]
      exact hlast
    rw [entries_append] at hrest
    exact congrArg (payload :: ·) (List.append_eq_nil_iff.1 hrest).1

/-! ## Its reference -/

theorem ending?_ledgerAdvance {ledger : Ledger} {payload : Bytes} {last : List Action} {e : Ending}
    (h : AdvanceEnds ledger payload last e) :
    InputKind.advance.ending?
      (breaks (.append payload :: .automatic .progress (Bytes.word32 0) :: last)) = some e := by
  cases h <;> rfl

/-- An advance that is accepted delivers an output, a report, and how far it has come. -/
theorem events_ledgerAdvance {ledger : Ledger} {payload root : Bytes} {last : List Action}
    (h : AdvanceEnds ledger payload last (.accepted root)) :
    InputKind.advance.events
        (breaks (.append payload :: .automatic .progress (Bytes.word32 0) :: last)) =
      [.stream (.progress 0), .stream (.output payload),
        .stream (.report (Ledger.lengthReport (ledger ++ [payload]))),
        .stream (.progress 100)] := by
  cases h
  rfl

/-- An inspect may emit no output. -/
theorem ending?_ledgerInspect_of_output (ledger : Ledger) :
    InputKind.inspect.ending? (breaks (ledgerInspect ledger (Utf8.encode "emit-output"))) =
      some (.violation .outputInInspect) := by
  rw [ledgerInspect, if_pos rfl]
  rfl

/-- What the guest does at the end of an inspect: it reports its entries. -/
def reporting (ledger : Ledger) : List Action :=
  ledger.map (.automatic .report) ++ [.append (Utf8.encode "inspected"), .manual .accepted []]

theorem reporting_accepted (ledger : Ledger) :
    InputKind.inspect.ending? (breaks (reporting ledger)) = some (.accepted []) ∧
      InputKind.inspect.events (breaks (reporting ledger)) =
        ledger.map fun entry => .stream (.report entry) := by
  induction ledger with
  | nil => exact ⟨rfl, rfl⟩
  | cons entry ledger ih =>
    obtain ⟨hending, hevents⟩ := ih
    have hbreaks : breaks (reporting (entry :: ledger)) =
        ⟨automaticBreak, some ⟨Coded.code YieldCommand.automatic,
          Coded.code AutomaticReason.report, entry⟩⟩ :: breaks (reporting ledger) := rfl
    rw [hbreaks, InputKind.ending?_cons _ rfl, InputKind.events_cons _ rfl, hevents]
    exact ⟨hending, rfl⟩

/-- An inspect that emits no output is accepted, and delivers the entries of the ledger. -/
theorem ledgerInspect_accepted (ledger : Ledger) {query : Bytes}
    (h : query ≠ Utf8.encode "emit-output") :
    InputKind.inspect.ending? (breaks (ledgerInspect ledger query)) = some (.accepted []) ∧
      InputKind.inspect.events (breaks (ledgerInspect ledger query)) =
        ledger.map fun entry => .stream (.report entry) := by
  have hactions : ledgerInspect ledger query =
      .automatic .progress (Bytes.word32 10) :: reporting ledger := by
    rw [ledgerInspect, if_neg h, reporting]
    simp
  have hbreaks : breaks (ledgerInspect ledger query) =
      ⟨automaticBreak, some ⟨Coded.code YieldCommand.automatic,
        Coded.code AutomaticReason.progress, Bytes.word32 10⟩⟩ :: breaks (reporting ledger) := by
    rw [hactions]
    rfl
  obtain ⟨hending, hevents⟩ := reporting_accepted ledger
  rw [hbreaks, InputKind.ending?_cons _ rfl, InputKind.events_cons _ rfl, hevents]
  exact ⟨hending, rfl⟩

/-! ## Machines on which a guest runs -/

/-- One run of a machine whose guest neither dies nor fails: it uses up some of its actions, and
comes back to the host for this reason. -/
structure Machine.Runs (m : Machine) (reason : Int) (m' : Machine) (used : List Action) : Prop where
  perform : m.perform m.actions = (.ok reason, m')
  actions : m.actions = used ++ m'.actions
  nonempty : m.actions ≠ [] → used ≠ []
  ledger : m'.ledger = m.ledger ++ entries used
  alive : m'.alive = m.alive
  pending : isYield reason = true → ∃ r, m'.pending = .request r

namespace Machine

theorem perform_appends (m : Machine) {pre : List Action} (h : ∀ a ∈ pre, ∃ e, a = .append e)
    (rest : List Action) :
    m.perform (pre ++ rest) = { m with ledger := m.ledger ++ entries pre }.perform rest := by
  induction pre generalizing m with
  | nil => simp [entries]
  | cons a pre ih =>
    obtain ⟨⟨e, rfl⟩, hpre⟩ := List.forall_mem_cons.1 h
    rw [List.cons_append, perform, ih _ hpre]
    congr 2
    exact List.append_assoc ..

theorem runs_halted {m : Machine} (h : ∀ a ∈ m.actions, ∃ e, a = .append e) :
    ∃ m', m.Runs haltedBreak m' m.actions := by
  have hperform := m.perform_appends h []
  rw [List.append_nil] at hperform
  exact ⟨_, hperform, (List.append_nil _).symm, id, rfl, rfl, fun h => absurd h (by decide)⟩

theorem runs_break {m : Machine} {pre rest : List Action} {reason : Int} {pending : Pending}
    (hm : m.actions = pre ++ .breakWith reason pending :: rest)
    (hpre : ∀ a ∈ pre, ∃ e, a = .append e)
    (hpending : isYield reason = true → ∃ r, pending = .request r) :
    m.Runs reason { m with
      ledger := m.ledger ++ entries pre, actions := rest, pending := pending }
        (pre ++ [.breakWith reason pending]) where
  perform := by
    rw [hm, m.perform_appends hpre]
    rfl
  actions := by
    rw [hm, List.append_assoc]
    rfl
  nonempty _ := by simp
  ledger := by
    rw [entries_append]
    exact (congrArg (m.ledger ++ ·) (List.append_nil _)).symm
  alive := rfl
  pending := hpending

/-- The actions up to the first break. -/
theorem split_of_breaks {actions : List Action} {a : Break} {bs : List Break}
    (h : ∀ x ∈ actions, x.Plain) (hb : breaks actions = a :: bs) :
    ∃ pre pending rest, actions = pre ++ .breakWith a.reason pending :: rest ∧
      (∀ x ∈ pre, ∃ e, x = .append e) ∧ pending.request? = a.request ∧ breaks rest = bs ∧
      (isYield a.reason = true → ∃ r, pending = .request r) := by
  obtain ⟨pre, x, rest, rfl, hpre, hx, hrest⟩ := List.filterMap_eq_cons_iff.1 hb
  have hplain := h x (List.mem_append_right _ List.mem_cons_self)
  cases x with
  | append | die | raise => cases hx
  | breakWith reason pending =>
    cases hx
    exact ⟨pre, pending, rest, rfl, fun y hy =>
      (h y (List.mem_append_left _ hy)).append_of_break? (hpre y hy), rfl, hrest, hplain.1⟩

/-- A guest that neither dies nor fails comes back to the host. -/
theorem runs_of_plain {m : Machine} (h : ∀ a ∈ m.actions, a.Plain) :
    ∃ reason m' used, m.Runs reason m' used := by
  cases hb : breaks m.actions with
  | nil =>
    have happends : ∀ a ∈ m.actions, ∃ e, a = .append e := fun a ha =>
      (h a ha).append_of_break? (List.filterMap_eq_nil_iff.1 hb a ha)
    obtain ⟨m', hruns⟩ := runs_halted happends
    exact ⟨_, m', _, hruns⟩
  | cons a bs =>
    obtain ⟨pre, pending, rest, hm, hpre, -, -, hpending⟩ := split_of_breaks h hb
    exact ⟨_, _, _, runs_break hm hpre hpending⟩

end Machine

/-! ## Calls to machines that are alive -/

section

variable {w : World} {h : Handle} {m : Machine}

/-- Without faults, a call to a machine that is alive does its body. -/
theorem World.call_of_alive {α : Type} (hf : w.faults = []) (hm : w.machines[h]? = some m)
    (ha : m.alive = true) (method : Method) (body : Machine → World → Except Error α × World) :
    w.call method h body = body m (w.count method) := by
  simp [World.call, World.enter, World.fault?, World.count, hf, hm, ha]

theorem fork_of_alive (hf : w.faults = []) (hm : w.machines[h]? = some m) (ha : m.alive = true) :
    backend.fork h w = (w.count .fork).addMachine { ledger := m.ledger } := by
  simp only [backend, World.call_of_alive hf hm ha]

theorem send_of_alive (hf : w.faults = []) (hm : w.machines[h]? = some m) (ha : m.alive = true)
    (reason : RequestReason) (payload : Bytes) :
    backend.send h reason payload w = (.ok (), { (w.count .send).setMachine h { m with
      actions := w.nextProgram.actions m.ledger reason payload, pending := .absent } with
        sends := w.sends + 1 }) := by
  simp only [backend, World.call_of_alive hf hm ha]
  rfl

theorem run_of_alive (hf : w.faults = []) (hm : w.machines[h]? = some m) (ha : m.alive = true) :
    backend.run h w =
      ((m.perform m.actions).1, (w.count .run).setMachine h (m.perform m.actions).2) := by
  simp only [backend, World.call_of_alive hf hm ha]

theorem receive_of_alive (hf : w.faults = []) (hm : w.machines[h]? = some m)
    (ha : m.alive = true) : backend.receive h w = (m.answer, w.count .receive) := by
  simp only [backend, World.call_of_alive hf hm ha]

theorem shutdown_of_alive (hf : w.faults = []) (hm : w.machines[h]? = some m)
    (ha : m.alive = true) :
    backend.shutdown h w =
      (.ok (), (w.count .shutdown).setMachine h { m with alive := false }) := by
  simp only [backend, World.call_of_alive hf hm ha]

theorem store_of_alive (hf : w.faults = []) (hm : w.machines[h]? = some m) (ha : m.alive = true)
    (path : String) : backend.store h path w = (.ok (), (w.count .store).save path m.ledger) := by
  simp only [backend, World.call_of_alive hf hm ha]

/-! ## Machines on which the ledger guest runs -/

/-- In a tame world no call is made to fail, and the ledger guest answers every request. -/
structure World.Tame (w : World) : Prop where
  faults : w.faults = []
  programs : w.programs = []

theorem World.Tame.send (hw : w.Tame) (hm : w.machines[h]? = some m) (ha : m.alive = true)
    (reason : RequestReason) (payload : Bytes) :
    backend.send h reason payload w = (.ok (), { (w.count .send).setMachine h { m with
      actions := ledgerGuest m.ledger reason payload, pending := .absent } with
        sends := w.sends + 1 }) := by
  have hprogram : w.nextProgram = .ledger := by simp [World.nextProgram, hw.programs]
  rw [send_of_alive hw.faults hm ha, hprogram]
  rfl

theorem World.Tame.replies_run {reason : Int} {m' : Machine} {used : List Action} (hw : w.Tame)
    (hm : w.machines[h]? = some m) (ha : m.alive = true) (hruns : m.Runs reason m' used) :
    backend.Replies w (.run h (.ok reason)) ((w.count .run).setMachine h m') := by
  rw [Backend.Replies, run_of_alive hw.faults hm ha, hruns.perform]

/-- A machine comes back to the host with a break. -/
theorem World.Tame.replays_break {a : Break} {m' : Machine} {used : List Action} (hw : w.Tame)
    (hm : w.machines[h]? = some m) (ha : m.alive = true) (hruns : m.Runs a.reason m' used)
    (hrequest : m'.pending.request? = a.request) :
    ∃ w', backend.Replays w (a.exchanges h) w' ∧ w'.Tame ∧
      w'.machines = w.machines.set h m' := by
  let w₁ : World := (w.count .run).setMachine h m'
  have hw₁ : w₁.Tame := ⟨hw.faults, hw.programs⟩
  have hrun : backend.Replies w (.run h (.ok a.reason)) w₁ := hw.replies_run hm ha hruns
  unfold Break.exchanges
  split
  · next hyield =>
    have hm₁ : w₁.machines[h]? = some m' := by
      obtain ⟨hlt, -⟩ := List.getElem?_eq_some_iff.1 hm
      exact List.getElem?_set_self hlt
    obtain ⟨r, hr⟩ := hruns.pending hyield
    have hreceive : backend.Replies w₁ (.receive h (.ok a.request)) (w₁.count .receive) := by
      rw [Backend.Replies, receive_of_alive hw₁.faults hm₁ (hruns.alive.trans ha), ← hrequest,
        Machine.answer, hr]
      rfl
    exact ⟨_, .cons hrun (.single hreceive), ⟨hw₁.faults, hw₁.programs⟩, rfl⟩
  · exact ⟨w₁, .single hrun, hw₁, rfl⟩

/-- A machine on which a guest runs answers with the breaks among its actions. -/
theorem World.Tame.replays_breaks (hw : w.Tame) (hm : w.machines[h]? = some m)
    (ha : m.alive = true) (hplain : ∀ a ∈ m.actions, a.Plain) (n : Nat) :
    ∃ w' m', backend.Replays w (((breaks m.actions).take n).flatMap (Break.exchanges h)) w' ∧
      w'.Tame ∧ w'.machines = w.machines.set h m' ∧ m'.alive = true := by
  have still {w : World} {m : Machine} (hw : w.Tame) (hm : w.machines[h]? = some m)
      (ha : m.alive = true) : ∃ w' m', backend.Replays w [] w' ∧ w'.Tame ∧
        w'.machines = w.machines.set h m' ∧ m'.alive = true := by
    obtain ⟨hlt, hget⟩ := List.getElem?_eq_some_iff.1 hm
    exact ⟨w, m, .nil w, hw, by rw [← hget, List.set_getElem_self], ha⟩
  induction n generalizing w m with
  | zero => exact still hw hm ha
  | succ n ih =>
    cases hb : breaks m.actions with
    | nil => exact still hw hm ha
    | cons a bs =>
      obtain ⟨pre, pending, tail, hactions, hpre, hrequest, rfl, hpending⟩ :=
        Machine.split_of_breaks hplain hb
      have hruns := Machine.runs_break hactions hpre hpending
      obtain ⟨w₁, hbreak, hw₁, hmachines⟩ := hw.replays_break hm ha hruns hrequest
      obtain ⟨hlt, -⟩ := List.getElem?_eq_some_iff.1 hm
      have hm₁ := congrArg (·[h]?) hmachines
      rw [List.getElem?_set_self hlt] at hm₁
      have htail : ∀ a ∈ tail, a.Plain := fun x hx =>
        hplain x (by rw [hactions]; exact List.mem_append_right _ (List.mem_cons_of_mem _ hx))
      obtain ⟨w', m', hrest, hw', hmachines', ha'⟩ := ih hw₁ hm₁ ha htail
      refine ⟨w', m', ?_, hw', ?_, ha'⟩
      · rw [List.take_succ_cons, List.flatMap_cons]
        exact hbreak.append hrest
      · rw [hmachines', hmachines, List.set_set]

end

end RollupEngine.Scripted
