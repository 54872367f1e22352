import RollupEngine.Proofs.Link

/-!
# The machines that an engine knows

A controller knows the canonical machine and the one that its transaction works on
(`Controller.Knows`). Nobody tells it of other machines: it calls those that it knows and those that
it forks, and knows no others afterwards (`Controller.KeepsTo`). This holds of what the controller
does, so it holds of every move of a session (`Session.Moves.keepsTo`) and of every operation on an
engine (`EngineOp.Does.keepsTo`), for every backend. It is what engines rely on that share a site.
-/

namespace RollupEngine

variable {W : Type}

/-- A machine that these calls forked. -/
def Forked (xs : List Exchange) (h : Handle) : Prop :=
  ∃ k, .fork k (.ok h) ∈ xs

theorem Forked.mono {xs ys : List Exchange} {h : Handle} (hf : Forked xs h) (hsub : xs ⊆ ys) :
    Forked ys h :=
  hf.imp fun _ hk => hsub hk

namespace Controller

/-- The machines that a controller knows: the canonical one, and the one that its transaction works
on. -/
def Knows (c : Controller) (h : Handle) : Prop :=
  h = c.canonical ∨ c.transaction.map Transaction.working = some h

/-- The calls `xs` are made to machines that the controller `c` knows, or that they fork, and the
controller `c'` knows no others. -/
structure KeepsTo (c : Controller) (xs : List Exchange) (c' : Controller) : Prop where
  calls : ∀ x ∈ xs, ∀ h, x.machine? = some h → c.Knows h ∨ Forked xs h
  after : ∀ h, c'.Knows h → c.Knows h ∨ Forked xs h

variable {c c' c'' : Controller} {mode : Isolation} {xs ys : List Exchange} {ns : List Notice}
  {w : Handle}

theorem Knows.eq_canonical (h : c.Knows w) (ht : c.transaction = none) : w = c.canonical := by
  simpa [Knows, ht] using h

namespace KeepsTo

/-- Without a call, nothing becomes known. -/
theorem silent (h : ∀ h, c'.Knows h → c.Knows h) : c.KeepsTo [] c' :=
  ⟨nofun, fun k hk => .inl (h k hk)⟩

theorem refl (c : Controller) : c.KeepsTo [] c :=
  silent fun _ hk => hk

theorem single {x : Exchange} (hx : ∀ h, x.machine? = some h → c.Knows h)
    (hafter : ∀ h, c'.Knows h → c.Knows h ∨ Forked [x] h) : c.KeepsTo [x] c' :=
  ⟨fun y hy h hm => .inl (hx h (by rwa [List.mem_singleton.1 hy] at hm)), hafter⟩

/-- A call to a machine that is known. -/
theorem work {x : Exchange} (hx : x.machine? = some w) (hw : c.Knows w) : c.KeepsTo [x] c :=
  single (fun _ hm => Option.some.inj (hx.symm.trans hm) ▸ hw) fun _ hk => .inl hk

theorem trans (h : c.KeepsTo xs c') (h' : c'.KeepsTo ys c'') : c.KeepsTo (xs ++ ys) c'' := by
  have widen {k : Handle} (hk : c'.Knows k ∨ Forked ys k) : c.Knows k ∨ Forked (xs ++ ys) k := by
    rcases hk with hk | hk
    · exact (h.after k hk).imp_right (·.mono (List.subset_append_left ..))
    · exact .inr (hk.mono (List.subset_append_right ..))
  refine ⟨fun x hx k hm => ?_, fun k hk => widen (h'.after k hk)⟩
  rcases List.mem_append.1 hx with hx | hx
  · exact (h.calls x hx k hm).imp_right (·.mono (List.subset_append_left ..))
  · exact widen (h'.calls x hx k hm)

end KeepsTo

theorem Begins.keepsTo {o : Except Failure Handle} (h : c.Begins mode xs ns o c') :
    c.KeepsTo xs c' := by
  have hcanonical : ∀ k, (some c.canonical : Option Handle) = some k → c.Knows k :=
    fun k hk => .inl (Option.some.inj hk).symm
  cases h with
  | closed | busy => exact .refl c
  | direct => exact .silent fun k hk => .inl (hk.elim id fun hk => (Option.some.inj hk).symm)
  | isolated _ _ w =>
    refine .single hcanonical fun k hk => ?_
    rcases hk with hk | hk
    · exact .inl (.inl hk)
    · cases hk
      exact .inr ⟨_, List.mem_singleton.2 rfl⟩
  | failed | interrupted => exact .single hcanonical fun k hk => .inl hk

/-- The machine of the transaction that was opened is known. -/
theorem Begins.knows (h : c.Begins mode xs ns (.ok w) c') : c'.Knows w :=
  .inr h.working

theorem Settles.keepsTo {keeps : Bool} {o : Except Failure Unit} (h : c.Settles keeps xs ns o c')
    (hf : c.Fits mode) : c.KeepsTo xs c' := by
  cases h with
  | absent => exact .refl c
  | direct => exact .silent fun k hk => .inl (hk.eq_canonical rfl)
  | @promoted w k ht =>
    obtain ⟨-, rfl⟩ := hf.isolated w k ht
    refine .single (fun m hm => .inl (Option.some.inj hm).symm) fun m hm => .inl (.inr ?_)
    obtain rfl := hm.eq_canonical rfl
    rw [ht]
    rfl
  | @discarded w k ht =>
    refine .single (fun m hm => .inr ?_) fun m hm => .inl (.inl (hm.eq_canonical rfl))
    rw [ht]
    exact hm

theorem Stores.keepsTo {path : String} {o : Except Failure Unit} (h : c.Stores path xs ns o) :
    c.KeepsTo xs c := by
  cases h with
  | closed | busy => exact .refl c
  | stored | failed => exact .work rfl (.inl rfl)

theorem ShutsDown.keepsTo {o : Except Failure Unit} (h : c.ShutsDown xs ns o c') :
    c.KeepsTo xs c' := by
  cases h with
  | closed | busy => exact .refl c
  | released | failed =>
    exact .single (fun k hk => .inl (Option.some.inj hk).symm) fun k hk => .inl hk

end Controller

/-! ## Sessions -/

theorem Hears.keepsTo {w : Handle} {xs : List Exchange} {o : Except Failure Reading}
    {c : Controller} (h : Hears w xs o) (hw : c.Knows w) : c.KeepsTo xs c := by
  refine ⟨fun x hx k hk => .inl ?_, fun k hk => .inl hk⟩
  rcases h.mem hx with ⟨_, rfl⟩ | ⟨_, rfl⟩ <;> cases hk <;> exact hw

namespace Session

variable {mode : Isolation} {w : Handle} {s : Session} {kind : InputKind} {c c' : Controller}
  {p : Phase} {xs : List Exchange} {ns : List Notice} {fs : List Failure}

theorem Fails.keepsTo {e : Error} {f : Failure} (h : Fails kind e c xs ns f c')
    (hf : c.Fits mode) : c.KeepsTo xs c' := by
  cases h with
  | rolledBack h => exact h.keepsTo hf

theorem Judges.keepsTo {r : Reading} {o : Except Failure Seat.Turn}
    (h : Judges kind w r c xs ns o c' p) (hf : c.Fits mode) : c.KeepsTo xs c' := by
  cases h with
  | delivered | passed | refused => exact .refl c
  | ended _ he =>
    obtain ⟨_, _, hs⟩ := he.settles
    exact hs.keepsTo hf

theorem Closes.keepsTo {o : Except Failure Unit} (h : s.Closes c xs ns o c' p)
    (hf : c.Fits mode) : c.KeepsTo xs c' := by
  cases h with
  | fresh | done => exact .refl c
  | running _ h => exact h.keepsTo hf

theorem Moves.keepsTo (h : s.Moves c xs ns fs c' p) (hf : c.Fits s.isolation)
    (hw : ∀ w, s.phase = .running w → c.Knows w) : c.KeepsTo xs c' := by
  cases h with
  | start hp h =>
    cases h with
    | refused h => exact h.keepsTo
    | sent h | interrupted h => exact h.keepsTo.trans (.work rfl h.knows)
    | failed h e _ hfail =>
      exact h.keepsTo.trans (.trans (.work rfl h.knows) (hfail.keepsTo h.fits))
  | turn hp h =>
    cases h with
    | heard hh hj => exact (hh.keepsTo (hw _ hp)).trans (hj.keepsTo hf)
    | interrupted hh => exact hh.keepsTo (hw _ hp)
    | failed hh _ hfail => exact (hh.keepsTo (hw _ hp)).trans (hfail.keepsTo hf)
  | close h | abandon h => exact h.keepsTo hf

/-- A session saves no machine. -/
theorem Moves.ne_store (h : s.Moves c xs ns fs c' p) {x : Exchange} (hx : x ∈ xs) (m : Handle)
    (path : String) (reply : Except Error Unit) : x ≠ .store m path reply := by
  rcases h.mem hx with
    ⟨-, _, rfl⟩ | ⟨_, _, _, _, _, rfl, -⟩ | ⟨_, -, ⟨_, rfl⟩ | ⟨_, rfl⟩⟩ | ⟨_, _, rfl⟩ <;> nofun

end Session

namespace Seat

variable {b : Backend W} {w : Handle} {s s' : Seat W} {xs own : List Exchange} {ns : List Notice}
  {fs : List Failure} {foreign : Option Transaction}

theorem Linked.knows (h : s.Linked foreign own) (hp : s.session.phase = .running w) :
    s.controller.Knows w := by
  obtain ⟨-, t, ht, hw⟩ := h.of_running hp
  exact .inr (by rw [ht, ← hw]; rfl)

theorem Path.keepsTo (h : Path b s xs ns fs s') (hs : s.Linked foreign own) :
    s.controller.KeepsTo xs s'.controller := by
  induction h generalizing own with
  | refl s => exact .refl s.controller
  | step head _ ih =>
    exact (head.moves.keepsTo hs.fits fun _ => hs.knows).trans (ih (head.linked hs))

theorem Path.ne_store (h : Path b s xs ns fs s') {x : Exchange} (hx : x ∈ xs) (m : Handle)
    (path : String) (reply : Except Error Unit) : x ≠ .store m path reply := by
  induction h with
  | refl => cases hx
  | step head _ ih =>
    rcases List.mem_append.1 hx with hx | hx
    · exact head.moves.ne_store hx m path reply
    · exact ih hx

end Seat

/-! ## Engines -/

namespace EngineOp

variable {b : Backend W} {config : EngineConfig} {op : EngineOp} {r r' : Room W}
  {xs own : List Exchange} {ns : List Notice} {fs : List Failure}

/-- Whatever is done with an engine, it calls the machines that it knows and those that it forks. -/
theorem Does.keepsTo (h : Does b config r op xs ns fs r') (hr : r.Linked config.isolation own) :
    r.controller.KeepsTo xs r'.controller := by
  cases h with
  | closed | notBytes | opened | absent => exact .refl r.controller
  | collected _ _ _ path => exact path.keepsTo (hr.fresh rfl rfl)
  | walked hn _ path => exact path.keepsTo (hr.seat hn)
  | stored h hd =>
    rw [hd]
    exact h.keepsTo
  | shutDown h => exact h.keepsTo

/-- A machine is saved only when this is asked for. -/
theorem Does.eq_store (h : Does b config r op xs ns fs r') {m : Handle} {path : String}
    {reply : Except Error Unit} (hx : .store m path reply ∈ xs) : op = .store path := by
  cases h with
  | closed | notBytes | opened | absent => cases hx
  | collected _ _ _ path' | walked _ _ path' => exact absurd rfl (path'.ne_store hx _ _ _)
  | stored h =>
    cases h with
    | closed | busy => cases hx
    | stored | failed =>
      cases List.mem_singleton.1 hx
      rfl
  | @shutDown _ _ _ d h =>
    generalize d.controller = c at h
    cases h with
    | closed | busy => cases hx
    | released | failed => cases List.mem_singleton.1 hx

end EngineOp

end RollupEngine
