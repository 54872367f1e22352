import RollupEngine.Machine

/-!
# What the record of a site accounts for

A site keeps the calls that were made and their outcomes. `Backend.Replays` says that a backend,
called in this order from one world, replies as recorded and ends in another, so a record accounts
for the world it led to. `Act.Runs` is what an operation amounts to: the calls and notices that it
adds to the site it works on, how it ends, and the state it leaves. Its rules follow the ways in
which operations are put together (`Act.Runs.bind`, `Act.Runs.rescue_ordinary` and so on), and its
sources are the calls of a backend.
-/

namespace RollupEngine

variable {W : Type}

/-- Whether a call raised no interrupt. -/
def Exchange.ordinary (x : Exchange) : Bool :=
  x.error?.all Error.ordinary

theorem Exchange.ordinary_eq {x : Exchange} {e : Error} (h : x.error? = some e) :
    x.ordinary = e.ordinary := by
  rw [ordinary, h]
  rfl

/-! ## Replies of a backend -/

namespace Backend

variable (b : Backend W)

/-- From the world `w`, the backend replies to a call as recorded, and the world is `w'` then. -/
def Replies (w : W) (x : Exchange) (w' : W) : Prop :=
  match x with
  | .fork m reply => b.fork m w = (reply, w')
  | .send m reason payload reply => b.send m reason payload w = (reply, w')
  | .run m reply => b.run m w = (reply, w')
  | .receive m reply => b.receive m w = (reply, w')
  | .shutdown m reply => b.shutdown m w = (reply, w')
  | .store m path reply => b.store m path w = (reply, w')
  | .load origin reply => b.load origin w = (reply, w')

/-- From the world `w`, the backend replies to calls as recorded, and the world is `w'` then. -/
inductive Replays : W → List Exchange → W → Prop
  | nil (w : W) : Replays w [] w
  | cons {w w' w'' : W} {x : Exchange} {xs : List Exchange} (head : b.Replies w x w')
      (tail : Replays w' xs w'') : Replays w (x :: xs) w''

namespace Replays

variable {b} {w w' w'' : W} {x : Exchange} {xs ys : List Exchange}

theorem single (h : b.Replies w x w') : b.Replays w [x] w' :=
  .cons h (.nil w')

theorem append (h : b.Replays w xs w') (h' : b.Replays w' ys w'') :
    b.Replays w (xs ++ ys) w'' := by
  induction h with
  | nil => exact h'
  | cons head _ ih => exact .cons head (ih h')

theorem split (h : b.Replays w (xs ++ ys) w'') :
    ∃ w', b.Replays w xs w' ∧ b.Replays w' ys w'' := by
  induction xs generalizing w with
  | nil => exact ⟨w, .nil w, h⟩
  | cons x xs ih =>
    cases h with
    | cons head tail =>
      obtain ⟨w', hxs, hys⟩ := ih tail
      exact ⟨w', .cons head hxs, hys⟩

theorem head (h : b.Replays w (x :: xs) w'') : ∃ w', b.Replies w x w' ∧ b.Replays w' xs w'' := by
  cases h with
  | cons head tail => exact ⟨_, head, tail⟩

/-- The world that calls lead to is determined by their outcomes. -/
theorem unique (h : b.Replays w xs w') (h' : b.Replays w xs w'') : w' = w'' := by
  induction h with
  | nil =>
    cases h'
    rfl
  | @cons _ _ _ x _ head _ ih =>
    obtain ⟨v, head', tail'⟩ := h'.head
    obtain rfl : _ = v := by
      cases x <;> exact congrArg Prod.snd (Eq.trans (Eq.symm head) head')
    exact ih tail'

theorem drop (h : b.Replays w xs w') (h' : b.Replays w (xs ++ ys) w'') : b.Replays w' ys w'' := by
  obtain ⟨v, hxs, hys⟩ := h'.split
  rwa [h.unique hxs]

end Replays

end Backend

/-! ## Sites that follow one another -/

/-- The site `s'` is `s` after the calls `xs` and the notices `ns`. -/
structure Site.Follows (b : Backend W) (s : Site W) (xs : List Exchange) (ns : List Notice)
    (s' : Site W) : Prop where
  world : b.Replays s.world xs s'.world
  calls : s'.calls = s.calls ++ xs
  notices : s'.notices = s.notices ++ ns

namespace Site.Follows

variable {b : Backend W} {s s' s'' : Site W} {xs ys : List Exchange} {ns ms : List Notice}

theorem refl (b : Backend W) (s : Site W) : s.Follows b [] [] s where
  world := .nil _
  calls := by simp
  notices := by simp

theorem trans (h : s.Follows b xs ns s') (h' : s'.Follows b ys ms s'') :
    s.Follows b (xs ++ ys) (ns ++ ms) s'' where
  world := h.world.append h'.world
  calls := by rw [h'.calls, h.calls, List.append_assoc]
  notices := by rw [h'.notices, h.notices, List.append_assoc]

/-- A site to which nothing was done is the same. -/
theorem eq_of_nil (h : s.Follows b [] [] s') : s' = s := by
  obtain ⟨world, calls, notices⟩ := s'
  have hworld : s.world = world := by
    generalize hxs : ([] : List Exchange) = xs at h
    cases h.world with
    | nil => rfl
    | cons => cases hxs
  have hcalls : calls = s.calls := by simpa using h.calls
  have hnotices : notices = s.notices := by simpa using h.notices
  rw [← hworld, hcalls, hnotices]

end Site.Follows

/-! ## Operations -/

namespace Act

variable {σ τ α β : Type}

/-- The result with an outcome and a state. -/
def result : Except Failure α → σ → EStateM.Result Failure σ α
  | .ok a, s => .ok a s
  | .error f, s => .error f s

theorem result_inj {o o' : Except Failure α} {s s' : σ} (h : result o s = result o' s') :
    o = o' ∧ s = s' := by
  cases o <;> cases o' <;> cases h <;> exact ⟨rfl, rfl⟩

/-- Run on `s`, an operation makes the calls `xs` and the notices `ns`, ends with `o` and leaves
`s'`. -/
structure Runs (b : Backend W) (site : σ → Site W) (act : Act σ α) (s : σ) (xs : List Exchange)
    (ns : List Notice) (o : Except Failure α) (s' : σ) : Prop where
  run : act.run s = result o s'
  follows : (site s).Follows b xs ns (site s')

theorem outcome_of_run {act : Act σ α} {s s' : σ} {o : Except Failure α}
    (h : act.run s = result o s') : outcome act s = o := by
  unfold outcome
  rw [h]
  cases o <;> rfl

theorem final_of_run {act : Act σ α} {s s' : σ} {o : Except Failure α}
    (h : act.run s = result o s') : final act s = s' := by
  unfold final
  rw [h]
  cases o <;> rfl

theorem run_attempt_of_run {act : Act σ α} {s s' : σ} {o : Except Failure α}
    (h : act.run s = result o s') : (attempt act).run s = .ok o s' := by
  rw [run_attempt, outcome_of_run h, final_of_run h]

namespace Runs

variable {b : Backend W} {site : σ → Site W} {act : Act σ α} {next : α → Act σ β}
  {k : Failure → Act σ α} {s s' s'' : σ} {xs ys : List Exchange} {ns ms : List Notice}
  {o : Except Failure α} {p : Except Failure β} {a : α} {f : Failure}

/-- An operation that leaves the site alone. -/
theorem silent (h : act.run s = result o s') (hs : site s' = site s) :
    Runs b site act s [] [] o s' where
  run := h
  follows := hs ▸ .refl b (site s)

theorem pure (a : α) (s : σ) : Runs b site (Pure.pure a) s [] [] (.ok a) s :=
  silent rfl rfl

theorem throw (f : Failure) (s : σ) :
    Runs b site (MonadExcept.throw f : Act σ α) s [] [] (.error f) s :=
  silent rfl rfl

theorem bind (h : Runs b site act s xs ns (.ok a) s') (h' : Runs b site (next a) s' ys ms p s'') :
    Runs b site (act >>= next) s (xs ++ ys) (ns ++ ms) p s'' where
  run := by
    rw [EStateM.run_bind, h.run]
    exact h'.run
  follows := h.follows.trans h'.follows

theorem bind_silent (h : Runs b site act s xs ns (.ok a) s')
    (h' : Runs b site (next a) s' [] [] p s'') : Runs b site (act >>= next) s xs ns p s'' := by
  simpa using h.bind h'

/-- A failure ends everything that was to come after it. -/
theorem bind_error (h : Runs b site act s xs ns (.error f) s') :
    Runs b site (act >>= next) s xs ns (.error f) s' where
  run := by
    rw [EStateM.run_bind, h.run]
    rfl
  follows := h.follows

theorem get_bind {next : σ → Act σ β} (h : Runs b site (next s) s xs ns p s') :
    Runs b site (get >>= next) s xs ns p s' :=
  ⟨h.run, h.follows⟩

theorem rescue_ok (h : Runs b site act s xs ns (.ok a) s') :
    Runs b site (rescue act k) s xs ns (.ok a) s' where
  run := by
    rw [run_rescue, h.run]
    rfl
  follows := h.follows

theorem rescue_ordinary (h : Runs b site act s xs ns (.error f) s') (hf : f.ordinary = true)
    (h' : Runs b site (k f) s' ys ms o s'') :
    Runs b site (rescue act k) s (xs ++ ys) (ns ++ ms) o s'' where
  run := by
    rw [run_rescue, h.run]
    exact (if_pos hf).trans h'.run
  follows := h.follows.trans h'.follows

theorem rescue_silent (h : Runs b site act s xs ns (.error f) s') (hf : f.ordinary = true)
    (h' : Runs b site (k f) s' [] [] o s'') :
    Runs b site (rescue act k) s xs ns o s'' := by
  simpa using h.rescue_ordinary hf h'

theorem rescue_interrupt (h : Runs b site act s xs ns (.error f) s') (hf : f.ordinary = false) :
    Runs b site (rescue act k) s xs ns (.error f) s' where
  run := by
    rw [run_rescue, h.run]
    simp [result, hf]
  follows := h.follows

theorem attempt (h : Runs b site act s xs ns o s') :
    Runs b site (Act.attempt act) s xs ns (.ok o) s' where
  run := run_attempt_of_run h.run
  follows := h.follows

/-- An operation on a part that holds the site. -/
theorem focus {get : τ → σ} {set : σ → τ → τ} {site' : τ → Site W} {t : τ}
    (h : Runs b site act (get t) xs ns o s') (hget : site' t = site (get t))
    (hset : site' (set s' t) = site s') :
    Runs b site' (Act.focus get set act) t xs ns o (set s' t) where
  run := by
    rw [run_focus, h.run]
    cases o <;> rfl
  follows := by
    rw [hget, hset]
    exact h.follows

end Runs

end Act

/-! ## Calls and notices -/

namespace Site

variable {α : Type} {b : Backend W}

/-- The failure that an error of a machine makes of a call. -/
def raised (reply : Except Error α) : Except Failure α :=
  reply.mapError fun e => { error := e }

theorem runs_call {op : W → Except Error α × W} {record : Except Error α → Exchange}
    (hop : ∀ w, b.Replies w (record (op w).1) (op w).2) (s : Site W) :
    ∃ reply s', (call op record).Runs b id s [record reply] [] (raised reply) s' := by
  refine ⟨(op s.world).1, s.after op record, ?_, .single (hop s.world), rfl, by simp [after]⟩
  rw [run_call]
  cases (op s.world).1 <;> rfl

theorem runs_note (b : Backend W) (n : Notice) (s : Site W) :
    (note n).Runs b id s [] [n] (.ok ()) { s with notices := s.notices ++ [n] } :=
  ⟨rfl, .nil _, by simp, rfl⟩

end Site

namespace Backend

variable (b : Backend W) (s : Site W) (m : Handle)

theorem runs_callFork :
    ∃ reply s', (b.callFork m).Runs b id s [.fork m reply] [] (Site.raised reply) s' :=
  Site.runs_call (by intro w; rfl) s

theorem runs_callSend (reason : RequestReason) (payload : Bytes) :
    ∃ reply s', (b.callSend m reason payload).Runs b id s [.send m reason payload reply] []
      (Site.raised reply) s' :=
  Site.runs_call (by intro w; rfl) s

theorem runs_callRun :
    ∃ reply s', (b.callRun m).Runs b id s [.run m reply] [] (Site.raised reply) s' :=
  Site.runs_call (by intro w; rfl) s

theorem runs_callReceive :
    ∃ reply s', (b.callReceive m).Runs b id s [.receive m reply] [] (Site.raised reply) s' :=
  Site.runs_call (by intro w; rfl) s

theorem runs_callShutdown :
    ∃ reply s', (b.callShutdown m).Runs b id s [.shutdown m reply] [] (Site.raised reply) s' :=
  Site.runs_call (by intro w; rfl) s

theorem runs_callStore (path : String) :
    ∃ reply s', (b.callStore m path).Runs b id s [.store m path reply] [] (Site.raised reply) s' :=
  Site.runs_call (by intro w; rfl) s

end Backend

end RollupEngine
