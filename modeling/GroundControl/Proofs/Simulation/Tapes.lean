import GroundControl.Proofs.Service.Tapes
import GroundControl.Proofs.Simulation.Deeds

/-!
# The simulated world on tape

What becomes of a service in the simulated world, whose frames are read and whose link is given up
at times and whose answers are taken over, becomes of it on tape in its own turns alone.

* `Service.deeds`, `Service.givens`: a service and its answers after deeds; `exists_tape_deeds`;
* `deedsOf`, the deeds that happen to one service, and `turnsIn`, the turns in deeds;
* `Control.found`, the answer to a call; `lookup_given`;
* `Control.onTape`, a control centre with tapes in place of all links; `exists_tapes`,
  `Control.Retold.lookup`.
-/

namespace GroundControl

/-! ### The deeds of a service -/

namespace Service

/-- What becomes of a service in deeds, one after the other. -/
def deeds (s : Service Pipe) (l : List Deed) : Service Pipe := l.foldl deed s

/-- The answers that are taken over meanwhile. -/
def givens (s : Service Pipe) : List Deed → List (CallId × Answer)
  | [] => []
  | d :: rest => s.given d ++ (s.deed d).givens rest

/-- Every answer is taken over. -/
theorem answers_deeds {s : Service Pipe} (h : s.answers = []) (l : List Deed) :
    (s.deeds l).answers = [] := by
  induction l generalizing s with
  | nil => exact h
  | cons d rest ih => exact ih (answers_deed h d)

/-- To those who know what it has done before, a service has done what it has done since. -/
theorem onTape_heard {τ : Type} (s : Service τ) (log : List Effect)
    (given : List (CallId × Answer)) (answers : List (Except LinkError Unit)) :
    s.heard.onTape (log ++ s.station.log) (given ++ s.answers) answers =
      s.onTape log given answers := by
  unfold onTape heard Station.onTape Station.takeLog
  dsimp only
  rw [List.append_nil, List.append_nil]

/-- What becomes of the service in a deed, becomes of it on tape in the turns of the deed. -/
theorem exists_tape_deed (s : Service Pipe) (d : Deed) :
    ∃ script, ∀ log given rest, ∃ log', (s.onTape log given (script ++ rest)).turns d.turns =
      (s.deed d).onTape log' (given ++ s.given d) rest := by
  have hquiet : s.given d = [] → ∀ log given rest,
      (s.deed d).onTape log (given ++ s.given d) rest = (s.deed d).onTape log given rest := by
    intro h log given rest
    rw [h, List.append_nil]
  cases d with
  | order c =>
    refine ⟨[], fun log given rest => ⟨log, ?_⟩⟩
    rw [hquiet rfl]
    exact onTape_order s log given rest c
  | receive m =>
    refine ⟨[], fun log given rest => ⟨log, ?_⟩⟩
    rw [hquiet rfl]
    exact onTape_receive s log given rest m
  | work n now rung =>
    obtain ⟨script, h⟩ := mirrors_turns s (Deed.work n now rung).turns
    let t := s.turns (Deed.work n now rung).turns
    refine ⟨script, fun log given rest => ⟨log ++ t.station.log, ?_⟩⟩
    exact (h log given rest _ rfl).trans (onTape_heard t log given rest).symm
  | read n =>
    refine ⟨[], fun log given rest => ⟨log, ?_⟩⟩
    rw [hquiet rfl]
    rfl
  | close =>
    refine ⟨[], fun log given rest => ⟨log, ?_⟩⟩
    rw [hquiet rfl]
    rfl

/-- There is a tape on which the same becomes of the service as in deeds, at any time. -/
theorem exists_tape_deeds (s : Service Pipe) (l : List Deed) :
    ∃ script, ∀ log given before, before <+: l → ∃ log' rest,
      (s.onTape log given script).turns (before.flatMap Deed.turns) =
        (s.deeds before).onTape log' (given ++ s.givens before) rest := by
  induction l generalizing s with
  | nil =>
    refine ⟨[], fun log given before h => ⟨log, [], ?_⟩⟩
    rw [List.prefix_nil.1 h]
    show _ = s.onTape log (given ++ []) []
    rw [List.append_nil]
    rfl
  | cons d rest ih =>
    obtain ⟨script, hd⟩ := exists_tape_deed s d
    obtain ⟨script', hrest⟩ := ih (s.deed d)
    refine ⟨script ++ script', fun log given before h => ?_⟩
    cases before with
    | nil =>
      refine ⟨log, script ++ script', ?_⟩
      show _ = s.onTape log (given ++ []) (script ++ script')
      rw [List.append_nil]
      rfl
    | cons d' before =>
      obtain ⟨rfl, hprefix⟩ := List.cons_prefix_cons.1 h
      obtain ⟨log₁, hd⟩ := hd log given script'
      obtain ⟨log₂, remaining, hrest⟩ := hrest log₁ (given ++ s.given d') before hprefix
      refine ⟨log₂, remaining, ?_⟩
      rw [List.flatMap_cons, turns_append, hd, hrest, List.append_assoc]
      rfl

end Service

/-! ### The deeds of all services -/

/-- The deeds that happen to the service with a number. -/
def deedsOf (k : Nat) (l : List (Nat × Deed)) : List Deed :=
  l.filterMap fun e => if e.1 = k then some e.2 else none

theorem deedsOf_cons_self (k : Nat) (d : Deed) (rest : List (Nat × Deed)) :
    deedsOf k ((k, d) :: rest) = d :: deedsOf k rest := by
  unfold deedsOf
  rw [List.filterMap_cons, if_pos rfl]

theorem deedsOf_cons_of_ne {j k : Nat} (h : j ≠ k) (d : Deed) (rest : List (Nat × Deed)) :
    deedsOf k ((j, d) :: rest) = deedsOf k rest := by
  unfold deedsOf
  rw [List.filterMap_cons, if_neg h]

/-- The turns in deeds, each with the number of the service. -/
def turnsIn (l : List (Nat × Deed)) : List (Nat × Turn) :=
  l.flatMap fun e => e.2.turns.map (e.1, ·)

theorem turnsOf_turnsIn (k : Nat) (l : List (Nat × Deed)) :
    turnsOf k (turnsIn l) = (deedsOf k l).flatMap Deed.turns := by
  induction l with
  | nil => rfl
  | cons e rest ih =>
    unfold turnsOf turnsIn deedsOf at ih ⊢
    rw [List.flatMap_cons, List.filterMap_append, ih, List.filterMap_map, List.filterMap_cons]
    by_cases hk : e.1 = k
    · simp [hk]
    · simp [hk]

namespace Control

variable (c : Control Pipe)

/-- Each service becomes what its own deeds make of it. -/
theorem service?_deeds (l : List (Nat × Deed)) (k : Nat) :
    (c.deeds l).service? k = (c.service? k).map (·.deeds (deedsOf k l)) :=
  service?_foldl Service.deed c l k

/-- The answer that a service gives to a call in a deed. -/
def givenTo (k : Nat) (d : Deed) (call : CallId) : Option Answer :=
  (c.service? k).bind fun s => (s.given d).lookup call

/-- The answer that a service gives to a call in deeds. -/
def found (l : List (Nat × Deed)) (k : Nat) (call : CallId) : Option Answer :=
  (c.service? k).bind fun s => (s.givens (deedsOf k l)).lookup call

theorem found_nil (k : Nat) (call : CallId) : c.found [] k call = none :=
  Option.bind_eq_none_iff.2 fun _ _ => rfl

theorem found_cons (j : Nat) (d : Deed) (rest : List (Nat × Deed)) (k : Nat) (call : CallId) :
    c.found ((j, d) :: rest) k call =
      (if j = k then c.givenTo k d call else none).or
        ((c.modifyService j (·.deed d)).found rest k call) := by
  unfold found givenTo
  rw [service?_modifyService]
  cases c.service? k with
  | none => split <;> rfl
  | some s =>
    by_cases hj : j = k
    · rw [if_pos hj, hj, deedsOf_cons_self]
      show (s.given d ++ _).lookup call = _
      rw [List.lookup_append, Option.map_some, if_pos rfl]
      rfl
    · rw [if_neg hj, deedsOf_cons_of_ne hj, Option.map_some, if_neg hj, Option.none_or]

theorem lookup_given_cons (j : Nat) (d : Deed) (rest : List (Nat × Deed)) (call : CallId) :
    ((c.given ((j, d) :: rest)).map Prod.snd).lookup call = (c.givenTo j d call).or
      (((c.modifyService j (·.deed d)).given rest).map Prod.snd |>.lookup call) := by
  unfold givenTo
  rw [given, List.map_append, List.lookup_append, List.map_map]
  congr 1
  cases c.service? j with
  | none => rfl
  | some s => exact congrArg _ (List.map_id (s.given d))

/-- The answer to a call that only one service answers. -/
theorem lookup_given {l : List (Nat × Deed)} {k : Nat} {call : CallId}
    (h : ∀ j ≠ k, c.found l j call = none) :
    ((c.given l).map Prod.snd).lookup call = c.found l k call := by
  induction l generalizing c with
  | nil => exact (c.found_nil k call).symm
  | cons e rest ih =>
    obtain ⟨j, d⟩ := e
    have hrest : ∀ i ≠ k, (c.modifyService j (·.deed d)).found rest i call = none := by
      intro i hi
      have hi := h i hi
      rw [found_cons] at hi
      exact (Option.or_eq_none_iff.1 hi).2
    rw [lookup_given_cons, found_cons, ih _ hrest]
    congr 1
    by_cases hj : j = k
    · rw [if_pos hj, hj]
    · have hnone := h j hj
      rw [found_cons, if_pos rfl] at hnone
      rw [if_neg hj]
      exact (Option.or_eq_none_iff.1 hnone).1

/-! ### Control centres on tape -/

/-- The control centre with tapes in place of the links of all services. -/
def onTape (c : Control Pipe) (scripts : Nat → List (Except LinkError Unit)) : Control Tape :=
  { c with services := c.services.mapIdx fun k s => s.onTape [] [] (scripts k) }

theorem service?_onTape (scripts : Nat → List (Except LinkError Unit)) (k : Nat) :
    (c.onTape scripts).service? k = (c.service? k).map (·.onTape [] [] (scripts k)) :=
  List.getElem?_mapIdx

/-- The tapes tell of deeds: at any time each service is on tape what it has become in its deeds,
and has given the same answers. -/
def Retold (scripts : Nat → List (Except LinkError Unit)) (l : List (Nat × Deed)) : Prop :=
  ∀ before, before <+: l → ∀ k s, c.service? k = some s → ∃ log rest,
    ((c.onTape scripts).during (turnsIn before)).service? k =
      some ((s.deeds (deedsOf k before)).onTape log (s.givens (deedsOf k before)) rest)

/-- There are tapes that tell of any deeds. -/
theorem exists_tapes (l : List (Nat × Deed)) : ∃ scripts, c.Retold scripts l := by
  have hscript : ∀ k, ∃ script, ∀ s, c.service? k = some s → ∀ before, before <+: deedsOf k l →
      ∃ log rest, (s.onTape [] [] script).turns (before.flatMap Deed.turns) =
        (s.deeds before).onTape log (s.givens before) rest := by
    intro k
    cases h : c.service? k with
    | none => exact ⟨[], fun s hs => nomatch hs⟩
    | some s =>
      obtain ⟨script, hs⟩ := s.exists_tape_deeds (deedsOf k l)
      refine ⟨script, ?_⟩
      rintro _ ⟨⟩ before hbefore
      obtain ⟨log, rest, h⟩ := hs [] [] before hbefore
      exact ⟨log, rest, by rw [h, List.nil_append]⟩
  choose scripts hscripts using hscript
  refine ⟨scripts, fun before hbefore k s hs => ?_⟩
  obtain ⟨log, rest, h⟩ := hscripts k s hs (deedsOf k before) (hbefore.filterMap _)
  refine ⟨log, rest, ?_⟩
  rw [service?_during, service?_onTape, hs, turnsOf_turnsIn]
  exact congrArg some h

variable {c}

/-- What a service has become in deeds is there on tape. -/
theorem Retold.service? {scripts : Nat → List (Except LinkError Unit)}
    {l before : List (Nat × Deed)} (h : c.Retold scripts l) (hb : before <+: l) {k : Nat}
    {s : Service Pipe} (hs : (c.deeds before).service? k = some s) : ∃ log given rest,
      ((c.onTape scripts).during (turnsIn before)).service? k = some (s.onTape log given rest) := by
  rw [service?_deeds] at hs
  obtain ⟨t, ht, rfl⟩ := Option.map_eq_some_iff.1 hs
  obtain ⟨log, rest, htape⟩ := h before hb k t ht
  exact ⟨log, _, rest, htape⟩

/-- An answer that is there on tape was taken over in the deeds, and the other way round. -/
theorem Retold.lookup {scripts : Nat → List (Except LinkError Unit)} {l before : List (Nat × Deed)}
    (h : c.Retold scripts l) (hc : ∀ service ∈ c.services, service.answers = [])
    (hb : before <+: l) (k : Nat) (call : CallId) :
    (((c.onTape scripts).during (turnsIn before)).service? k).bind (·.answers.lookup call) =
      c.found before k call := by
  unfold found
  cases hs : c.service? k with
  | none =>
    rw [service?_during, service?_onTape, hs]
    rfl
  | some s =>
    obtain ⟨log, rest, h⟩ := h before hb k s hs
    rw [h]
    show (s.givens (deedsOf k before) ++ (s.deeds (deedsOf k before)).answers).lookup call = _
    rw [Service.answers_deeds (hc s (List.mem_of_getElem? hs)), List.append_nil]
    rfl

end Control

end GroundControl
