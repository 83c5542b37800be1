import GroundControl.Proofs.Station.Reception

/-!
# The measured number of agents online

The number of agents online is measured whenever a change of presence is told, and at no other time.
A removal tells of none, so the agents online that are removed are still counted in the last
measurement, until the next change is told.

* `Effect.read`, `Station.reading?`, what the measurements of a series have come to;
  `Station.gauge`, those of the number of agents online;
* `Step.announces`, `Step.lost`: a step tells of a change of presence, and the agents online that it
  removes; `gauge_of_step`, `online_of_step`;
* `unshown`, the removals since the last measurement; `OnlineGauge` and `online_gauge_reads`, for
  every run.
-/

namespace GroundControl

variable {τ : Type}

namespace Effect

/-- The reading of a series after an effect. -/
def read (series : Series) (r : Option Reading) : Effect → Option Reading
  | .measured s change => if s = series then some (Reading.update r change) else r
  | _ => r

/-- Whether an effect tells of a change of presence. -/
def announces : Effect → Bool
  | .published (.presence ..) => true
  | _ => false

theorem reading?_foldl_meter (series : Series) (l : List Effect) (m : Meter) :
    (l.foldl meter m).reading? series = l.foldl (read series) (m.reading? series) := by
  induction l generalizing m with
  | nil => rfl
  | cons e rest ih =>
    have he : (meter m e).reading? series = read series (m.reading? series) e := by
      cases e with
      | measured s change =>
        show (m.record s change).reading? series = _
        rw [Meter.reading?_record]
        unfold read
        dsimp only
        by_cases hs : s = series
        · rw [if_pos hs, if_pos hs.symm]
        · rw [if_neg hs, if_neg (Ne.symm hs)]
      | sent | delivered | published => rfl
    rw [List.foldl_cons, ih, he]
    rfl

/-- Only the measurements of a series make its reading. -/
theorem foldl_read_filter {series : Series} {p : Effect → Bool}
    (h : ∀ change, p (.measured series change) = true) (l : List Effect) (r : Option Reading) :
    (l.filter p).foldl (read series) r = l.foldl (read series) r := by
  induction l generalizing r with
  | nil => rfl
  | cons e rest ih =>
    rw [List.filter_cons]
    split
    · exact ih (read series r e)
    · rename_i he
      have hsame : read series r e = r := by
        cases e with
        | measured s change =>
          refine if_neg fun hs => he ?_
          rw [hs, h change]
        | sent | delivered | published => rfl
      rw [ih, List.foldl_cons, hsame]

end Effect

namespace Station

/-- What the measurements of a series have come to. -/
def reading? (s : Station τ) (series : Series) : Option Reading :=
  (s.log.foldl Effect.meter .empty).reading? series

theorem reading?_of_log {s s' : Station τ} {effects : List Effect}
    (h : s'.log = s.log ++ effects) (series : Series) :
    s'.reading? series = effects.foldl (Effect.read series) (s.reading? series) := by
  unfold reading?
  rw [h, List.foldl_append, Effect.reading?_foldl_meter]

/-- What was last measured of the number of agents online. -/
def gauge (s : Station τ) : Option Reading := s.reading? (.agentsOnline s.id)

/-- Announcements measure the number of agents online. -/
theorem foldl_read_tidings (network : NetworkId) (online : Nat) (l : List PresenceChange)
    (r : Option Reading) :
    (l.flatMap (tidings network online)).foldl (Effect.read (.agentsOnline network)) r =
      if l = [] then r else some (.level online) := by
  have hlevel : ∀ r, Reading.update r (.level online) = .level online := fun r => by
    cases r with
    | none => rfl
    | some r => cases r <;> rfl
  have hone : ∀ c r, (tidings network online c).foldl (Effect.read (.agentsOnline network)) r =
      some (.level online) := fun c r => (if_pos rfl).trans (congrArg some (hlevel r))
  induction l generalizing r with
  | nil => rfl
  | cons c rest ih =>
    rw [List.flatMap_cons, List.foldl_append, hone, ih, if_neg (List.cons_ne_nil c rest)]
    exact ite_self _

theorem any_announces (network : NetworkId) (online : Nat) (l : List PresenceChange) :
    (l.flatMap (tidings network online)).any Effect.announces = !l.isEmpty := by
  cases l <;> rfl

end Station

/-! ### One step -/

/-- Whether a change of presence is told in a step. -/
def Step.announces (step : Step τ) : Bool := step.effects.any Effect.announces

/-- The number of agents online that a step removes. -/
def Step.lost (step : Step τ) : Nat :=
  (step.before.partings step.operation).countP fun e => step.before.presenceOf e.1 == .online

namespace Watch

variable {w : Watch}

theorem onlineCount_eq (w : Watch) :
    w.onlineCount = (w.sightings.mapVal (·.presence)).values.countP (· == .online) := by
  unfold onlineCount Table.values Table.mapVal
  rw [List.map_map, List.countP_map, List.countP_map]
  rfl

/-- An agent that is seen as it was before counts as it did before. -/
theorem onlineCount_observe_of_none {agent : AgentId} {now : Instant} {signal : Signal}
    (h : (w.observe agent now signal).1 = none) :
    (w.observe agent now signal).2.onlineCount = w.onlineCount := by
  have hknown : (w.sightings.mapVal (·.presence)).get? agent = some signal.presence := by
    rw [Table.get?_mapVal]
    unfold observe at h
    cases hs : w.sightings.get? agent with
    | none =>
      rw [hs] at h
      have hne : Presence.unknown ≠ signal.presence :=
        (Station.Signal.presence_ne_unknown signal).symm
      dsimp only [Option.getD_none] at h
      rw [if_neg hne] at h
      cases h
    | some sighting =>
      rw [hs] at h
      dsimp only [Option.getD_some] at h
      split at h
      · rename_i he
        exact congrArg some he
      · cases h
  rw [onlineCount_eq, onlineCount_eq, Station.roll_observe, Station.insert_of_get? hknown]

/-- Forgetting an agent that is online leaves one less of them. -/
theorem onlineCount_forget (w : Watch) (agent : AgentId) :
    w.onlineCount =
      (w.forget agent).onlineCount + if w.presenceOf agent == .online then 1 else 0 := by
  unfold onlineCount forget presenceOf Table.values
  cases hs : w.sightings.get? agent with
  | none =>
    rw [Table.erase_of_get?_eq_none hs]
    rfl
  | some sighting =>
    rw [((Table.entries_perm_of_get? hs).map Prod.snd).countP_eq]
    exact List.countP_cons ..

theorem presenceOf_forget_of_ne {agent other : AgentId} (h : other ≠ agent) :
    (w.forget agent).presenceOf other = w.presenceOf other := by
  unfold presenceOf
  rw [get?_forget, if_neg h]

theorem onlineCount_foldl_forget {l : List AgentId} (hd : l.Nodup) (w : Watch) :
    w.onlineCount = (l.foldl forget w).onlineCount +
      l.countP fun agent => w.presenceOf agent == .online := by
  induction l generalizing w with
  | nil => rfl
  | cons agent rest ih =>
    obtain ⟨ha, hd⟩ := List.nodup_cons.1 hd
    have hrest : rest.countP (fun other => (w.forget agent).presenceOf other == .online) =
        rest.countP fun other => w.presenceOf other == .online :=
      List.countP_congr fun other ho => by
        rw [presenceOf_forget_of_ne (ne_of_mem_of_not_mem ho ha)]
    rw [onlineCount_forget w agent, ih hd, hrest, List.foldl_cons, List.countP_cons]
    omega

end Watch

namespace Station

variable [Carrier τ] {step : Step τ}

/-- A step announces the changes it finds. -/
theorem announces_of_step (hs : step.before.Sound)
    (hp : perform step.operation step.before = .ok step.response step.after) :
    step.announces = !(step.before.changes step.operation).isEmpty := by
  have hreceives : Effect.announces = fun e => e.receives && e.announces := by
    funext e
    cases e with
    | published event => cases event <;> rfl
    | sent | delivered | measured => exact (Bool.and_false _).symm
  have hfilter : step.announces = (step.effects.filter Effect.receives).any Effect.announces := by
    rw [List.any_filter, ← hreceives]
    rfl
  have hentries : (step.operation.message?.toList.map fun x => step.before.entry x.1).any
      Effect.announces = false := by
    rw [List.any_map]
    exact List.any_eq_false.2 fun x _ => Bool.false_ne_true
  rw [hfilter, effects_of_step hs hp, List.any_append, hentries, any_announces, Bool.false_or]

/-- The number of agents online is measured when a change of presence is told. -/
theorem gauge_of_step (hs : step.before.Sound)
    (hp : perform step.operation step.before = .ok step.response step.after) :
    step.after.gauge =
      if step.announces then some (.level step.after.watch.onlineCount) else step.before.gauge := by
  obtain ⟨-, ended, ht⟩ := perform_transfer hs hp
  have hid : step.after.id = step.before.id := congrArg NetworkSettings.id ht.settings
  have hread : step.after.gauge = (step.effects.filter Effect.receives).foldl
      (Effect.read (.agentsOnline step.before.id)) step.before.gauge := by
    unfold gauge
    rw [hid, reading?_of_log (log_of_perform hs hp)]
    exact (Effect.foldl_read_filter (fun _ => rfl) _ _).symm
  have hentries : ∀ r, (step.operation.message?.toList.map fun x => step.before.entry x.1).foldl
      (Effect.read (.agentsOnline step.before.id)) r = r := by
    intro r
    cases step.operation.message? with
    | none => rfl
    | some x =>
      refine if_neg ?_
      split
      · exact Series.noConfusion
      · split <;> exact Series.noConfusion
  rw [hread, effects_of_step hs hp, List.foldl_append, hentries, foldl_read_tidings,
    announces_of_step hs hp]
  cases step.before.changes step.operation <;> rfl

omit [Carrier τ] in
theorem onlineCount_received {s : Station τ} {m : Message} {now : Instant}
    (h : (if s.heeds m then (s.watch.observe m.agent now m.kind.signal).1.toList else []) = []) :
    (s.received m now).watch.onlineCount = s.watch.onlineCount := by
  by_cases hn : m.network = s.id
  · cases ha : s.admits m.agent with
    | false => rw [received_of_capped hn ha, dropCapped, count, emit]
    | true =>
      have hheeds : s.heeds m = true := by
        unfold heeds
        rw [hn, beq_self_eq_true, ha]
        rfl
      rw [if_pos hheeds] at h
      have hheard : (s.heard m now).watch.onlineCount = s.watch.onlineCount := by
        rw [watch_heard]
        exact Watch.onlineCount_observe_of_none (Option.toList_eq_nil_iff.1 h)
      rw [received_of_admits hn ha]
      split <;> exact hheard
  · rw [received_of_foreign hn, count, emit]

omit [Carrier τ] in
theorem onlineCount_swept [Walk] {s : Station τ} {now : Instant}
    (h : (s.watch.sweep now).1 = []) : (s.swept now).watch.onlineCount = s.watch.onlineCount := by
  have hroll := roll_swept s now
  rw [h] at hroll
  rw [Watch.onlineCount_eq, Watch.onlineCount_eq]
  exact congrArg (fun t : Table AgentId Presence => t.values.countP (· == .online)) hroll

/-- If no change is told, just the agents that are removed are online no more. -/
theorem online_of_step (hp : perform step.operation step.before = .ok step.response step.after)
    (hc : step.before.changes step.operation = []) :
    step.before.watch.onlineCount = step.after.watch.onlineCount + step.lost := by
  have hw : step.after.watch = (step.before.attended step.operation).watch :=
    congrArg Reception.watch (perform_reception hp)
  have hparted : ∀ l : List (AgentId × Agent), (l.map Prod.fst).Nodup →
      step.before.watch.onlineCount = (step.before.parted (l.map Prod.fst)).watch.onlineCount +
        l.countP fun e => step.before.presenceOf e.1 == .online := by
    intro l hd
    rw [Watch.onlineCount_foldl_forget hd step.before.watch, List.countP_map]
    rfl
  obtain ⟨-, hd⟩ := step.before.partings_registered step.operation
  unfold Step.lost
  rw [hw]
  cases ho : step.operation with
  | deliver m now | route m now =>
    rw [ho] at hc
    exact (onlineCount_received hc).symm
  | sweep walk now | tick walk now =>
    rw [ho] at hc
    exact (onlineCount_swept hc).symm
  | deregister agent now | shutdown walk now =>
    rw [ho] at hd
    exact hparted _ hd
  | _ => rfl

/-! ### A run -/

/-- The agents online that were removed since the number of agents online was last measured. -/
def unshown (steps : List (Step τ)) : Nat :=
  steps.foldl (fun n step => if step.announces then 0 else n + step.lost) 0

omit [Carrier τ] in
theorem unshown_concat (steps : List (Step τ)) (step : Step τ) :
    unshown (steps ++ [step]) = if step.announces then 0 else unshown steps + step.lost :=
  List.foldl_append ..

section Run

variable {settings : NetworkSettings} {carrier : τ} {start : Instant}
  {operations : List Operation} {steps : List (Step τ)} {s : Station τ}

/-- The last measurement counts the agents online, and those that were removed since. -/
theorem gauge_of_run (h : run operations (new settings carrier start) = .ok (steps, s)) :
    s.gauge = (if steps.any Step.announces then
        some (.level (s.watch.onlineCount + unshown steps)) else none) ∧
      (steps.any Step.announces = false → s.watch.onlineCount = 0) := by
  suffices s.Sound ∧ s.gauge = (if steps.any Step.announces then
        some (.level (s.watch.onlineCount + unshown steps)) else none) ∧
      (steps.any Step.announces = false → s.watch.onlineCount = 0) from this.2
  refine run_induction h (P := fun past s => s.Sound ∧ s.gauge = (if past.any Step.announces then
        some (.level (s.watch.onlineCount + unshown past)) else none) ∧
      (past.any Step.announces = false → s.watch.onlineCount = 0))
    ⟨sound_new settings carrier start, rfl, fun _ => rfl⟩ ?_
  rintro past step - ⟨hs, hgauge, hnobody⟩ hp
  have hchanges := announces_of_step hs hp
  refine ⟨(perform_transfer hs hp).1, ?_⟩
  rw [gauge_of_step hs hp, unshown_concat, List.any_append, List.any_cons, List.any_nil,
    Bool.or_false]
  cases ha : step.announces with
  | true =>
    rw [Bool.or_true]
    exact ⟨rfl, fun h => Bool.noConfusion h⟩
  | false =>
    have honline := online_of_step hp (by rw [ha] at hchanges; simpa using hchanges)
    rw [Bool.or_false, if_neg Bool.false_ne_true, if_neg Bool.false_ne_true, hgauge]
    refine ⟨?_, fun hnone => ?_⟩
    · rw [honline, Nat.add_right_comm, Nat.add_assoc]
    · have := hnobody hnone
      omega

/-- What the measured number of agents online tells. -/
structure OnlineGauge (steps : List (Step τ)) (s : Station τ) : Prop where
  /-- it is not there as long as no change of presence was told, and then nobody is online -/
  unset : s.gauge = none ↔ ∀ step ∈ steps, step.announces = false
  nobody : s.gauge = none → s.report.agentsOnline = 0
  /-- it counts the agents online, and those that were removed since it was measured -/
  level : ∀ reading, s.gauge = some reading →
    reading = .level (s.report.agentsOnline + unshown steps)
  truthful : s.gauge ≠ none →
    (s.gauge = some (.level s.report.agentsOnline) ↔ unshown steps = 0)

/-- Whatever is asked of a station from its beginning on: the measured number of agents online is
that of the agents online and of those removed since a change of presence was last told. -/
theorem online_gauge_reads (h : run operations (new settings carrier start) = .ok (steps, s)) :
    OnlineGauge steps s := by
  obtain ⟨hgauge, hnobody⟩ := gauge_of_run h
  cases hany : steps.any Step.announces with
  | false =>
    have hnone : s.gauge = none := by rw [hgauge, hany, if_neg Bool.false_ne_true]
    refine ⟨iff_of_true hnone fun step hstep => ?_, fun _ => hnobody hany, fun reading hr => ?_,
      fun hsome => absurd hnone hsome⟩
    · exact Bool.eq_false_iff.2 (List.any_eq_false.1 hany step hstep)
    · rw [hnone] at hr
      cases hr
  | true =>
    have hlevel : s.gauge = some (.level (s.report.agentsOnline + unshown steps)) := by
      rw [hgauge, hany, if_pos rfl]
      rfl
    refine ⟨iff_of_false (fun hnone => ?_) fun hall => ?_, fun hnone => ?_, fun reading hr => ?_,
      fun _ => ?_⟩
    · rw [hlevel] at hnone
      cases hnone
    · obtain ⟨step, hstep, ha⟩ := List.any_eq_true.1 hany
      rw [hall step hstep] at ha
      cases ha
    · rw [hlevel] at hnone
      cases hnone
    · exact Option.some.inj (hr.symm.trans hlevel)
    · rw [hlevel, Option.some.injEq, Reading.level.injEq]
      exact Nat.add_eq_left

end Run

/-- The only agent is heard and then removed: it is still measured as online. -/
theorem online_gauge_reads_removed :
    ∃ steps s, run [.route (.heartbeat "alpha" 1) 0, .deregister 1 10]
        (new { id := "alpha" } (Pipe.new "up" 4) 0) = .ok (steps, s) ∧
      s.gauge = some (.level 1) ∧ s.report.agentsOnline = 0 ∧ unshown steps = 1 ∧
        OnlineGauge steps s := by
  have hrun : (run [.route (.heartbeat "alpha" 1) 0, .deregister 1 10]
      (new { id := "alpha" } (Pipe.new "up" 4) 0)).toOption.map
        (fun r => (r.2.gauge, r.2.watch.onlineCount, unshown r.1)) =
      some (some (.level 1), 0, 1) := by decide +kernel
  obtain ⟨steps, s, h, hread⟩ := exists_run_of_map hrun
  obtain ⟨hgauge, hrest⟩ := Prod.mk.inj hread
  obtain ⟨honline, hunshown⟩ := Prod.mk.inj hrest
  exact ⟨steps, s, h, hgauge, honline, hunshown, online_gauge_reads h⟩

end Station

end GroundControl
