import GroundControl.Control
import GroundControl.Proofs.Service.Numbers
import GroundControl.Proofs.Station.Faultless

/-!
# Services that do not crash

Settings that are accepted may still ask for times that no clock can tell.  Where the clock stays
below `2 ^ 40` seconds and nothing is throttled, a service never crashes if the longest time to wait
for a reply, the time for which results are kept and the periods of regular work can be told; if
they cannot, it may crash.  The deadlines of a broadcast can be told exactly if the grace of
broadcasts lets them.

* `NetworkSettings.Regular`: periods can be told; `Order.Until`, `Turn.Until`: everything that is
  asked for is asked for in time;
* `Service.Timely`, the invariant; `Timely.turn`, `timely_of_turns`;
* `Service.NeverCrashes`; `briefStay`, a history in which a result has to be kept, and
  `NeverCrashes.hosts`, what a service that survives it can do; `NeverCrashes.regular`;
* `Control.exists_broadcastOrder_iff`, `Control.exists_correctionDeadlines_iff`;
* `faultless_in_range`.
-/

namespace GroundControl

/-- A period of regular work that begins at `last` at the latest ends before the horizon. -/
structure NetworkSettings.Regular (settings : NetworkSettings) (last : Instant) : Prop where
  tick : last + settings.tickInterval < Instant.horizon
  sweep : last + settings.sweepInterval < Instant.horizon

/-- An order that names a time names none after `last`. -/
def Order.Until (last : Instant) : Order → Prop
  | .tick now => now ≤ last
  | _ => True

/-- What happens happens at `last` at the latest. -/
def Turn.Until (last : Instant) : Turn → Prop
  | .order c => c.order.Until last
  | .poll _ now _ => now ≤ last
  | _ => True

/-- `2 ^ 40` seconds, or more than thirty thousand years. -/
def longRun : Instant := 1099511627776 * Span.second

theorem mul_le_of_le_longRun {last : Instant} (h : last ≤ longRun) : last * 7 ≤ Span.longest :=
  Nat.le_trans (Nat.mul_le_mul_right 7 h) (by decide)

theorem Order.until_of_operation? [Walk] {order : Order} {now last : Instant}
    {operation : Operation} (h : order.operation? now = some operation) (ho : order.Until last)
    (hl : now ≤ last) :
    operation.Until last := by
  intro time ht
  cases order <;> cases h <;> cases ht <;> first | exact hl | exact ho

namespace Service

variable {τ : Type}

/-- The service has not crashed, and as long as it goes on it and its station can tell all times
they need up to `last`. -/
structure Timely (last : Instant) (s : Service τ) : Prop where
  intact : ¬ s.Crashed
  station : s.Running → s.station.Timely last
  regular : s.station.settings.Regular last
  commands : ∀ c ∈ s.commands, c.order.Until last

theorem not_crashed_of_running {s : Service τ} (h : s.Running) : ¬ s.Crashed := by
  intro hc
  have ho := isOver_of_crashed hc
  rw [h] at ho
  cases ho

/-- What the task asks of the station is asked for in time. -/
theorem until_of_work? [Walk] {s : Service τ} {now rung last : Instant} {operation : Operation}
    (h : s.work? now rung = some operation) (hc : ∀ c ∈ s.commands, c.order.Until last)
    (hl : now ≤ last) : operation.Until last := by
  have hnow : ∀ {operation' : Operation}, operation'.time? = some now →
      some operation' = some operation → operation.Until last := by
    intro operation' ht he time ht'
    cases he
    obtain rfl := Option.some.inj (ht.symm.trans ht')
    exact hl
  unfold work? at h
  cases ha : s.activity with
  | stopped | crashed fault | holding hold =>
    rw [ha] at h
    cases h
  | serving =>
    rw [ha] at h
    dsimp only at h
    cases hcommands : s.commands with
    | cons c rest =>
      rw [hcommands] at h hc
      exact Order.until_of_operation? h (hc c List.mem_cons_self) hl
    | nil =>
      rw [hcommands] at h
      dsimp only at h
      -- all else is asked for at the time of the poll
      split at h
      · exact hnow rfl h
      · split at h
        · exact hnow rfl h
        · split at h
          · exact hnow rfl h
          · split at h
            · exact hnow rfl h
            · cases h

theorem Timely.of_activity {s s' : Service τ} {last : Instant} (h : s.Timely last)
    (ha : s'.activity = s.activity) (hs : s'.station = s.station)
    (hc : ∀ c ∈ s'.commands, c.order.Until last) : s'.Timely last where
  intact := fun ⟨fault, hf⟩ => h.intact ⟨fault, ha ▸ hf⟩
  station hr := by
    rw [hs]
    refine h.station ?_
    unfold Running isOver at hr ⊢
    rwa [ha] at hr
  regular := hs ▸ h.regular
  commands := hc

section Turns

variable [Carrier τ] {host : Host} {s s' : Service τ} {last now rung : Instant}

theorem Timely.poll (h : s.Timely last) (hb : last * 7 ≤ Span.longest) (hl : now ≤ last)
    (hp : s.poll now rung = some s') : s'.Timely last := by
  have hrunning : s.Running := by
    refine Bool.eq_false_iff.2 fun ho => ?_
    rw [poll_of_over ho] at hp
    cases hp
  have hstation := h.station hrunning
  have hcommands : ∀ c ∈ s'.commands, c.order.Until last := fun c hc =>
    h.commands c ((commands_of_poll hp).subset hc)
  have hregular : s'.station.settings.Regular last := by
    have hs := settings_turn s (.poll host now rung)
    rw [turn_poll_of_eq_some hp] at hs
    exact hs ▸ h.regular
  cases polled_of_poll hp with
  | worked operation response hw hperform hr hg =>
    exact ⟨not_crashed_of_running hr,
      fun _ => hstation.perform (until_of_work? hw h.commands hl) hb hperform, hregular,
      hcommands⟩
  | aired bulletin deadline result hair hr hg =>
    exact ⟨not_crashed_of_running hr, fun _ => hstation.of_quiet (Station.quiet_tryBroadcast hair),
      hregular, hcommands⟩
  | asked hs hr hg =>
    exact ⟨not_crashed_of_running hr, fun _ => hs ▸ hstation, hregular, hcommands⟩
  | stopped station hstops hshutdown hs =>
    subst hs
    exact ⟨nofun, nofun, hregular, hcommands⟩
  | crashed operation fault hw hperform hs =>
    obtain ⟨response, station, hok⟩ := hstation.exists_perform hb (until_of_work? hw h.commands hl)
    cases hperform.symm.trans hok
  | lapsed due period fault hw hn hs hf =>
    -- a period that begins now ends in time
    have hperiod : now + period < Instant.horizon := by
      rcases hw with ⟨-, rfl⟩ | ⟨-, rfl⟩
      · exact Nat.lt_of_le_of_lt (Nat.add_le_add_right hl _) h.regular.tick
      · exact Nat.lt_of_le_of_lt (Nat.add_le_add_right hl _) h.regular.sweep
    obtain ⟨next, hok⟩ := Host.exists_nextDue due hperiod
    cases hn.symm.trans hok
  | muted bulletin deadline fault hair hs =>
    exact absurd hair (hstation.tryBroadcast_ne_error bulletin deadline fault)

theorem Timely.turn (h : s.Timely last) (hb : last * 7 ≤ Span.longest) {t : Turn}
    (ht : t.Until last) : (s.turn t).Timely last := by
  have hcommands : ∀ c ∈ (s.turn t).commands, c.order.Until last := by
    intro c hc
    rcases mem_commands_turn hc with hc | rfl
    · exact h.commands c hc
    · exact ht
  cases t with
  | order c =>
    have ha : (s.order c).activity = s.activity := by
      unfold order
      split <;> rfl
    exact h.of_activity ha (station_order s c) hcommands
  | receive m =>
    have ha : (s.receive m).activity = s.activity := by
      unfold receive
      split <;> rfl
    exact h.of_activity ha (station_receive s m) hcommands
  | close => exact h.of_activity rfl rfl hcommands
  | poll host now rung =>
    cases hp : s.poll now rung with
    | none => rwa [turn_poll_of_eq_none hp]
    | some s' =>
      rw [turn_poll_of_eq_some hp]
      exact h.poll hb ht hp

/-- No fault ends the service, whatever happens to it up to `last`. -/
def NeverCrashes (last : Instant) (s : Service τ) : Prop :=
  ∀ history : List Turn, (∀ t ∈ history, t.Until last) → ¬ (s.turns history).Crashed

/-- A service that can tell all times it needs does not crash. -/
theorem timely_of_turns (h : s.Timely last) (hb : last * 7 ≤ Span.longest) {l : List Turn}
    (hl : ∀ t ∈ l, t.Until last) : (s.turns l).Timely last := by
  induction l generalizing s with
  | nil => exact h
  | cons t rest ih =>
    obtain ⟨ht, hrest⟩ := List.forall_mem_cons.1 hl
    exact ih (h.turn hb ht) hrest

omit [Carrier τ] in
theorem timely_new {station : Station τ} (h : station.Timely last)
    (hr : station.settings.Regular last) (start : Instant) : (new station start).Timely last :=
  ⟨nofun, fun _ => h, hr, nofun⟩

theorem Timely.neverCrashes (h : s.Timely last) (hb : last * 7 ≤ Span.longest) :
    s.NeverCrashes last := fun _ hl => (timely_of_turns h hb hl).intact

end Turns

/-! ### A brief stay -/

section BriefStay

variable [Carrier τ] {host : Host} {settings : NetworkSettings} {carrier : τ}
  {start now last : Instant}

/-- An agent is heard, gets a request, and is removed. -/
def briefStay (network : NetworkId) (agent : AgentId) (payload : Payload) (now : Instant) :
    List Turn :=
  [.receive (.heartbeat network agent), .poll .plain now 0] ++
    ([.order ⟨.submit 1 agent payload .normal 1, none⟩, .poll .plain now 0] ++
      [.order ⟨.deregister agent, none⟩, .poll .plain now 0])

theorem until_briefStay (network : NetworkId) (agent : AgentId) (payload : Payload)
    (now : Instant) : ∀ t ∈ briefStay network agent payload now, t.Until now := by
  simp [briefStay, Turn.Until, Order.Until]

theorem turns_receive_poll {station station' : Station τ} {m : Message}
    (h : Station.deliverInbound m now station = .ok () station') :
    (new station start).turns [.receive m, .poll host now 0] = new station' start := by
  have hact : (new station start).turns [.receive m, .poll host now 0] =
      (new station start).act (Station.deliverInbound m now) fun () s => s := rfl
  rw [hact]
  unfold act
  have hstation : (new station start).station = station := rfl
  rw [hstation, h]
  rfl

theorem turns_order_poll (station : Station τ) (order : Order) :
    (new station start).turns [.order ⟨order, none⟩, .poll host now 0] =
      (new station start).carryOut ⟨order, none⟩ now := rfl

omit [Carrier τ] in
/-- If the service has not crashed, its station has met no fault. -/
theorem exists_of_act {α : Type} {s : Service τ} {work : Act τ α}
    {next : α → Service τ → Service τ} (h : ¬ (s.act work next).Crashed) : ∃ a station,
      work s.station = .ok a station ∧ s.act work next = next a { s with station } := by
  rcases act_cases s work next with hok | ⟨fault, station, -, he⟩
  · exact hok
  · exact absurd ⟨fault, he ▸ rfl⟩ h

/-- A service that never crashes hosts any agent. -/
theorem NeverCrashes.hosts (h : (new (.new settings carrier start) start).NeverCrashes last)
    (hm : settings.maxAgents ≠ some 0) (agent : AgentId) (payload : Payload) :
    (Station.new settings carrier start).Hosts agent payload last := by
  have hstay := h (briefStay settings.id agent payload last) (until_briefStay _ _ _ _)
  unfold briefStay at hstay
  rw [turns_append, turns_receive_poll (Station.deliver_heartbeat hm carrier start agent last),
    turns_append, turns_order_poll] at hstay
  unfold carryOut at hstay
  dsimp only at hstay
  obtain ⟨result, s₁, hsubmit, he⟩ := exists_of_act fun hc => hstay (crashed_of_turns hc _)
  rw [he] at hstay
  change ¬ ((new s₁ start).turns _).Crashed at hstay
  rw [turns_order_poll] at hstay
  unfold carryOut at hstay
  obtain ⟨result', s₂, hderegister, -⟩ := exists_of_act hstay
  exact ⟨result, s₁, result', s₂, hsubmit, hderegister⟩

end BriefStay

/-! ### A late pass -/

section LatePass

variable [Carrier τ] {host : Host} {settings : NetworkSettings} {carrier : τ} {start last : Instant}

/-- A task that has nothing but regular work to do. -/
def resting (station : Station τ) (tickDue sweepDue : Instant) : Service τ :=
  ⟨station, .serving, [], false, [], tickDue, sweepDue, []⟩

theorem turn_of_tickDue (host : Host) (station : Station τ) {tickDue : Instant}
    (sweepDue : Instant) (h : tickDue ≤ last) :
    (resting station tickDue sweepDue).turn (.poll host last last) =
      (resting station tickDue sweepDue).again tickDue station.settings.tickInterval last
        fun tickDue => (resting station tickDue sweepDue).act (Station.pumpAll last)
          fun () s => s :=
  turn_poll_of_eq_some (if_pos h)

theorem turn_of_sweepDue {station : Station τ} {tickDue sweepDue : Instant} (ht : last < tickDue)
    (h : sweepDue ≤ last) :
    (resting station tickDue sweepDue).turn (.poll host last last) =
      (resting station tickDue sweepDue).again sweepDue station.settings.sweepInterval last
        (resting (station.sweep last).2 tickDue) :=
  turn_poll_of_eq_some ((if_neg (Nat.not_le.2 ht)).trans (if_pos h))

omit [Carrier τ] in
/-- Something regular that is done late begins its period anew. -/
theorem again_of_late {s : Service τ} {due : Instant} {period : Span}
    {work : Instant → Service τ} (hnext : Host.nextDue due period last = last.after period)
    (h : ¬ (s.again due period last work).Crashed) :
    last + period < Instant.horizon ∧ s.again due period last work = work (last + period) := by
  unfold again at h ⊢
  by_cases hp : last + period < Instant.horizon
  · rw [hnext, Instant.after_eq_ok hp]
    exact ⟨hp, rfl⟩
  · have hfault : last.after period = .error .instantOverflow := if_neg hp
    rw [hnext, hfault] at h
    exact absurd ⟨_, rfl⟩ h

/-- A service that never crashes can tell when regular work that is done late is due again. -/
theorem NeverCrashes.regular (h : (new (.new settings carrier start) start).NeverCrashes last)
    (hv : settings.validate = .ok ()) (hlate : start + Span.ofMillis 5 < last) :
    settings.Regular last := by
  have hdue : start ≤ last := Nat.le_trans (Nat.le_add_right ..) (Nat.le_of_lt hlate)
  have hnext (period : Span) : Host.plain.nextDue start period last = last.after period :=
    if_pos hlate
  have hpolls (n : Nat) : ∀ t ∈ List.replicate n (Turn.poll .plain last last), t.Until last :=
    fun t ht => (List.eq_of_mem_replicate ht).symm ▸ Nat.le_refl last
  -- the first poll passes over the backlogs, of which there are none
  have hpass := turn_of_tickDue .plain (.new settings carrier start) start hdue
  have hfirst := h (.replicate 1 (.poll .plain last last)) (hpolls 1)
  change ¬ ((resting _ start start).turn (.poll .plain last last)).Crashed at hfirst
  rw [hpass] at hfirst
  obtain ⟨htick, hagain⟩ := again_of_late (hnext settings.tickInterval) hfirst
  -- the second poll searches for silent agents
  have hlater : last < last + settings.tickInterval :=
    Nat.lt_add_of_pos_right (Nat.pos_of_ne_zero (NetworkSettings.tickInterval_of_validate hv))
  have hsecond := h (.replicate 2 (.poll .plain last last)) (hpolls 2)
  change ¬ (((resting _ start start).turn (.poll .plain last last)).turn
    (.poll .plain last last)).Crashed at hsecond
  rw [hpass.trans hagain] at hsecond
  change ¬ ((resting _ (last + settings.tickInterval) start).turn
    (.poll .plain last last)).Crashed at hsecond
  rw [turn_of_sweepDue hlater hdue] at hsecond
  exact ⟨htick, (again_of_late (hnext settings.sweepInterval) hsecond).1⟩

end LatePass

end Service

/-! ### Deadlines of broadcasts -/

theorem exists_mapM_iff {α β : Type} {f : α → Except Fault β} (l : List α) :
    (∃ l', l.mapM f = .ok l') ↔ ∀ x ∈ l, ∃ y, f x = .ok y := by
  induction l with
  | nil => exact ⟨nofun, fun _ => ⟨[], rfl⟩⟩
  | cons x rest ih =>
    rw [List.mapM_cons, List.forall_mem_cons, ← ih]
    cases hx : f x with
    | error fault => exact ⟨nofun, nofun⟩
    | ok y =>
      cases hrest : rest.mapM f with
      | error fault => exact ⟨nofun, nofun⟩
      | ok l' => exact ⟨fun _ => ⟨⟨y, rfl⟩, l', rfl⟩, fun _ => ⟨y :: l', rfl⟩⟩

theorem exists_deadline_iff {α : Type} {now : Instant} {grace : Span} (f : Instant → α) :
    (∃ y, (do let deadline ← now.after grace; return f deadline) = .ok y) ↔
      now + grace < Instant.horizon := by
  unfold Instant.after
  split
  · rename_i h
    exact ⟨fun _ => h, fun _ => ⟨_, rfl⟩⟩
  · rename_i h
    exact ⟨nofun, fun h' => absurd h' h⟩

/-- The control centre can tell the deadline of a broadcast to one network exactly if the grace of
the network lets it. -/
theorem Control.exists_broadcastOrder_iff {τ : Type} (c : Control τ) (network : NetworkId)
    (bulletin : Bulletin) {now : Instant} :
    (∃ order, c.broadcastOrder network bulletin now = .ok order) ↔
      ∀ k settings, c.serviceOf network = .ok k → c.settingsOf network = .ok settings →
        now + settings.broadcastGrace < Instant.horizon := by
  unfold broadcastOrder
  cases c.serviceOf network with
  | error e => exact ⟨fun _ _ _ => nofun, fun _ => ⟨_, rfl⟩⟩
  | ok k =>
    cases c.settingsOf network with
    | error e => exact ⟨fun _ _ _ _ => nofun, fun _ => ⟨_, rfl⟩⟩
    | ok settings =>
      refine (exists_deadline_iff fun deadline => _).trans
        ⟨fun h => ?_, fun h => h k settings rfl rfl⟩
      rintro _ _ ⟨⟩ ⟨⟩
      exact h

/-- The control centre can tell the deadlines of the correction stream exactly if the grace of each
attached network lets it. -/
theorem Control.exists_correctionDeadlines_iff {τ : Type} (c : Control τ) {now : Instant}
    (hn : now < Instant.horizon) :
    (∃ l, c.correctionDeadlines now = .ok l) ↔
      ∀ network ∈ c.networks, ∀ settings, c.settingsOf network = .ok settings →
        now + settings.broadcastGrace < Instant.horizon := by
  unfold correctionDeadlines networks Table.keys
  rw [exists_mapM_iff, List.forall_mem_map]
  refine forall₂_congr fun x _ => (exists_deadline_iff _).trans ?_
  -- a network that is not declared has no grace
  unfold graceOf
  cases hs : c.settingsOf x.1 with
  | error e => exact ⟨nofun, fun _ => hn⟩
  | ok settings =>
    constructor
    · rintro h _ ⟨⟩
      exact h
    · exact fun h => h settings rfl

/-! ### Which settings keep faults away -/

/-- With accepted settings and no throttle, up to `2 ^ 40` seconds, a station meets no fault if
neither the longest time to wait for a reply nor the time for which results are kept reaches the
horizon, and its service does not crash if no period of regular work reaches the horizon either.  If
results are kept for longer there is a fault, and so there is if the initial time to wait is longer
and the link takes a request, or if a longer period begins late.  The deadlines of broadcasts are
told exactly if no grace reaches the horizon. -/
theorem faultless_in_range {τ : Type} [Carrier τ] {settings : NetworkSettings}
    (hv : settings.validate = .ok ()) (hr : settings.rateLimit = none) {last : Instant}
    (hl : last ≤ longRun) :
    (∀ (carrier : τ) (start : Instant),
      let station := Station.new settings carrier start
      let service := Service.new station start
      (last + settings.maxTimeout < Instant.horizon →
        last + settings.resultGrace < Instant.horizon →
          station.NeverFaults last ∧ (settings.Regular last → service.NeverCrashes last)) ∧
      (station.NeverFaults last ∨ service.NeverCrashes last →
        last + settings.resultGrace < Instant.horizon ∧
          (Station.Asks carrier settings.id →
            last + settings.initialTimeout < Instant.horizon)) ∧
      (service.NeverCrashes last → start + Span.ofMillis 5 < last → settings.Regular last)) ∧
    ∀ (c : Control τ), ∀ now ≤ last,
      (∀ network bulletin, (∃ order, c.broadcastOrder network bulletin now = .ok order) ↔
        ∀ k declared, c.serviceOf network = .ok k → c.settingsOf network = .ok declared →
          now + declared.broadcastGrace < Instant.horizon) ∧
      ((∃ l, c.correctionDeadlines now = .ok l) ↔
        ∀ network ∈ c.networks, ∀ declared, c.settingsOf network = .ok declared →
          now + declared.broadcastGrace < Instant.horizon) := by
  have hb : last * 7 ≤ Span.longest := mul_le_of_le_longRun hl
  refine ⟨fun carrier start => ⟨fun hdeadline hgrace => ?_, ?_, fun h => h.regular hv⟩,
    fun c now hn => ⟨fun network bulletin => c.exists_broadcastOrder_iff network bulletin, ?_⟩⟩
  · have hi : settings.InRange last :=
      ⟨NetworkSettings.bounds_of_validate hv, hdeadline, hgrace⟩
    have hstation := Station.timely_new hi hr carrier start
    exact ⟨hstation.neverFaults hb,
      fun hregular => (Service.timely_new hstation hregular start).neverCrashes hb⟩
  · have hm := NetworkSettings.maxAgents_of_validate hv
    rintro (h | h)
    · exact Station.told_of_hosts (h.hosts hm) hv hr
    · exact Station.told_of_hosts (h.hosts hm) hv hr
  · refine c.exists_correctionDeadlines_iff (Nat.lt_of_le_of_lt (Nat.le_trans hn hl) ?_)
    decide

/-- Services that are to keep results, to wait for replies, or to rest between two regular passes
for `2 ^ 64 - 1` seconds are accepted and can crash at once, or when a pass is late; with the usual
settings none crashes within `2 ^ 40` seconds. -/
theorem faultless_in_range_veryLong :
    let veryLong := Span.ofParts 18446744073709551615 0
    let keeping : NetworkSettings := { id := "alpha", resultGrace := veryLong }
    let waiting : NetworkSettings :=
      { id := "alpha", initialTimeout := veryLong, maxTimeout := veryLong }
    let resting : NetworkSettings := { id := "alpha", tickInterval := veryLong }
    let usual : NetworkSettings := { id := "alpha" }
    let carrier := Pipe.new "radio" 8
    (keeping.validate = .ok () ∧ keeping.rateLimit = none ∧ 0 ≤ longRun ∧
      ¬ (Service.new (.new keeping carrier 0) 0).NeverCrashes 0) ∧
    (waiting.validate = .ok () ∧ waiting.rateLimit = none ∧ 0 ≤ longRun ∧
      ¬ (Service.new (.new waiting carrier 0) 0).NeverCrashes 0) ∧
    (resting.validate = .ok () ∧ resting.rateLimit = none ∧ Span.second ≤ longRun ∧
      ¬ (Service.new (.new resting carrier 0) 0).NeverCrashes Span.second) ∧
    (usual.validate = .ok () ∧ usual.rateLimit = none ∧ longRun ≤ longRun ∧
      (Service.new (.new usual carrier 0) 0).NeverCrashes longRun) := by
  intro veryLong keeping waiting resting usual carrier
  have hkeeping : keeping.validate = .ok () := by decide +kernel
  have hwaiting : waiting.validate = .ok () := by decide +kernel
  have hresting : resting.validate = .ok () := by decide +kernel
  have husual : usual.validate = .ok () := by decide +kernel
  have hsecond : Span.second ≤ longRun := by decide
  refine ⟨⟨hkeeping, rfl, Nat.zero_le _, fun h => ?_⟩, ⟨hwaiting, rfl, Nat.zero_le _, fun h => ?_⟩,
    ⟨hresting, rfl, hsecond, fun h => ?_⟩, husual, rfl, Nat.le_refl _, ?_⟩
  · have htold := ((faultless_in_range hkeeping rfl (Nat.zero_le _)).1 carrier 0).2.1 (.inr h)
    exact absurd htold.1 (by decide +kernel)
  · have htold := ((faultless_in_range hwaiting rfl (Nat.zero_le _)).1 carrier 0).2.1 (.inr h)
    exact absurd (htold.2 ⟨1, [], 1, rfl⟩) (by decide +kernel)
  · have hregular := ((faultless_in_range hresting rfl hsecond).1 carrier 0).2.2 h (by decide)
    exact absurd hregular.tick (by decide +kernel)
  · have hall := ((faultless_in_range husual rfl (Nat.le_refl _)).1 carrier 0).1
    exact (hall (by decide +kernel) (by decide +kernel)).2 ⟨by decide +kernel, by decide +kernel⟩

end GroundControl
