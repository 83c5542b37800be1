import GroundControl.Proofs.Station.Endings
import GroundControl.Proofs.Station.Standing

/-!
# The attempts at a request in a run

A request is in flight from an instant at which the link took a frame of it, and since its first
frame was taken it has been given time for every one of them.

* `Step.takes`, `taken`: the instants at which the link took the frames of a request to which a
  reply was awaited;
* `InOrder`: no step is asked for before an earlier one; `Paced`: time enough has passed;
* `Step.Launches.span`: the time that is allowed for the reply to a frame;
* `Tracked`, what the instants say about the request, and `tracked_of_run`: it holds of every
  request that is taken in.
-/

namespace GroundControl

variable {τ : Type}

namespace Step

/-- When a step makes the link take a frame of a request to which a reply is awaited. -/
def takes (step : Step τ) (x : Handle) : Option Instant :=
  if (step.sendsTo x.agent).any Sending.isAwaited &&
      (step.after.queueOf x.agent).inFlight.any fun q => q.ident == x.ident then
    step.operation.time?
  else none

end Step

/-- The instants at which the link took the frames of a request to which a reply was awaited. -/
def taken (steps : List (Step τ)) (x : Handle) : List Instant := steps.filterMap (·.takes x)

/-- The instants at which steps are asked for. -/
def instants (steps : List (Step τ)) : List Instant :=
  steps.filterMap fun step => step.operation.time?

/-- No step is asked for before an earlier one. -/
def InOrder (steps : List (Step τ)) : Prop := (instants steps).Pairwise (· ≤ ·)

/-- Since the first of some instants, the span `lo` has passed for each of them. -/
def Paced (lo : Span) (l : List Instant) (now : Instant) : Prop :=
  ∀ first ∈ l.head?, first + l.length * lo ≤ now

theorem paced_nil (lo : Span) (now : Instant) : Paced lo [] now := nofun

theorem Paced.append {lo d : Span} {l : List Instant} {now : Instant} (h : Paced lo l now)
    (hd : lo ≤ d) : Paced lo (l ++ [now]) (now + d) := by
  intro first hf
  rw [List.length_append, List.length_singleton]
  cases l with
  | nil =>
    obtain rfl := Option.some.inj hf
    rw [List.length_nil, Nat.zero_add, Nat.one_mul]
    exact Nat.add_le_add_left hd now
  | cons t rest =>
    obtain rfl := Option.some.inj hf
    have hle := h t rfl
    rw [Nat.add_mul, Nat.one_mul, ← Nat.add_assoc]
    exact Nat.add_le_add hle hd

theorem taken_append (past : List (Step τ)) (step : Step τ) (x : Handle) :
    taken (past ++ [step]) x = taken past x ++ (step.takes x).toList := by
  unfold taken
  rw [List.filterMap_append, List.filterMap_cons]
  cases step.takes x <;> rfl

theorem InOrder.of_append {past later : List (Step τ)} (h : InOrder (past ++ later)) :
    InOrder past := by
  unfold InOrder instants at h ⊢
  rw [List.filterMap_append] at h
  exact (List.pairwise_append.1 h).1

theorem instants_append {past : List (Step τ)} {step : Step τ} {now : Instant}
    (hnow : step.operation.time? = some now) :
    instants (past ++ [step]) = instants past ++ [now] := by
  unfold instants
  rw [List.filterMap_append, List.filterMap_cons, hnow]
  rfl

/-- The last of the steps is asked for last. -/
theorem InOrder.le {past : List (Step τ)} {step : Step τ} (h : InOrder (past ++ [step]))
    {now : Instant} (hnow : step.operation.time? = some now) :
    ∀ t ∈ instants (past ++ [step]), t ≤ now := by
  unfold InOrder at h
  rw [instants_append hnow] at h ⊢
  intro t ht
  rcases List.mem_append.1 ht with ht | ht
  · exact (List.pairwise_append.1 h).2.2 t ht now (List.mem_singleton_self now)
  · exact Nat.le_of_eq (List.mem_singleton.1 ht)

theorem mem_instants_of_taken {steps : List (Step τ)} {x : Handle} {t : Instant}
    (h : t ∈ taken steps x) : t ∈ instants steps := by
  obtain ⟨step, hm, ht⟩ := List.mem_filterMap.1 h
  refine List.mem_filterMap.2 ⟨step, hm, ?_⟩
  unfold Step.takes at ht
  split at ht
  · exact ht
  · cases ht

/-! ### Launches -/

namespace Step

variable {step : Step τ} {agent : AgentId} {x : Handle} {q : Request}

/-- The time that is allowed for the reply to a frame. -/
theorem Launches.span (h : step.Launches agent q) (ht : step.after.Tuned) :
    ∃ now base d, step.operation.time? = some now ∧ q.sentAt = some now ∧
      step.after.estimator.timeout q.trafficClass = .ok base ∧
        d = min step.after.settings.maxTimeout
          (min (2 ^ (step.after.queueOf agent).timeouts) 4294967295 * base) ∧
          q.deadline = some (now + d) ∧ step.after.settings.minTimeout ≤ d ∧
            d ≤ step.after.settings.maxTimeout := by
  obtain ⟨now, base, d, hnow, hsent, hbase, hd, hdeadline, hhorizon⟩ := h.deadline
  have hlt : backoff base (step.after.queueOf agent).timeouts step.after.settings.maxTimeout <
      Span.longest := by
    have hle : d ≤ now + d := Nat.le_add_left d now
    rw [← hd]
    exact Nat.lt_trans (Nat.lt_of_le_of_lt hle hhorizon) (by decide)
  have hexact := hd.trans (backoff_eq hlt)
  obtain ⟨hlo, hhi⟩ := Estimator.mem_bounds_of_timeout hbase
  refine ⟨now, base, d, hnow, hsent, hbase, hexact, hdeadline, ?_, ?_⟩
  · rw [← ht.minTimeout, hd]
    exact le_backoff _ hlo (ht.maxTimeout ▸ Nat.le_trans hlo hhi) hlt
  · rw [hexact]
    exact Nat.min_le_left ..

theorem Launches.takes (h : step.Launches x.agent q) (hi : q.ident = x.ident) :
    step.takes x = step.operation.time? := by
  obtain ⟨frames, f, hframes, -, -, hkey⟩ := h.frame
  have hany : (step.sendsTo x.agent).any Sending.isAwaited = true := by
    rw [hframes, List.any_append]
    have hf : Sending.isAwaited (f, .ok ()) = true := (Bool.and_true _).trans hkey
    rw [List.any_cons, hf, Bool.true_or, Bool.or_true]
  unfold Step.takes
  rw [hany, h.flight, Option.any_some, hi, beq_self_eq_true]
  rfl

theorem exists_of_takes {t : Instant} (h : step.takes x = some t) :
    (∃ f ∈ step.sendsTo x.agent, Sending.isAwaited f = true) ∧
      (∃ q, (step.after.queueOf x.agent).inFlight = some q ∧ q.ident = x.ident) ∧
        step.operation.time? = some t := by
  unfold Step.takes at h
  split at h
  · rename_i hc
    obtain ⟨hany, hflight⟩ := Bool.and_eq_true_iff.1 hc
    obtain ⟨q, hq, hi⟩ := (Option.any_eq_true _ _).1 hflight
    exact ⟨List.any_eq_true.1 hany, ⟨q, hq, eq_of_beq hi⟩, h⟩
  · cases h

/-- A request whose frame the link takes is pending after the step. -/
theorem mem_idents_of_takes {t : Instant} (h : step.takes x = some t) :
    x.ident ∈ step.after.idents := by
  obtain ⟨-, ⟨q, hq, hi⟩, -⟩ := exists_of_takes h
  exact hi ▸ Station.mem_idents_of_queueOf
    (List.mem_map_of_mem (Backlog.mem_requests.2 (.inl hq)))

theorem takes_eq_none (h : x.ident ∉ step.after.idents) : step.takes x = none :=
  Option.eq_none_iff_forall_ne_some.2 fun _ ht => h (mem_idents_of_takes ht)

end Step

namespace Station

/-! ### The instants of a request -/

/-- What the instants at which the link took the frames of a request say about the request, if at
least the span `lo` is allowed for each reply. -/
structure Tracked (lo : Span) (steps : List (Step τ)) (s : Station τ) (x : Handle) : Prop where
  flight : ∀ q, (s.queueOf x.agent).inFlight = some q → q.ident = x.ident →
    ∃ earlier t deadline, taken steps x = earlier ++ [t] ∧ q.sentAt = some t ∧
      earlier.length < q.attempts ∧ q.deadline = some deadline ∧
        (InOrder steps → Paced lo (taken steps x) deadline)
  waiting : ∀ w ∈ (s.queueOf x.agent).waiting, w.ident = x.ident →
    (taken steps x).length ≤ w.attempts ∧ (InOrder steps → ∀ now, (∀ t ∈ instants steps, t ≤ now) →
      Paced lo (taken steps x) now)
  unknown : s.tickets ≤ x.ticket → taken steps x = []
  timedOut : ∀ step ∈ steps, ∀ o : Outcome, o.TimedOut → (x.ticket, o) ∈ outcomes step.effects →
    x.ident ∉ s.idents ∧ x.ticket < s.tickets ∧ ∃ now first rest,
      step.operation.time? = some now ∧ taken steps x = first :: rest ∧
        (InOrder steps → first + (rest.length + 1) * lo < now)

/-- What is pending no longer, and has its ticket, is never pending again. -/
theorem Transfer.gone {s s' : Station τ} {fresh : List Ident} {ended : List Finished}
    (h : Transfer s fresh ended s') {i : Ident} (hi : i ∉ s.idents) (hlt : i.ticket < s.tickets) :
    i ∉ s'.idents ∧ i.ticket < s'.tickets := by
  refine ⟨fun hm => ?_, h.tickets ▸ Nat.lt_of_lt_of_le hlt (Nat.le_add_right ..)⟩
  rcases List.mem_append.1 (h.balance.mem_iff.2 (List.mem_append_right _ hm)) with hm | hm
  · exact hi hm
  · have ht : i.ticket ∈ fresh.map Ident.ticket := List.mem_map_of_mem hm
    rw [h.numbered] at ht
    exact Nat.not_lt.2 (List.mem_range'_1.1 ht).1 hlt

section Steps

variable {lo : Span} {past : List (Step τ)} {step : Step τ} {x : Handle}

/-- A request in flight that is timed out is overdue. -/
theorem overdue_of_timesOut {agent : AgentId} {r : Request} (h : step.timesOut agent = true)
    (hr : (step.before.queueOf agent).inFlight = some r) :
    ∃ now, step.operation.time? = some now ∧ r.overdue now = true := by
  unfold Step.timesOut at h
  obtain ⟨hfirst, hexpires⟩ := Bool.and_eq_true_iff.1 h
  obtain ⟨hpump, -⟩ := Bool.and_eq_true_iff.1 hfirst
  obtain ⟨⟨now, hnow⟩, -⟩ := exists_time_of_pump (of_decide_eq_true hpump)
  rw [hnow] at hexpires
  obtain ⟨q, hq, -, ho⟩ := Backlog.expires_iff.1 hexpires
  obtain rfl := Option.some.inj (hr.symm.trans hq)
  exact ⟨now, hnow, ho⟩

/-- The deadline of a request that is timed out is over. -/
theorem Tracked.timesOut (h : Tracked lo past step.before x) {r : Request}
    (ht : step.timesOut x.agent = true)
    (hr : (step.before.queueOf x.agent).inFlight = some r) (hi : r.ident = x.ident) :
    ∃ now first rest, step.operation.time? = some now ∧ taken past x = first :: rest ∧
      rest.length < r.attempts ∧
        (InOrder past → first + (rest.length + 1) * lo < now) := by
  obtain ⟨now, hnow, ho⟩ := overdue_of_timesOut ht hr
  obtain ⟨earlier, t, deadline, htaken, -, hn, hd, hpaced⟩ := h.flight r hr hi
  have hlt : deadline < now := by
    unfold Request.overdue at ho
    rw [hd] at ho
    exact of_decide_eq_true (Bool.and_eq_true_iff.1 ho).2
  cases hl : taken past x with
  | nil =>
    rw [hl] at htaken
    exact absurd htaken.symm (List.append_ne_nil_of_right_ne_nil _ (List.cons_ne_nil _ _))
  | cons first rest =>
    refine ⟨now, first, rest, hnow, rfl, ?_, fun ho => Nat.lt_of_le_of_lt ?_ hlt⟩
    · have hlength := congrArg List.length (hl.symm.trans htaken)
      rw [List.length_cons, List.length_append, List.length_singleton] at hlength
      omega
    · have hp := hpaced ho
      rw [hl] at hp
      exact hp first rfl

/-- A request that is ready has been tried as often as the link took a frame of it, and has been
given time for each of them. -/
theorem Tracked.ready (h : Tracked lo past step.before x) {n : Nat}
    (hnew : ∀ i ∈ step.actions.flatMap Action.fresh, step.before.tickets ≤ i.ticket)
    (hr : step.Ready x.agent (x.ident, n)) :
    (taken past x).length ≤ n ∧ (InOrder (past ++ [step]) → ∀ now,
      (∀ t ∈ instants (past ++ [step]), t ≤ now) → Paced lo (taken past x) now) := by
  have hsub : ∀ t ∈ instants past, t ∈ instants (past ++ [step]) := by
    unfold instants
    rw [List.filterMap_append]
    exact fun t ht => List.mem_append_left _ ht
  rcases hr with hw | hfresh | ⟨r, hr, he, ht⟩
  · obtain ⟨w, hmem, he⟩ := List.mem_map.1 hw
    obtain ⟨hi, rfl⟩ := Prod.mk.inj he
    obtain ⟨hlength, hpaced⟩ := h.waiting w hmem hi
    exact ⟨hlength, fun ho now hnow => hpaced ho.of_append now fun t ht => hnow t (hsub t ht)⟩
  · rw [h.unknown (hnew _ hfresh)]
    exact ⟨Nat.zero_le n, fun _ now _ => paced_nil lo now⟩
  · obtain ⟨hi, rfl⟩ := Prod.mk.inj he
    obtain ⟨now, first, rest, hnow, htaken, hn, hlt⟩ := h.timesOut ht hr hi
    rw [htaken]
    refine ⟨hn, fun ho t hle => ?_⟩
    rintro _ ⟨⟩
    have hmem : now ∈ instants (past ++ [step]) := by
      rw [instants_append hnow]
      exact List.mem_append_right _ (List.mem_singleton_self now)
    exact Nat.le_trans (Nat.le_of_lt (hlt ho.of_append)) (hle now hmem)

/-- A request does not wait while it is in flight. -/
theorem takes_eq_none_of_waiting (hn : step.after.Numbered) {w : Request}
    (hw : w ∈ (step.after.queueOf x.agent).waiting) (hi : w.ident = x.ident) :
    step.takes x = none := by
  refine Option.eq_none_iff_forall_ne_some.2 fun t ht => ?_
  obtain ⟨-, ⟨q, hq, hi'⟩, -⟩ := Step.exists_of_takes ht
  have hnodup := hn.queue x.agent
  rw [Backlog.idents_of_inFlight hq, hi', ← hi] at hnodup
  exact (List.nodup_cons.1 hnodup).1 (List.mem_map_of_mem (List.mem_map_of_mem hw))

theorem taken_of_takes_eq_none (h : step.takes x = none) :
    taken (past ++ [step]) x = taken past x := by
  rw [taken_append, h]
  exact List.append_nil _

variable [Carrier τ]

/-- A request in flight after a step was handed to the link in it, or was in flight before. -/
theorem Tracked.flight_next (h : Tracked lo past step.before x) (hv : Visit step x.agent)
    (hs : step.after.Sound) (ht : step.after.Tuned) (hlo : step.after.settings.minTimeout = lo)
    (hnew : ∀ i ∈ step.actions.flatMap Action.fresh, step.before.tickets ≤ i.ticket)
    {q : Request} (hq : (step.after.queueOf x.agent).inFlight = some q) (hi : q.ident = x.ident) :
    ∃ earlier t deadline, taken (past ++ [step]) x = earlier ++ [t] ∧ q.sentAt = some t ∧
      earlier.length < q.attempts ∧ q.deadline = some deadline ∧
        (InOrder (past ++ [step]) → Paced lo (taken (past ++ [step]) x) deadline) := by
  rcases hv.flight hs with ⟨q', hl⟩ | ⟨hunawaited, hflight⟩
  · obtain rfl := Option.some.inj (hq.symm.trans hl.flight)
    obtain ⟨n, hattempts, hready⟩ := hl.ready
    obtain ⟨hlength, hpaced⟩ := h.ready hnew (hi ▸ hready)
    obtain ⟨now, base, d, hnow, hsent, -, -, hdeadline, hd, -⟩ := hl.span ht
    have htaken : taken (past ++ [step]) x = taken past x ++ [now] := by
      rw [taken_append, hl.takes hi, hnow]
      rfl
    refine ⟨taken past x, now, _, htaken, hsent, ?_, hdeadline, fun ho => ?_⟩
    · rw [hattempts]
      exact Nat.lt_succ_of_le hlength
    · rw [htaken]
      exact (hpaced ho now (ho.le hnow)).append (hlo ▸ hd)
  · obtain ⟨r, hr, hu, -⟩ := hflight q hq
    have hnone : step.takes x = none := by
      refine Option.eq_none_iff_forall_ne_some.2 fun t ht => ?_
      obtain ⟨⟨f, hf, ha⟩, -⟩ := Step.exists_of_takes ht
      rw [hunawaited f hf] at ha
      cases ha
    have hident : r.ident = q.ident := (congrArg Request.ident hu :)
    have hsent : r.sentAt = q.sentAt := (congrArg Request.sentAt hu :)
    have hattempts : r.attempts = q.attempts := (congrArg Request.attempts hu :)
    have hdeadline : r.deadline = q.deadline := (congrArg Request.deadline hu :)
    rw [taken_of_takes_eq_none hnone, ← hsent, ← hattempts, ← hdeadline]
    obtain ⟨earlier, t, deadline, htaken, ht, hn, hd, hpaced⟩ :=
      h.flight r hr (hident.trans hi)
    exact ⟨earlier, t, deadline, htaken, ht, hn, hd, fun ho => hpaced ho.of_append⟩

/-- A request that waits after a step was ready in it. -/
theorem Tracked.waiting_next (h : Tracked lo past step.before x) (hv : Visit step x.agent)
    (hn : step.after.Numbered)
    (hnew : ∀ i ∈ step.actions.flatMap Action.fresh, step.before.tickets ≤ i.ticket)
    {w : Request} (hw : w ∈ (step.after.queueOf x.agent).waiting) (hi : w.ident = x.ident) :
    (taken (past ++ [step]) x).length ≤ w.attempts ∧ (InOrder (past ++ [step]) → ∀ now,
      (∀ t ∈ instants (past ++ [step]), t ≤ now) → Paced lo (taken (past ++ [step]) x) now) := by
  rw [taken_of_takes_eq_none (takes_eq_none_of_waiting hn hw hi)]
  obtain ⟨n, hle, hready⟩ := hv.waiting w hw
  obtain ⟨hlength, hpaced⟩ := h.ready hnew (hi ▸ hready)
  exact ⟨Nat.le_trans hlength hle, hpaced⟩

/-- A request that is timed out has been given time for all its frames. -/
theorem Tracked.timedOut_next (h : Tracked lo past step.before x) (hs : step.before.Sound)
    (hn : step.before.Numbered)
    (hx : ∀ i ∈ step.before.idents, i.ticket = x.ticket → i = x.ident)
    (hp : perform step.operation step.before = .ok step.response step.after) {o : Outcome}
    (ho : o.TimedOut) (htold : (x.ticket, o) ∈ outcomes step.effects) :
    x.ident ∉ step.after.idents ∧ x.ident ∈ step.before.idents ∧ ∃ now first rest,
      step.operation.time? = some now ∧ taken (past ++ [step]) x = first :: rest ∧
        (InOrder (past ++ [step]) → first + (rest.length + 1) * lo < now) := by
  obtain ⟨agent, r, hr, hticket, htime, haway⟩ := timedOut_of_told hs hn hp htold ho
  have hmem : r.ident ∈ (step.before.queueOf agent).idents :=
    List.mem_map_of_mem (Backlog.mem_requests.2 (.inl hr))
  have hi : r.ident = x.ident := hx r.ident (mem_idents_of_queueOf hmem) hticket
  obtain rfl : x.agent = agent := hs.placed agent x.ident (hi ▸ hmem)
  rw [hi] at haway
  obtain ⟨now, first, rest, hnow, htaken, -, hlt⟩ := h.timesOut htime hr hi
  rw [taken_of_takes_eq_none (Step.takes_eq_none haway)]
  exact ⟨haway, hi ▸ mem_idents_of_queueOf hmem, now, first, rest, hnow, htaken,
    fun hio => hlt hio.of_append⟩

/-- What the instants of a request say is kept up in every step. -/
theorem Tracked.next (h : Tracked lo past step.before x) (hs : step.before.Sound)
    (hn : step.before.Numbered) (ht : step.after.Tuned)
    (hlo : step.after.settings.minTimeout = lo)
    (hx : ∀ i ∈ step.before.idents, i.ticket = x.ticket → i = x.ident)
    (hp : perform step.operation step.before = .ok step.response step.after) :
    Tracked lo (past ++ [step]) step.after x := by
  obtain ⟨hs', ended, htransfer⟩ := (perform_moves hp).transfer hs
  have hn' := htransfer.keeps_numbered hn
  have hv := perform_visit hs hp x.agent
  have hle : step.before.tickets ≤ step.after.tickets :=
    htransfer.tickets ▸ Nat.le_add_right ..
  have hnew : ∀ i ∈ step.actions.flatMap Action.fresh, step.before.tickets ≤ i.ticket := by
    intro i hi
    have hm := List.mem_map_of_mem (f := Ident.ticket) hi
    have hnumbered : (step.actions.flatMap Action.fresh).map Ident.ticket = _ :=
      htransfer.numbered
    rw [hnumbered] at hm
    exact (List.mem_range'_1.1 hm).1
  refine ⟨fun q => h.flight_next hv hs' ht hlo hnew, fun w => h.waiting_next hv hn' hnew,
    fun hticket => ?_, fun other hm o ho htold => ?_⟩
  · have haway : x.ident ∉ step.after.idents := fun hm =>
      Nat.not_lt.2 hticket (hn'.lt x.ident hm)
    rw [taken_of_takes_eq_none (Step.takes_eq_none haway)]
    exact h.unknown (Nat.le_trans hle hticket)
  · rcases List.mem_append.1 hm with hm | hm
    · obtain ⟨haway, hlt, now, first, rest, hnow, htaken, hpaced⟩ := h.timedOut other hm o ho htold
      obtain ⟨haway', hlt'⟩ := htransfer.gone haway hlt
      rw [taken_of_takes_eq_none (Step.takes_eq_none haway')]
      exact ⟨haway', hlt', now, first, rest, hnow, htaken, fun hio => hpaced hio.of_append⟩
    · obtain rfl := List.mem_singleton.1 hm
      obtain ⟨haway, hbefore, hrest⟩ := h.timedOut_next hs hn hx hp ho htold
      exact ⟨haway, Nat.lt_of_lt_of_le (hn.lt x.ident hbefore) hle, hrest⟩

end Steps

section Runs

variable [Carrier τ] {settings : NetworkSettings} {carrier : τ} {start : Instant}
  {operations : List Operation} {steps : List (Step τ)} {s : Station τ} {x : Handle}

/-- A station keeps its settings, and its requests are those that were taken in. -/
theorem knows_of_run (h : run operations (new settings carrier start) = .ok (steps, s)) :
    s.Sound ∧ s.Numbered ∧ s.settings = settings ∧
      (∀ i ∈ s.idents, i ∈ (accepted steps).map Handle.ident) ∧
        (((accepted steps).map Handle.ident).map Ident.ticket).Nodup := by
  obtain ⟨hs, ended, ht⟩ := run_transfer (sound_new settings carrier start) h
  refine ⟨hs, ht.keeps_numbered (numbered_new settings carrier start), ht.settings,
    fun i hi => ht.balance.mem_iff.2 (List.mem_append_right _ hi), ?_⟩
  rw [ht.numbered]
  exact List.nodup_range' ..

/-- The link takes no frame of a request that is pending no longer. -/
theorem taken_of_gone {t : Station τ} (h : run operations s = .ok (steps, t)) (hs : s.Sound)
    (hi : x.ident ∉ s.idents) (hlt : x.ticket < s.tickets) : taken steps x = [] := by
  induction operations generalizing s steps with
  | nil =>
    cases h
    rfl
  | cons operation rest ih =>
    obtain ⟨response, after, others, hp, hr, rfl⟩ := run_cons_eq_ok.1 h
    obtain ⟨hs', ended, ht⟩ := perform_transfer hs hp
    obtain ⟨hi', hlt'⟩ := ht.gone (i := x.ident) hi hlt
    have hnone : (⟨s, operation, response, after⟩ : Step τ).takes x = none :=
      Step.takes_eq_none hi'
    unfold taken at ih ⊢
    rw [List.filterMap_cons, hnone]
    exact ih hr hs' hi' hlt'

theorem tuned_of_run (h : run operations (new settings carrier start) = .ok (steps, s)) :
    s.Tuned := by
  refine run_induction (P := fun _ s => s.Tuned) h (tuned_new settings carrier start) ?_
  rintro past step ⟨later, rfl⟩ htuned hp
  rw [← List.append_cons] at h
  exact (perform_moves hp).tuned (knows_of_run (run_split h).1).1 htuned

omit [Carrier τ] in
theorem tracked_nil (lo : Span) : Tracked lo [] (new settings carrier start) x where
  flight _ hq := absurd hq (Option.some_ne_none _).symm
  waiting _ hw := absurd hw List.not_mem_nil
  unknown _ := rfl
  timedOut _ hm := absurd hm List.not_mem_nil

/-- What the instants say holds of every request that is taken in. -/
theorem tracked_of_run (h : run operations (new settings carrier start) = .ok (steps, s))
    (hx : x ∈ accepted steps) : Tracked settings.minTimeout steps s x := by
  obtain ⟨-, -, -, -, hnodup⟩ := knows_of_run h
  have hxm : x.ident ∈ (accepted steps).map Handle.ident := List.mem_map_of_mem hx
  refine run_induction (P := fun past s => Tracked settings.minTimeout past s x) h
    (tracked_nil _) ?_
  rintro past step ⟨later, rfl⟩ htracked hp
  rw [← List.append_cons] at h
  obtain ⟨hs, hn, hsettings, hknown, -⟩ := knows_of_run (run_split h).1
  have htuned := (perform_moves hp).tuned hs (tuned_of_run (run_split h).1)
  obtain ⟨-, ended, ht⟩ := perform_transfer hs hp
  refine htracked.next hs hn htuned ?_ (fun i hi hticket => ?_) hp
  · rw [ht.settings, hsettings]
  · refine List.inj_on_of_nodup_map hnodup ?_ hxm hticket
    unfold accepted
    rw [List.append_assoc, List.filterMap_append, List.map_append]
    exact List.mem_append_left _ (hknown i hi)

end Runs

end Station

end GroundControl
