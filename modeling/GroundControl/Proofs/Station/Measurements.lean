import GroundControl.Proofs.RoundTrip.Ranges
import GroundControl.Proofs.Station.Completion
import GroundControl.Proofs.Station.Gauges

/-!
# The books and the measurements

Most of what a station counts it counts twice, in its own books and as a measurement, each at a
place of its own.  All the same they agree after every operation: whatever is entered in the books
in an act is measured in the same act, and as often.

* `Statistic`, what is counted twice; `Statistic.series`, the series it is measured in, with
  `Statistic.of?_of_mem`: no other statistic is; `Station.booked`, `Station.exported`, the two
  counts;
* `Effect.regular`: a measurement is of the kind that its series takes; `exported_of_log`;
* `Booked`, an act that measures what it books, with `trans` and one lemma for each act;
* `Operation.measuresDepth`, the operations after which the number of pending requests is measured;
  `perform_booked`;
* `Exported` and `measurements_agree`, for every run.

A request that is withdrawn ends as cancelled.  If it could end as failed with this cause, it would
be booked as failed and measured as cancelled; `Finished.Fits` excludes it.
-/

namespace GroundControl

variable {τ : Type}

/-! ### What is counted twice -/

/-- What a station counts in its books and measures besides. -/
inductive Statistic
  | inbound (kind : MessageKind)
  /-- messages of agents that could not register -/
  | capped
  | broadcasts (kind : BroadcastKind)
  | retries
  | acked
  | cancelled
  | failed
  /-- measured round-trip times -/
  | samples (c : TrafficClass)
  deriving DecidableEq

/-- The labels under which failed requests are measured. -/
def failureLabels : List String := ["timeout", "rejected", "agent_gone", "transport"]

namespace Statistic

/-- The series in which a statistic of a network is measured. -/
def series (network : NetworkId) : Statistic → List Series
  | .inbound kind => [.inbound network kind]
  | .capped => [.dropped network .agentCap]
  | .broadcasts kind => [.broadcasts network kind]
  | .retries => [.retries network]
  | .acked => [.commands network "acked"]
  | .cancelled => [.commands network "cancelled"]
  | .failed => failureLabels.map (.commands network)
  | .samples c => [.roundTrip network c]

theorem nodup_series (network : NetworkId) (x : Statistic) : (x.series network).Nodup := by
  cases x with
  | failed =>
    have hlabels : failureLabels.Nodup := by decide
    exact hlabels.map fun a b h => (Series.commands.inj h).2
  | _ => exact List.nodup_singleton _

/-- The statistic that counts the requests with a label. -/
def ofLabel (label : String) : Option Statistic :=
  if label = "acked" then some .acked
  else if label = "cancelled" then some .cancelled
  else if label ∈ failureLabels then some .failed
  else none

/-- The statistic in whose series a series is, if there is one. -/
def of? : Series → Option Statistic
  | .inbound _ kind => some (.inbound kind)
  | .dropped _ .agentCap => some .capped
  | .dropped _ .wrongNetwork => none
  | .broadcasts _ kind => some (.broadcasts kind)
  | .commands _ label => ofLabel label
  | .retries _ => some .retries
  | .queueDepth _ | .agentsOnline _ => none
  | .roundTrip _ c => some (.samples c)

/-- No two statistics are measured in the same series. -/
theorem of?_of_mem {network : NetworkId} {x : Statistic} {series : Series}
    (h : series ∈ x.series network) : of? series = some x := by
  cases x with
  | failed =>
    obtain ⟨label, hl, rfl⟩ := List.mem_map.1 h
    have hsome : ∀ label ∈ failureLabels, ofLabel label = some .failed := by decide
    exact hsome label hl
  | _ => exact List.mem_singleton.1 h ▸ rfl

end Statistic

namespace Reading

/-- What a counter has come to, zero if nothing was counted yet. -/
def count : Option Reading → Nat
  | some (.counter n) => n
  | _ => 0

/-- The times that were measured. -/
def spans : Option Reading → List Span
  | some (.times l) => l
  | _ => []

theorem count_update (r : Option Reading) : count (some (update r .count)) = count r + 1 := by
  cases r with
  | none => rfl
  | some r => cases r <;> rfl

theorem spans_update (r : Option Reading) (d : Span) :
    spans (some (update r (.time d))) = spans r ++ [d] := by
  cases r with
  | none => rfl
  | some r => cases r <;> rfl

theorem length_spans_update (r : Option Reading) (d : Span) :
    (spans (some (update r (.time d)))).length = (spans r).length + 1 := by
  rw [spans_update, List.length_append]
  rfl

theorem update_level (r : Option Reading) (n : Nat) : update r (.level n) = .level n := by
  cases r with
  | none => rfl
  | some r => cases r <;> rfl

end Reading

/-! ### Measurements -/

namespace Effect

/-- Whether an effect is a measurement of one of the series. -/
def measures (l : List Series) : Effect → Bool
  | .measured series _ => decide (series ∈ l)
  | _ => false

/-- Whether an effect, if it is a measurement, is one that its series takes, and not one of the
number of pending requests. -/
def regular : Effect → Bool
  | .measured (.queueDepth _) _ => false
  | .measured (.agentsOnline _) (.level _) | .measured (.roundTrip ..) (.time _) => true
  | .measured (.agentsOnline _) _ | .measured (.roundTrip ..) _ => false
  | .measured _ .count => true
  | .measured _ _ => false
  | _ => true

/-- Whether an effect is regular and belongs to no statistic. -/
def unbooked (e : Effect) : Bool :=
  e.regular && match e with
    | .measured series _ => (Statistic.of? series).isNone
    | _ => true

variable {network : NetworkId} {l : List Effect} {e : Effect}

theorem regular_of_unbooked (h : e.unbooked = true) : e.regular = true :=
  (Bool.and_eq_true_iff.1 h).1

theorem measures_of_unbooked (h : e.unbooked = true) (network : NetworkId) (x : Statistic) :
    e.measures (x.series network) = false := by
  cases e with
  | measured series change =>
    refine decide_eq_false fun hm => ?_
    have hnone : (Statistic.of? series).isNone = true := (Bool.and_eq_true_iff.1 h).2
    rw [Statistic.of?_of_mem hm] at hnone
    cases hnone
  | _ => rfl

theorem countP_of_unbooked (h : ∀ e ∈ l, e.unbooked = true) {network : NetworkId}
    {x : Statistic} : l.countP (measures (x.series network)) = 0 :=
  List.countP_eq_zero.2 fun e he => Bool.eq_false_iff.1 (measures_of_unbooked (h e he) network x)

theorem measures_measured (series : List Series) (s : Series) (change : Change) :
    measures series (.measured s change) = decide (s ∈ series) := rfl

/-- What goes up by one with each measurement of a series counts them. -/
theorem foldl_read_add {size : Option Reading → Nat} {series : Series}
    (h : ∀ change r, .measured series change ∈ l →
      size (some (Reading.update r change)) = size r + 1) (r : Option Reading) :
    size (l.foldl (read series) r) = size r + l.countP (measures [series]) := by
  induction l generalizing r with
  | nil => rfl
  | cons e rest ih =>
    have hread : size (read series r e) = size r + if measures [series] e then 1 else 0 := by
      cases e with
      | measured s change =>
        rw [measures_measured]
        by_cases hs : s = series
        · subst hs
          rw [decide_eq_true (List.mem_singleton.2 rfl), if_pos rfl,
            ← h change r List.mem_cons_self]
          exact congrArg size (if_pos rfl)
        · rw [decide_eq_false (mt List.mem_singleton.1 hs), if_neg Bool.false_ne_true]
          exact congrArg size (if_neg hs)
      | _ => rfl
    rw [List.foldl_cons, ih fun change r hm => h change r (List.mem_cons_of_mem e hm), hread,
      List.countP_cons]
    omega

theorem countP_measures_cons {s : Series} {rest : List Series} (hs : s ∉ rest) (l : List Effect) :
    l.countP (measures (s :: rest)) = l.countP (measures [s]) + l.countP (measures rest) := by
  induction l with
  | nil => rfl
  | cons e l ih =>
    have hone : (if measures (s :: rest) e then 1 else 0) =
        (if measures [s] e then 1 else 0) + if measures rest e then 1 else 0 := by
      cases e with
      | measured s' change =>
        rw [measures_measured, measures_measured, measures_measured]
        by_cases h : s' = s
        · subst h
          simp [hs]
        · simp [h]
      | _ => rfl
    rw [List.countP_cons, List.countP_cons, List.countP_cons]
    omega

/-- The measurements of several series are those of each of them. -/
theorem countP_measures {series : List Series} (hd : series.Nodup) (l : List Effect) :
    l.countP (measures series) = total (fun s => l.countP (measures [s])) series := by
  induction series with
  | nil =>
    refine List.countP_eq_zero.2 fun e _ => ?_
    cases e <;> exact Bool.false_ne_true
  | cons s rest ih =>
    obtain ⟨hs, hd⟩ := List.nodup_cons.1 hd
    rw [total_cons, ← ih hd, countP_measures_cons hs]

end Effect

namespace Statistic

/-- What the reading of one of its series says about a statistic. -/
def size : Statistic → Option Reading → Nat
  | .samples _, r => (Reading.spans r).length
  | _, r => Reading.count r

/-- A regular measurement counts as one. -/
theorem size_update {network : NetworkId} (x : Statistic) {series : Series} {change : Change}
    (hm : series ∈ x.series network) (hr : Effect.regular (.measured series change) = true)
    (r : Option Reading) : x.size (some (Reading.update r change)) = x.size r + 1 := by
  cases x with
  | samples c =>
    obtain rfl := List.mem_singleton.1 hm
    cases change with
    | time d => exact Reading.length_spans_update r d
    | count | level => cases hr
  | failed =>
    obtain ⟨label, -, rfl⟩ := List.mem_map.1 hm
    cases change with
    | count => exact Reading.count_update r
    | level | time => cases hr
  | _ =>
    obtain rfl := List.mem_singleton.1 hm
    cases change with
    | count => exact Reading.count_update r
    | level | time => cases hr

end Statistic

/-- Whether the number of pending requests is measured at the end of an operation. -/
def Operation.measuresDepth : Operation → Bool
  | .pumpAll .. | .tick .. | .shutdown .. => true
  | _ => false

namespace Station

/-- What the books of a station say about a statistic. -/
def booked (s : Station τ) : Statistic → Nat
  | .inbound kind => s.tally.inbound.of kind
  | .capped => s.tally.droppedAgentCap
  | .broadcasts kind => s.tally.broadcasts.of kind
  | .retries => s.tally.retries
  | .acked => s.tally.acked
  | .cancelled => s.tally.cancelled
  | .failed => s.tally.failed
  | .samples c => ((s.estimator.estimate? c).map Estimate.samples).getD 0

/-- What the measurements of a station say about a statistic. -/
def exported (s : Station τ) (x : Statistic) : Nat :=
  total (fun series => x.size (s.reading? series)) (x.series s.id)

theorem booked_congr {s s' : Station τ} (ht : s'.tally = s.tally)
    (he : s'.estimator = s.estimator) (x : Statistic) : s'.booked x = s.booked x := by
  unfold booked
  rw [ht, he]

/-- Regular measurements add to a statistic what is measured in its series. -/
theorem exported_of_log {s s' : Station τ} {effects : List Effect}
    (hs : s'.settings = s.settings) (hl : s'.log = s.log ++ effects)
    (hr : ∀ e ∈ effects, e.regular = true) (x : Statistic) :
    s'.exported x = s.exported x + effects.countP (Effect.measures (x.series s.id)) := by
  have hid : s'.id = s.id := congrArg NetworkSettings.id hs
  have hone : ∀ series ∈ x.series s.id, x.size (s'.reading? series) =
      x.size (s.reading? series) + effects.countP (Effect.measures [series]) := by
    intro series hm
    rw [reading?_of_log hl]
    exact Effect.foldl_read_add (fun change r he => x.size_update hm (hr _ he) r) _
  unfold exported
  rw [hid, total_congr hone, total_add, Effect.countP_measures (x.nodup_series s.id)]

/-! ### Acts that measure what they book -/

/-- A change in which all that is entered in the books is measured, and nothing else is. -/
structure Booked (s s' : Station τ) : Prop where
  settings : s'.settings = s.settings
  measured : ∃ effects, s'.log = s.log ++ effects ∧ (∀ e ∈ effects, e.regular = true) ∧
    ∀ x, s'.booked x = s.booked x + effects.countP (Effect.measures (x.series s.id))

/-- Books and measurements that agree before such a change do so after it. -/
theorem Booked.agree {s s' : Station τ} (h : Booked s s') (ha : ∀ x, s.exported x = s.booked x)
    (x : Statistic) : s'.exported x = s'.booked x := by
  obtain ⟨effects, hl, hr, hb⟩ := h.measured
  rw [exported_of_log h.settings hl hr, hb, ha]

theorem Booked.trans {s t u : Station τ} (h : Booked s t) (h' : Booked t u) : Booked s u where
  settings := h'.settings.trans h.settings
  measured := by
    obtain ⟨l, hl, hr, hb⟩ := h.measured
    obtain ⟨m, hm, hr', hb'⟩ := h'.measured
    have hid : t.id = s.id := congrArg NetworkSettings.id h.settings
    refine ⟨l ++ m, ?_, List.forall_mem_append.2 ⟨hr, hr'⟩, fun x => ?_⟩
    · rw [hm, hl, List.append_assoc]
    · rw [hb', hb, hid, List.countP_append, Nat.add_assoc]

/-! ### Changes of which the books know nothing -/

section Acts

variable {s s' : Station τ} {now : Instant}

theorem Booked.of_unbooked {effects : List Effect} (hs : s'.settings = s.settings)
    (hb : ∀ x, s'.booked x = s.booked x) (hl : s'.log = s.log ++ effects)
    (he : ∀ e ∈ effects, e.unbooked = true) : Booked s s' where
  settings := hs
  measured := by
    refine ⟨effects, hl, fun e hm => Effect.regular_of_unbooked (he e hm), fun x => ?_⟩
    rw [hb, Effect.countP_of_unbooked he, Nat.add_zero]

theorem Booked.refl (s : Station τ) : Booked s s :=
  .of_unbooked rfl (fun _ => rfl) (List.append_nil _).symm (List.forall_mem_nil _)

/-- A change of what is neither booked nor measured. -/
theorem Booked.of_silent (hs : s'.settings = s.settings) (ht : s'.tally = s.tally)
    (he : s'.estimator = s.estimator) (hl : s'.log = s.log) : Booked s s' :=
  .of_unbooked hs (booked_congr ht he) (hl.trans (List.append_nil _).symm) (List.forall_mem_nil _)

theorem booked_emit (s : Station τ) {e : Effect} (h : e.unbooked = true) : Booked s (s.emit e) :=
  .of_unbooked rfl (fun _ => rfl) rfl (List.forall_mem_singleton.2 h)

theorem booked_setBacklog (s : Station τ) (agent : AgentId) (b : Backlog) :
    Booked s (s.setBacklog agent b) := .of_silent rfl rfl rfl rfl

theorem booked_deliver (s : Station τ) (l : List Finished) : Booked s (s.deliver l) := by
  refine .of_unbooked rfl (fun _ => rfl) rfl fun e he => ?_
  obtain ⟨f, -, rfl⟩ := List.mem_map.1 he
  rfl

theorem booked_register (s : Station τ) (agent : AgentId) : Booked s (s.register agent) := by
  unfold register
  split
  · exact .refl s
  · exact .of_unbooked rfl (fun _ => rfl) rfl (List.forall_mem_singleton.2 rfl)

theorem booked_flagged (s : Station τ) (m : Message) : Booked s (s.flagged m) := by
  unfold flagged
  split
  · exact .refl s
  · exact .of_silent rfl rfl rfl rfl

/-- The tidings measure the number of agents online, which is in no book. -/
theorem unbooked_tidings (network : NetworkId) (online : Nat) (l : List PresenceChange) :
    ∀ e ∈ l.flatMap (tidings network online), e.unbooked = true := by
  intro e he
  obtain ⟨c, -, hc⟩ := List.mem_flatMap.1 he
  rcases List.mem_cons.1 hc with rfl | hc
  · rfl
  · rw [List.mem_singleton.1 hc]
    rfl

theorem booked_observed (s : Station τ) (m : Message) (now : Instant) :
    Booked s (s.observed m now) := by
  unfold observed
  split
  · exact .of_silent rfl rfl rfl rfl
  · rename_i c _
    rw [announce_eq]
    refine .of_unbooked rfl (fun _ => rfl) rfl fun e he => ?_
    exact unbooked_tidings s.id _ [c] e (by rwa [List.flatMap_singleton])

theorem booked_swept [Walk] (s : Station τ) (now : Instant) : Booked s (s.swept now) := by
  rw [swept_eq]
  exact .of_unbooked rfl (fun _ => rfl) rfl (unbooked_tidings _ _ _)

theorem booked_unmatched (s : Station τ) : Booked s s.unmatched :=
  .of_unbooked rfl (fun x => by cases x <;> rfl) (List.append_nil _).symm (List.forall_mem_nil _)

theorem booked_rateLimited (s : Station τ) : Booked s (rateLimited s).2 :=
  .of_unbooked rfl (fun x => by cases x <;> rfl) (List.append_nil _).symm (List.forall_mem_nil _)

/-! ### Changes that are booked -/

/-- Which of the statistics a series belongs to. -/
theorem mem_series_iff {network : NetworkId} {x₀ : Statistic} {series : Series}
    (h : series ∈ x₀.series network) (x : Statistic) : series ∈ x.series network ↔ x = x₀ :=
  ⟨fun hx => Option.some.inj ((Statistic.of?_of_mem hx).symm.trans (Statistic.of?_of_mem h)),
    fun hx => hx ▸ h⟩

/-- One thing is entered in the books as often as it is measured. -/
theorem Booked.of_times (x₀ : Statistic) (n : Nat) (before after : List Effect) {series : Series}
    {change : GroundControl.Change} (hs : s'.settings = s.settings) (hm : series ∈ x₀.series s.id)
    (hb : ∀ x, s'.booked x = s.booked x + if x = x₀ then n else 0)
    (hl : s'.log = s.log ++ (before ++ (List.replicate n (.measured series change) ++ after)))
    (hr : Effect.regular (.measured series change) = true)
    (hbefore : ∀ e ∈ before, e.unbooked = true) (hafter : ∀ e ∈ after, e.unbooked = true) :
    Booked s s' where
  settings := hs
  measured := by
    refine ⟨_, hl, List.forall_mem_append.2 ⟨fun e he => Effect.regular_of_unbooked (hbefore e he),
      List.forall_mem_append.2 ⟨fun e he => List.eq_of_mem_replicate he ▸ hr,
        fun e he => Effect.regular_of_unbooked (hafter e he)⟩⟩, fun x => ?_⟩
    have hone : (Effect.measures (x.series s.id) (.measured series change) = true) ↔ x = x₀ :=
      decide_eq_true_iff.trans (mem_series_iff hm x)
    rw [hb, List.countP_append, List.countP_append, Effect.countP_of_unbooked hbefore,
      Effect.countP_of_unbooked hafter, List.countP_replicate, if_congr hone rfl rfl,
      Nat.zero_add, Nat.add_zero]

theorem Booked.of_one (x₀ : Statistic) {series : Series} {change : GroundControl.Change}
    (hs : s'.settings = s.settings) (hm : series ∈ x₀.series s.id)
    (hb : ∀ x, s'.booked x = s.booked x + if x = x₀ then 1 else 0)
    (hl : s'.log = s.log ++ [.measured series change])
    (hr : Effect.regular (.measured series change) = true) : Booked s s' :=
  .of_times x₀ 1 [] [] hs hm hb hl hr (List.forall_mem_nil _) (List.forall_mem_nil _)

theorem booked_counted (s : Station τ) (m : Message) : Booked s (s.counted m) := by
  refine .of_one (.inbound m.kind) rfl (List.mem_singleton.2 rfl) (fun x => ?_) rfl rfl
  cases x with
  | inbound kind =>
    show (s.tally.inbound.record m.kind).of kind = _
    rw [InboundTally.of_record]
    simp only [Statistic.inbound.injEq]
    split <;> rfl
  | _ => rfl

theorem booked_dropCapped (s : Station τ) : Booked s s.dropCapped := by
  refine .of_one .capped rfl (List.mem_singleton.2 rfl) (fun x => ?_) rfl rfl
  cases x <;> rfl

theorem booked_heard (s : Station τ) (m : Message) (now : Instant) : Booked s (s.heard m now) := by
  unfold heard
  rw [hear_eq]
  exact (((booked_register s m.agent).trans (booked_counted _ m)).trans
    (booked_flagged _ m)).trans (booked_observed _ m now)

/-- A message that answers no request. -/
theorem booked_unanswered (s : Station τ) (m : Message) (now : Instant) :
    Booked s (s.unanswered m now) := by
  unfold unanswered
  split
  · exact booked_emit s rfl
  · split
    · exact booked_dropCapped s
    · split
      · exact booked_heard s m now
      · exact (booked_heard s m now).trans (booked_unmatched _)

/-- A round-trip time is taken in and measured. -/
theorem booked_sampled (s : Station τ) {measured : Option (TrafficClass × Span)}
    {estimator : Estimator TrafficClass} (h : Sampled s.estimator measured estimator) :
    Booked s (s.sampled measured estimator) := by
  cases measured with
  | none => exact .of_silent rfl rfl h (List.append_nil _)
  | some x =>
    obtain ⟨c, d⟩ := x
    refine .of_one (.samples c) rfl (List.mem_singleton.2 rfl) (fun x => ?_) rfl rfl
    cases x with
    | samples c' =>
      simp only [Statistic.samples.injEq]
      exact Estimator.samples_of_sample h c'
    | _ => rfl

theorem concluded_cons (s : Station τ) (f : Finished) (rest : List Finished) (now : Instant) :
    s.concluded (f :: rest) now = (s.concluded [f] now).concluded rest now := by
  unfold concluded id
  simp only [List.foldl_cons, List.foldl_nil, List.map_cons, List.map_nil, List.flatMap_cons,
    List.flatMap_nil, List.append_assoc, List.cons_append, List.nil_append, List.append_nil]

/-- A finished request is booked and measured as the same thing, since it did not fail for having
been withdrawn. -/
theorem booked_concluded_one {f : Finished} (h : f.Fits) (s : Station τ) (now : Instant) :
    Booked s (s.concluded [f] now) := by
  have hp : f.phase = f.outcome.phase := h
  have hone : ∀ x₀ : Statistic,
      .commands s.id (outcomeLabel f.phase) ∈ x₀.series s.id →
      (∀ x, (s.concluded [f] now).booked x = s.booked x + if x = x₀ then 1 else 0) →
        Booked s (s.concluded [f] now) := fun x₀ hm hb =>
    .of_times x₀ 1 [] [.published (f.event s.id)] rfl hm hb rfl rfl
      (List.forall_mem_nil _) (List.forall_mem_singleton.2 rfl)
  have hbooked : ∀ x, (s.concluded [f] now).booked x =
      ({ s with tally := s.tally.recordFinished f.phase } : Station τ).booked x :=
    booked_congr rfl rfl
  rw [hp] at hone hbooked
  cases ho : f.outcome with
  | success =>
    rw [ho] at hone hbooked
    exact hone .acked (List.mem_singleton.2 rfl) fun x => (hbooked x).trans (by cases x <;> rfl)
  | failure cause =>
    rw [ho] at hone hbooked
    have hlabel : cause ≠ .cancelled → cause.label ∈ failureLabels := by
      cases cause <;> decide
    cases cause with
    | cancelled =>
      exact hone .cancelled (List.mem_singleton.2 rfl) fun x =>
        (hbooked x).trans (by cases x <;> rfl)
    | _ =>
      exact hone .failed (List.mem_map_of_mem (hlabel nofun)) fun x =>
        (hbooked x).trans (by cases x <;> rfl)

theorem booked_concluded {l : List Finished} (hf : ∀ f ∈ l, f.Fits) (s : Station τ)
    (now : Instant) : Booked s (s.concluded l now) := by
  induction l generalizing s with
  | nil => exact .of_silent rfl rfl rfl (List.append_nil _)
  | cons f rest ih =>
    obtain ⟨hfits, hrest⟩ := List.forall_mem_cons.1 hf
    rw [concluded_cons]
    exact (booked_concluded_one hfits s now).trans (ih hrest _)

theorem booked_answered {agent : AgentId} {b : Backlog} {found : Match}
    {estimator : Estimator TrafficClass} (hf : found.finished.Fits)
    (he : Sampled s.estimator found.sample estimator) (now : Instant) :
    Booked s (s.answered agent b found estimator now) :=
  (((booked_setBacklog s agent b).trans (booked_deliver _ [found.finished])).trans
    (booked_sampled _ he)).trans (booked_concluded (List.forall_mem_singleton.2 hf) _ now)

/-- The retries of a pass are entered at once, and measured one by one. -/
theorem booked_pumped {agent : AgentId} {p : Pass τ} (hf : ∀ f ∈ p.finished, f.Fits)
    (s : Station τ) (now : Instant) : Booked s (s.pumped agent p now) := by
  have hretried : Booked s ((s.book agent p).retried p.retries) := by
    have hlog : ((s.book agent p).retried p.retries).log = s.log ++
        ((p.frames.map fun f => .sent f.1 f.2) ++
          (p.finished.map fun f => .delivered f.ticket f.outcome) ++
            (List.replicate p.retries (.measured (.retries s.id) .count) ++ [])) := by
      simp only [List.append_nil, ← List.append_assoc]
      rfl
    refine .of_times .retries p.retries _ [] rfl (List.mem_singleton.2 rfl) (fun x => ?_) hlog rfl
      ?_ (List.forall_mem_nil _)
    · cases x <;> rfl
    · refine List.forall_mem_append.2 ⟨fun e he => ?_, fun e he => ?_⟩
      · obtain ⟨f, -, rfl⟩ := List.mem_map.1 he
        rfl
      · obtain ⟨f, -, rfl⟩ := List.mem_map.1 he
        rfl
  exact hretried.trans (booked_concluded hf _ now)

theorem booked_evicted {a : Agent} (hf : ∀ f ∈ (dissolved a).1, f.Fits) (s : Station τ)
    (agent : AgentId) (now : Instant) : Booked s (s.evicted agent a now) := by
  have hrefused : Booked s { s with refusals := s.refusals ++ (dissolved a).2 } :=
    .of_silent rfl rfl rfl rfl
  have hforgotten : ∀ t : Station τ, Booked t (t.forgotten agent) := fun t =>
    .of_unbooked rfl (fun _ => rfl) rfl (List.forall_mem_singleton.2 rfl)
  exact ((hrefused.trans (booked_deliver _ _)).trans (booked_concluded hf _ now)).trans
    (hforgotten _)

theorem booked_forM_evict {l : List (AgentId × Agent)}
    (hf : ∀ e ∈ l, ∀ f ∈ (dissolved e.2).1, f.Fits)
    (h : l.forM (fun e => evict e.1 e.2 now) s = .ok () s') : Booked s s' := by
  induction l generalizing s with
  | nil => exact Act.forM_nil_eq_ok.1 h ▸ .refl s
  | cons e rest ih =>
    obtain ⟨hfirst, hrest⟩ := List.forall_mem_cons.1 hf
    obtain ⟨s₁, he, hr⟩ := Act.forM_cons_eq_ok.1 h
    obtain ⟨-, rfl⟩ := evict_eq_ok.1 he
    exact (booked_evicted hfirst s e.1 now).trans (ih hrest hr)

theorem booked_deregister (hs : s.Sound) {agent : AgentId} {result : Except DispatchError Unit}
    (h : deregister agent now s = .ok result s') : Booked s s' := by
  cases ha : s.agents.get? agent with
  | none =>
    rw [deregister_of_unknown ha, EStateM.Result.ok.injEq] at h
    exact h.2 ▸ .refl s
  | some a =>
    obtain ⟨-, -, rfl⟩ := (deregister_of_known ha).1 h
    have herased : Booked s { s with agents := s.agents.erase agent } := .of_silent rfl rfl rfl rfl
    exact herased.trans (booked_evicted (hs.fits_dissolved ha) _ agent now)

theorem booked_enqueue {request : RequestId} {agent : AgentId} {payload : Payload}
    {urgency : Urgency} {maxAttempts : Nat} {result : Except DispatchError Handle}
    (h : enqueue request agent payload urgency maxAttempts s = (result, s')) : Booked s s' := by
  unfold enqueue at h
  split at h
  · cases h
    exact .refl s
  · dsimp only at h
    split at h
    · cases h
      exact booked_setBacklog ..
    · cases h
      exact .of_silent rfl rfl rfl rfl

theorem booked_cancel (s : Station τ) (request : RequestId) : Booked s (cancel request s).2 := by
  unfold cancel
  split
  · exact .refl s
  · split
    · exact .refl s
    · exact booked_setBacklog ..

theorem booked_route (hs : s.Sound) {m : Message} {found : Option AgentId}
    (h : route m now s = .ok found s') : Booked s s' := by
  cases ha : s.answers m with
  | false =>
    rw [route_of_answers_eq_false ha, EStateM.Result.ok.injEq] at h
    exact h.2 ▸ booked_unanswered s m now
  | true =>
    obtain ⟨reply, b, r, found', b', -, -, hb, -, -, hans, hr⟩ := route_of_answers ha now
    obtain ⟨-, estimator, he, -, rfl⟩ := (hr found s').1 h
    have hfits := ((queueOf_of_backlogOf hb ▸ hs.settled m.agent).answer hans).2
    exact (booked_heard s m now).trans
      (booked_answered hfits ((estimator_heard s m now).symm ▸ he) now)

section Carrying

variable [Carrier τ]

theorem booked_pump (hs : s.Sound) {agent : AgentId} (h : pump agent now s = .ok () s') :
    Booked s s' := by
  rcases pump_eq_ok.1 h with ⟨-, rfl⟩ | ⟨b, p, hb, hp, -, rfl⟩
  · exact .refl s'
  · exact booked_pumped (transfer_pumped hs hb hp).2.fits s now

theorem booked_forM_pump (hs : s.Sound) {l : List AgentId}
    (h : l.forM (pump · now) s = .ok () s') : Booked s s' := by
  induction l generalizing s with
  | nil => exact Act.forM_nil_eq_ok.1 h ▸ .refl s
  | cons agent rest ih =>
    obtain ⟨s₁, hp, hr⟩ := Act.forM_cons_eq_ok.1 h
    exact (booked_pump hs hp).trans (ih (sound_pump hs hp) hr)

theorem booked_deliverInbound (hs : s.Sound) {m : Message}
    (h : deliverInbound m now s = .ok () s') : Booked s s' := by
  obtain ⟨found, s₁, hr, hp⟩ := Act.bind_eq_ok.1 h
  have hroute := booked_route hs hr
  cases found with
  | none =>
    cases hp
    exact hroute
  | some agent => exact hroute.trans (booked_pump ((moves_route hr).1.transfer hs).1 hp)

theorem booked_submit (hs : s.Sound) {request : RequestId} {agent : AgentId} {payload : Payload}
    {urgency : Urgency} {maxAttempts : Nat} {result : Except DispatchError Handle}
    (h : submit request agent payload urgency maxAttempts now s = .ok result s') :
    Booked s s' := by
  obtain ⟨s₁, he, hp⟩ := submit_eq_ok.1 h
  have hqueued := booked_enqueue he
  rcases hp with ⟨-, rfl⟩ | ⟨-, hp⟩
  · exact hqueued
  · have hc : Course now _ s s₁ := course_enqueue he
    exact hqueued.trans (booked_pump (hc.moves.transfer hs).1 hp)

theorem booked_transmitAll (s : Station τ) (bulletin : Bulletin) :
    Booked s (transmitAll bulletin s).2 := by
  unfold transmitAll
  dsimp only
  split
  · exact .of_unbooked rfl (fun _ => rfl) rfl (List.forall_mem_singleton.2 rfl)
  · refine .of_times (.broadcasts bulletin.kind) 1 [.sent _ _] [] rfl (List.mem_singleton.2 rfl)
      (fun x => ?_) (List.append_assoc ..) rfl (List.forall_mem_singleton.2 rfl)
      (List.forall_mem_nil _)
    cases x with
    | broadcasts kind =>
      show (s.tally.broadcasts.record bulletin.kind).of kind = _
      rw [BroadcastTally.of_record]
      simp only [Statistic.broadcasts.injEq]
      split <;> rfl
    | _ => rfl

theorem booked_tryBroadcast {bulletin : Bulletin} {deadline : Instant} {attempt : Attempt Unit}
    (h : tryBroadcast bulletin deadline now s = .ok attempt s') : Booked s s' := by
  obtain ⟨throttle, -, hs⟩ := tryBroadcast_cases h
  have hpaid : Booked s { s with throttle } := .of_silent rfl rfl rfl rfl
  rcases hs with rfl | rfl | rfl
  · exact hpaid.trans (booked_transmitAll _ bulletin)
  · exact hpaid.trans (booked_rateLimited _)
  · exact hpaid

theorem booked_broadcastRounds {wake : Instant → Instant} {bulletin : Bulletin}
    {deadline : Instant} {n : Nat} {answer : Except DispatchError Unit × Instant}
    (h : broadcastRounds wake bulletin deadline n now s = .ok answer s') : Booked s s' := by
  induction n generalizing s now with
  | zero =>
    cases h
    exact booked_rateLimited s
  | succ n ih =>
    unfold broadcastRounds at h
    obtain ⟨attempt, s₁, ht, h⟩ := Act.bind_eq_ok.1 h
    have htried := booked_tryBroadcast ht
    cases attempt with
    | done answer =>
      cases h
      exact htried
    | wait ready => exact htried.trans (ih h)

theorem booked_correction {wake : Instant → Instant} {bulletin : Bulletin} {skipIfIdle : Bool}
    {deadline : Instant} {answer : Except DispatchError Bool × Instant}
    (h : correction wake bulletin skipIfIdle deadline now s = .ok answer s') : Booked s s' := by
  unfold correction at h
  rw [Act.get_bind] at h
  split at h
  · obtain ⟨answer, s₂, hb, h⟩ := Act.bind_eq_ok.1 h
    cases h
    exact booked_broadcastRounds hb
  · cases h
    exact .refl s

/-- Every operation measures what it books, and at the end of some the number of pending requests is
measured besides. -/
theorem perform_booked (hs : s.Sound) {operation : Operation} {response : Result}
    (h : perform operation s = .ok response s') :
    ∃ s₁, Booked s s₁ ∧ s' =
      if operation.measuresDepth then s₁.level (.queueDepth s₁.id) s'.queueDepth else s₁ := by
  have hpumpAll : ∀ {walk : Walk} {now : Instant} {t : Station τ}, t.Sound →
      pumpAll now t = .ok () s' →
        ∃ s₁, Booked t s₁ ∧ s' = s₁.level (.queueDepth s₁.id) s'.queueDepth := by
    intro walk now t ht hp
    obtain ⟨s₁, hf, rfl⟩ := pumpAll_eq_ok.1 hp
    have hexpired : Booked s₁ (s₁.expireResults now) := .of_silent rfl rfl rfl rfl
    exact ⟨s₁.expireResults now, (booked_forM_pump ht hf).trans hexpired, rfl⟩
  cases operation with
  | deliver m now =>
    obtain ⟨⟨⟩, hd, rfl⟩ := Act.bind_pure_eq_ok.1 h
    exact ⟨s', booked_deliverInbound hs hd, rfl⟩
  | route m now =>
    obtain ⟨found, hr, rfl⟩ := Act.bind_pure_eq_ok.1 h
    exact ⟨s', booked_route hs hr, rfl⟩
  | submit request agent payload urgency maxAttempts now =>
    obtain ⟨result, hsub, rfl⟩ := Act.bind_pure_eq_ok.1 h
    exact ⟨s', booked_submit hs hsub, rfl⟩
  | enqueue request agent payload urgency maxAttempts =>
    obtain ⟨result, he, rfl⟩ := Act.bind_pure_eq_ok.1 h
    exact ⟨s', booked_enqueue (Act.modifyGet_eq_ok.1 he), rfl⟩
  | pump agent now =>
    obtain ⟨⟨⟩, hp, rfl⟩ := Act.bind_pure_eq_ok.1 h
    exact ⟨s', booked_pump hs hp, rfl⟩
  | pumpAll walk now =>
    obtain ⟨⟨⟩, hp, rfl⟩ := Act.bind_pure_eq_ok.1 h
    exact hpumpAll hs hp
  | sweep walk now =>
    obtain ⟨changes, hsw, rfl⟩ := Act.bind_pure_eq_ok.1 h
    cases hsw
    exact ⟨_, booked_swept s now, rfl⟩
  | tick walk now =>
    obtain ⟨⟨⟩, ht, rfl⟩ := Act.bind_pure_eq_ok.1 h
    rw [tick_eq] at ht
    obtain ⟨s₁, hb, hl⟩ := hpumpAll (hs.of_queueOf (quiet_swept s now).queue) ht
    exact ⟨s₁, (booked_swept s now).trans hb, hl⟩
  | broadcast wake bulletin deadline now =>
    obtain ⟨answer, hb, rfl⟩ := Act.bind_pure_eq_ok.1 h
    exact ⟨s', booked_broadcastRounds hb, rfl⟩
  | correction wake bulletin skipIfIdle deadline now =>
    obtain ⟨answer, hb, rfl⟩ := Act.bind_pure_eq_ok.1 h
    exact ⟨s', booked_correction hb, rfl⟩
  | cancel request =>
    obtain ⟨found, hc, rfl⟩ := Act.bind_pure_eq_ok.1 h
    cases hc
    exact ⟨_, booked_cancel s request, rfl⟩
  | deregister agent now =>
    obtain ⟨result, hd, rfl⟩ := Act.bind_pure_eq_ok.1 h
    exact ⟨s', booked_deregister hs hd, rfl⟩
  | shutdown walk now =>
    obtain ⟨⟨⟩, hsh, rfl⟩ := Act.bind_pure_eq_ok.1 h
    have hnone := agents_shutdown hsh
    obtain ⟨s₁, hf, rfl⟩ := shutdown_eq_ok.1 hsh
    have hcleared : Booked s { s with agents := ∅ } := .of_silent rfl rfl rfl rfl
    refine ⟨s₁, hcleared.trans (booked_forM_evict
      (fun e he => hs.fits_dissolved (Walk.mem_entries_iff.1 he)) hf), ?_⟩
    have hzero : s₁.queueDepth = 0 := by
      have hagents : s₁.agents = ∅ := hnone
      unfold queueDepth
      rw [hagents]
      rfl
    exact congrArg (s₁.level (.queueDepth s₁.id)) hzero.symm
  | adoptEpoch epoch =>
    cases h
    exact ⟨s.adoptEpoch epoch, .of_silent rfl rfl rfl rfl, rfl⟩

end Carrying

end Acts

/-! ### The number of pending requests -/

/-- What was last measured of the number of pending requests. -/
def depthGauge (s : Station τ) : Option Reading := s.reading? (.queueDepth s.id)

/-- What is booked and measured leaves the measured number of pending requests as it is. -/
theorem Booked.depthGauge {s s' : Station τ} (h : Booked s s') : s'.depthGauge = s.depthGauge := by
  obtain ⟨effects, hl, hr, -⟩ := h.measured
  have hid : s'.id = s.id := congrArg NetworkSettings.id h.settings
  have hnone : effects.filter (Effect.measures [.queueDepth s.id]) = [] := by
    refine List.filter_eq_nil_iff.2 fun e he hm => ?_
    have hregular := hr e he
    cases e with
    | measured series change =>
      obtain rfl := List.mem_singleton.1 (of_decide_eq_true hm)
      cases hregular
    | _ => cases hm
  unfold Station.depthGauge
  rw [hid, reading?_of_log hl, ← Effect.foldl_read_filter (p := Effect.measures [.queueDepth s.id])
    (fun change => decide_eq_true (List.mem_singleton.2 rfl)), hnone]
  rfl

theorem reading?_level (s : Station τ) (n : Nat) (series : Series) :
    (s.level (.queueDepth s.id) n).reading? series =
      if .queueDepth s.id = series then some (.level n) else s.reading? series := by
  have hread : (s.level (.queueDepth s.id) n).reading? series =
      [Effect.measured (.queueDepth s.id) (.level n)].foldl (Effect.read series)
        (s.reading? series) := reading?_of_log rfl series
  rw [hread, ← Reading.update_level (s.reading? series) n]
  rfl

theorem depthGauge_level (s : Station τ) (n : Nat) :
    (s.level (.queueDepth s.id) n).depthGauge = some (.level n) :=
  (reading?_level s n (.queueDepth s.id)).trans (if_pos rfl)

/-- Measuring the number of pending requests leaves all else that is measured as it is. -/
theorem exported_level (s : Station τ) (n : Nat) (x : Statistic) :
    (s.level (.queueDepth s.id) n).exported x = s.exported x := by
  refine total_congr fun series hm => congrArg x.size ?_
  rw [reading?_level]
  refine if_neg fun he => ?_
  have := Statistic.of?_of_mem hm
  rw [← he] at this
  cases this

/-! ### A run -/

/-- What is exported agrees with the books. -/
structure Exported (s : Station τ) : Prop where
  inbound : ∀ kind, Reading.count (s.reading? (.inbound s.id kind)) = s.report.tally.inbound.of kind
  dropped : Reading.count (s.reading? (.dropped s.id .agentCap)) = s.report.tally.droppedAgentCap
  broadcasts : ∀ kind,
    Reading.count (s.reading? (.broadcasts s.id kind)) = s.report.tally.broadcasts.of kind
  retries : Reading.count (s.reading? (.retries s.id)) = s.report.tally.retries
  acked : Reading.count (s.reading? (.commands s.id "acked")) = s.report.tally.acked
  cancelled : Reading.count (s.reading? (.commands s.id "cancelled")) = s.report.tally.cancelled
  /-- whatever a request failed for, it is measured under another label and booked as failed -/
  failed : Reading.count (s.reading? (.commands s.id "timeout")) +
    Reading.count (s.reading? (.commands s.id "rejected")) +
    Reading.count (s.reading? (.commands s.id "agent_gone")) +
    Reading.count (s.reading? (.commands s.id "transport")) = s.report.tally.failed
  roundTrips : ∀ c, (Reading.spans (s.reading? (.roundTrip s.id c))).length =
    ((s.estimator.estimate? c).map Estimate.samples).getD 0

theorem exported_of_agree {s : Station τ} (h : ∀ x, s.exported x = s.booked x) : Exported s where
  inbound kind := h (.inbound kind)
  dropped := h .capped
  broadcasts kind := h (.broadcasts kind)
  retries := h .retries
  acked := h .acked
  cancelled := h .cancelled
  failed := by
    rw [Nat.add_assoc, Nat.add_assoc]
    exact h .failed
  roundTrips c := h (.samples c)

/-- What is exported after a step: all that is in the books, and the number of pending requests as
it was at the end of the last operation that measures it. -/
structure Shows (step : Step τ) : Prop where
  exported : Exported step.after
  depth : step.after.depthGauge =
    if step.operation.measuresDepth then some (.level step.after.report.queueDepth)
    else step.before.depthGauge
  cleared : ∀ walk now, step.operation = .shutdown walk now →
    step.after.depthGauge = some (.level 0)

section Run

variable [Carrier τ] {settings : NetworkSettings} {carrier : τ} {start : Instant}
  {operations : List Operation} {steps : List (Step τ)} {s : Station τ} {step : Step τ}

/-- Nobody is pending after a shutdown. -/
theorem queueDepth_of_shutdown {walk : Walk} {now : Instant}
    (ho : step.operation = .shutdown walk now)
    (hp : perform step.operation step.before = .ok step.response step.after) :
    step.after.queueDepth = 0 := by
  rw [ho] at hp
  obtain ⟨⟨⟩, hs, -⟩ := Act.bind_pure_eq_ok.1 hp
  unfold queueDepth
  rw [agents_shutdown hs]
  rfl

/-- Books and measurements that agree before a step do so after it. -/
theorem shows_of_step (hs : step.before.Sound)
    (ha : ∀ x, step.before.exported x = step.before.booked x)
    (hp : perform step.operation step.before = .ok step.response step.after) :
    (∀ x, step.after.exported x = step.after.booked x) ∧ Shows step := by
  obtain ⟨s₁, hb, hafter⟩ := perform_booked hs hp
  have hs₁ := hb.agree ha
  have hagree : (∀ x, step.after.exported x = step.after.booked x) ∧ step.after.depthGauge =
      if step.operation.measuresDepth then some (.level step.after.report.queueDepth)
      else step.before.depthGauge := by
    cases hm : step.operation.measuresDepth with
    | false =>
      rw [hm, if_neg Bool.false_ne_true] at hafter
      rw [hafter]
      exact ⟨hs₁, hb.depthGauge⟩
    | true =>
      rw [hm, if_pos rfl] at hafter
      have hdepth : step.after.report.queueDepth = step.after.queueDepth := rfl
      rw [if_pos rfl, hdepth]
      generalize step.after.queueDepth = n at hafter
      rw [hafter]
      exact ⟨fun x => (exported_level s₁ n x).trans (hs₁ x), depthGauge_level s₁ n⟩
  refine ⟨hagree.1, exported_of_agree hagree.1, hagree.2, fun walk now ho => ?_⟩
  have hzero : step.after.report.queueDepth = 0 := queueDepth_of_shutdown ho hp
  rw [hagree.2, ho, hzero]
  rfl

/-- Whatever is asked of a station from its beginning on: after each operation the counters that are
exported agree with those in the books. -/
theorem measurements_agree (h : run operations (new settings carrier start) = .ok (steps, s)) :
    Exported s ∧ ∀ step ∈ steps, Shows step := by
  suffices s.Sound ∧ (∀ x, s.exported x = s.booked x) ∧ ∀ step ∈ steps, Shows step from
    ⟨exported_of_agree this.2.1, this.2.2⟩
  refine run_induction h
    (P := fun past s => s.Sound ∧ (∀ x, s.exported x = s.booked x) ∧ ∀ step ∈ past, Shows step)
    ⟨sound_new settings carrier start, fun x => ?_, List.forall_mem_nil _⟩ ?_
  · cases x with
    | inbound kind => cases kind <;> rfl
    | broadcasts kind => cases kind <;> rfl
    | _ => rfl
  · rintro past step - ⟨hs, ha, hpast⟩ hp
    obtain ⟨hagree, hshows⟩ := shows_of_step hs ha hp
    exact ⟨(perform_transfer hs hp).1, hagree,
      List.forall_mem_append.2 ⟨hpast, List.forall_mem_singleton.2 hshows⟩⟩

end Run

/-- One command is answered, and another one ends because its agent is removed. -/
theorem measurements_agree_answered :
    ∃ steps s, run [.route (.heartbeat "alpha" 1) 0,
        .submit 1 1 (.expecting [7] 3) .normal 0 10,
        .deliver (.accepted "alpha" 1 3) 30,
        .submit 2 1 (.expecting [8] 4) .normal 0 40,
        .pumpAll .ascending 50, .shutdown .ascending 60]
        (new { id := "alpha" } (Pipe.new "up" 4) 0) = .ok (steps, s) ∧
      Reading.count (s.reading? (.commands "alpha" "acked")) = 1 ∧
      Reading.count (s.reading? (.commands "alpha" "agent_gone")) = 1 ∧
      s.report.tally.failed = 1 ∧ s.depthGauge = some (.level 0) ∧
      Exported s ∧ ∀ step ∈ steps, Shows step := by
  have hrun : (run [.route (.heartbeat "alpha" 1) 0,
      .submit 1 1 (.expecting [7] 3) .normal 0 10,
      .deliver (.accepted "alpha" 1 3) 30,
      .submit 2 1 (.expecting [8] 4) .normal 0 40,
      .pumpAll .ascending 50, .shutdown .ascending 60]
      (new { id := "alpha" } (Pipe.new "up" 4) 0)).toOption.map
        (fun r => (Reading.count (r.2.reading? (.commands "alpha" "acked")),
          Reading.count (r.2.reading? (.commands "alpha" "agent_gone")), r.2.tally.failed,
          r.2.depthGauge)) = some (1, 1, 1, some (.level 0)) := by decide +kernel
  obtain ⟨steps, s, h, hread⟩ := exists_run_of_map hrun
  simp only [Prod.mk.injEq] at hread
  obtain ⟨hacked, hgone, hfailed, hdepth⟩ := hread
  exact ⟨steps, s, h, hacked, hgone, hfailed, hdepth, measurements_agree h⟩

end Station

end GroundControl
