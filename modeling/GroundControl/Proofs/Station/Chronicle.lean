import GroundControl.Proofs.Station.Transfer

/-!
# What subscribers are told of the agents

The events of a station come in an order from which subscribers can tell which agents are registered
and how each of them is doing: nobody is spoken of before it is registered or after it has left, and
each change of presence begins where the one before ended.

* `Event.enter`, `replay`: what subscribers make of the events;
* `Chronicle`, the orders in which a station may tell of its agents; `Chronicle.replay`, the roll of
  the agents at the end of one;
* `Story`, what may be told of one agent, round after round; `Chronicle.story`;
* `Station.roll`, the agents that were heard, with their presence; `Station.Manned`: they are the
  registered ones;
* `Recounts`, a change of a station whose events are a chronicle of it; `recounts_heard` and
  `recounts_swept`, for the two acts that tell of the presence of agents.
-/

namespace GroundControl

namespace Event

/-- What an event makes of the roll of the agents. -/
def enter (roll : Table AgentId Presence) : Event → Table AgentId Presence
  | .registered _ agent => roll.insert agent .unknown
  | .presence _ agent _ target => roll.insert agent target
  | .finished .. => roll
  | .evicted _ agent => roll.erase agent

/-- The agent that has left, if an event tells so. -/
def leaver? : Event → Option AgentId
  | .evicted _ agent => some agent
  | _ => none

end Event

/-- The roll of the agents after all these events. -/
def replay (events : List Event) : Table AgentId Presence := events.foldl Event.enter ∅

/-- The events about an agent. -/
def about (agent : AgentId) (events : List Event) : List Event :=
  events.filter fun event => event.agent = agent

theorem about_append (agent : AgentId) (l m : List Event) :
    about agent (l ++ m) = about agent l ++ about agent m :=
  List.filter_append ..

theorem about_of_eq (agent : AgentId) (event : Event) (h : event.agent = agent) (l : List Event) :
    about agent (event :: l) = event :: about agent l :=
  List.filter_cons_of_pos (decide_eq_true h)

theorem about_of_ne (agent : AgentId) (event : Event) (h : event.agent ≠ agent) (l : List Event) :
    about agent (event :: l) = about agent l :=
  List.filter_cons_of_neg (by rw [decide_eq_true_eq]; exact h)

/-! ### Chronicles -/

/-- The orders in which a station may tell of its agents, from one roll to another. -/
inductive Chronicle (network : NetworkId) :
    Table AgentId Presence → List Event → Table AgentId Presence → Prop
  | nil {roll : Table AgentId Presence} : Chronicle network roll [] roll
  /-- an agent that registers is heard at once -/
  | register {roll last : Table AgentId Presence} {agent : AgentId} {target : Presence}
      {events : List Event} (hnew : roll.get? agent = none) (ht : target ≠ .unknown)
      (h : Chronicle network (roll.insert agent target) events last) :
      Chronicle network roll
        (.registered network agent :: .presence network agent .unknown target :: events) last
  | change {roll last : Table AgentId Presence} {agent : AgentId} {source target : Presence}
      {events : List Event} (hs : roll.get? agent = some source) (hne : source ≠ target)
      (ht : target ≠ .unknown) (h : Chronicle network (roll.insert agent target) events last) :
      Chronicle network roll (.presence network agent source target :: events) last
  | finish {roll last : Table AgentId Presence} {agent : AgentId} {events : List Event}
      (request : RequestId) (phase : Phase) (outcome : Outcome)
      (hheld : roll.contains agent = true) (h : Chronicle network roll events last) :
      Chronicle network roll (.finished network agent request phase outcome :: events) last
  | evict {roll last : Table AgentId Presence} {agent : AgentId} {events : List Event}
      (hheld : roll.contains agent = true)
      (h : Chronicle network (roll.erase agent) events last) :
      Chronicle network roll (.evicted network agent :: events) last

/-- What may be told of one agent.  It is registered or it is not, and a registered one has the
presence that was told last. -/
inductive Story (network : NetworkId) (agent : AgentId) :
    Option Presence → List Event → Option Presence → Prop
  | nil {now : Option Presence} : Story network agent now [] now
  /-- a round begins -/
  | register {last : Option Presence} {target : Presence} {events : List Event}
      (ht : target ≠ .unknown) (h : Story network agent (some target) events last) :
      Story network agent none
        (.registered network agent :: .presence network agent .unknown target :: events) last
  | change {last : Option Presence} {source target : Presence} {events : List Event}
      (hne : source ≠ target) (ht : target ≠ .unknown)
      (h : Story network agent (some target) events last) :
      Story network agent (some source) (.presence network agent source target :: events) last
  | finish {last : Option Presence} {now : Presence} {events : List Event} (request : RequestId)
      (phase : Phase) (outcome : Outcome) (h : Story network agent (some now) events last) :
      Story network agent (some now) (.finished network agent request phase outcome :: events) last
  /-- a round ends -/
  | evict {last : Option Presence} {now : Presence} {events : List Event}
      (h : Story network agent none events last) :
      Story network agent (some now) (.evicted network agent :: events) last

namespace Chronicle

variable {network : NetworkId} {roll mid last : Table AgentId Presence} {events later : List Event}

theorem append (h : Chronicle network roll events mid) (h' : Chronicle network mid later last) :
    Chronicle network roll (events ++ later) last := by
  induction h with
  | nil => exact h'
  | register hnew ht _ ih => exact .register hnew ht (ih h')
  | change hs hne ht _ ih => exact .change hs hne ht (ih h')
  | finish request phase outcome hheld _ ih => exact .finish request phase outcome hheld (ih h')
  | evict hheld _ ih => exact .evict hheld (ih h')

/-- Who reads the events of a chronicle knows the roll at its end. -/
theorem foldl_enter (h : Chronicle network roll events last) :
    events.foldl Event.enter roll = last := by
  induction h with
  | nil => rfl
  | @register roll last agent target events hnew ht _ ih =>
    have hr : (roll.insert agent .unknown).insert agent target = roll.insert agent target := by
      refine Table.ext_get? fun other => ?_
      rw [Table.get?_insert, Table.get?_insert, Table.get?_insert]
      split <;> rfl
    show events.foldl Event.enter ((roll.insert agent .unknown).insert agent target) = last
    rw [hr]
    exact ih
  | change _ _ _ _ ih => exact ih
  | finish _ _ _ _ _ ih => exact ih
  | evict _ _ ih => exact ih

theorem replay (h : Chronicle network ∅ events last) : replay events = last := h.foldl_enter

/-- Who is registered is known to be there or not. -/
theorem known (h : Chronicle network roll events last)
    (hk : ∀ agent, roll.get? agent ≠ some .unknown) (agent : AgentId) :
    last.get? agent ≠ some .unknown := by
  have hinsert : ∀ {roll : Table AgentId Presence} (other : AgentId) {target : Presence},
      target ≠ .unknown → (∀ agent, roll.get? agent ≠ some .unknown) →
        ∀ agent, (roll.insert other target).get? agent ≠ some .unknown := by
    intro roll other target ht hk agent
    rw [Table.get?_insert]
    split
    · exact fun he => ht (Option.some.inj he)
    · exact hk agent
  induction h with
  | nil => exact hk agent
  | register _ ht _ ih => exact ih (hinsert _ ht hk)
  | change _ _ ht _ ih => exact ih (hinsert _ ht hk)
  | finish _ _ _ _ _ ih => exact ih hk
  | evict _ _ ih =>
    refine ih fun agent => ?_
    rw [Table.get?_erase]
    split
    · exact (Option.some_ne_none _).symm
    · exact hk agent

/-- What a chronicle tells of one agent. -/
theorem story (h : Chronicle network roll events last) (agent : AgentId) :
    Story network agent (roll.get? agent) (about agent events) (last.get? agent) := by
  induction h with
  | nil => exact .nil
  | @register roll last other target events hnew ht _ ih =>
    rw [Table.get?_insert] at ih
    by_cases ho : agent = other
    · subst ho
      rw [if_pos rfl] at ih
      rw [hnew, about_of_eq agent (.registered network agent) rfl,
        about_of_eq agent (.presence network agent .unknown target) rfl]
      exact .register ht ih
    · rw [if_neg ho] at ih
      rwa [about_of_ne agent (.registered network other) (Ne.symm ho),
        about_of_ne agent (.presence network other .unknown target) (Ne.symm ho)]
  | @change roll last other source target events hs hne ht _ ih =>
    rw [Table.get?_insert] at ih
    by_cases ho : agent = other
    · subst ho
      rw [if_pos rfl] at ih
      rw [hs, about_of_eq agent (.presence network agent source target) rfl]
      exact .change hne ht ih
    · rw [if_neg ho] at ih
      rwa [about_of_ne agent (.presence network other source target) (Ne.symm ho)]
  | @finish roll last other events request phase outcome hheld _ ih =>
    by_cases ho : agent = other
    · subst ho
      obtain ⟨presence, hp⟩ := Option.isSome_iff_exists.1 hheld
      rw [hp] at ih ⊢
      rw [about_of_eq agent (.finished network agent request phase outcome) rfl]
      exact .finish request phase outcome ih
    · rwa [about_of_ne agent (.finished network other request phase outcome) (Ne.symm ho)]
  | @evict roll last other events hheld _ ih =>
    rw [Table.get?_erase] at ih
    by_cases ho : agent = other
    · subst ho
      obtain ⟨presence, hp⟩ := Option.isSome_iff_exists.1 hheld
      rw [if_pos rfl] at ih
      rw [hp, about_of_eq agent (.evicted network agent) rfl]
      exact .evict ih
    · rw [if_neg ho] at ih
      rwa [about_of_ne agent (.evicted network other) (Ne.symm ho)]

/-- The ends of requests of registered agents leave the roll as it is. -/
theorem of_finished {ended : List Finished}
    (h : ∀ f ∈ ended, roll.contains f.agent = true) :
    Chronicle network roll (ended.map fun f => f.event network) roll := by
  induction ended with
  | nil => exact .nil
  | cons f rest ih =>
    obtain ⟨hf, hrest⟩ := List.forall_mem_cons.1 h
    exact .finish _ _ _ hf (ih hrest)

/-- Changes of presence, each of another agent. -/
theorem of_changes {changes : List PresenceChange}
    (hd : (changes.map PresenceChange.agent).Nodup)
    (h : ∀ c ∈ changes,
      roll.get? c.agent = some c.source ∧ c.source ≠ c.target ∧ c.target ≠ .unknown) :
    Chronicle network roll
      (changes.map fun c => .presence network c.agent c.source c.target)
      (changes.foldl (fun t c => t.insert c.agent c.target) roll) := by
  induction changes generalizing roll with
  | nil => exact .nil
  | cons c rest ih =>
    obtain ⟨hc, hd⟩ := List.nodup_cons.1 hd
    obtain ⟨⟨hs, hne, ht⟩, hrest⟩ := List.forall_mem_cons.1 h
    refine .change hs hne ht (ih hd fun d hm => ?_)
    -- the agents differ, so what is said of the next one still holds
    have hother : d.agent ≠ c.agent := fun he => hc (he ▸ List.mem_map_of_mem hm)
    rw [Table.get?_insert, if_neg hother]
    exact hrest d hm

end Chronicle

/-! ### What a station tells -/

/-- The events subscribers were told of. -/
def published (effects : List Effect) : List Event := effects.filterMap Effect.event?

theorem published_append (l m : List Effect) : published (l ++ m) = published l ++ published m :=
  List.filterMap_append

theorem published_eq_nil {l : List Effect} (h : ∀ e ∈ l, e.event? = none) : published l = [] :=
  List.filterMap_eq_nil_iff.2 h

theorem published_delivered (l : List Finished) :
    published (l.map fun f => .delivered f.ticket f.outcome) = [] := by
  refine published_eq_nil fun e he => ?_
  obtain ⟨f, -, rfl⟩ := List.mem_map.1 he
  rfl

namespace Station

variable {τ : Type}

theorem published_notices (network : NetworkId) (l : List Finished) :
    published (l.flatMap (notices network)) = l.map fun f => f.event network := by
  induction l with
  | nil => rfl
  | cons f rest ih => exact congrArg (f.event network :: ·) ih

/-- The agents that were heard, with their presence. -/
def roll (s : Station τ) : Table AgentId Presence := s.watch.sightings.mapVal (·.presence)

/-- The registered agents, and nobody else, have been heard. -/
structure Manned (s : Station τ) : Prop where
  heard : ∀ agent, s.roll.contains agent = s.agents.contains agent
  known : ∀ agent, s.roll.get? agent ≠ some .unknown

theorem presenceOf_eq_roll (s : Station τ) (agent : AgentId) :
    s.presenceOf agent = (s.roll.get? agent).getD .unknown := by
  unfold presenceOf Watch.presenceOf roll
  rw [Table.get?_mapVal]

theorem manned_new (settings : NetworkSettings) (carrier : τ) (now : Instant) :
    (new settings carrier now).Manned where
  heard _ := rfl
  known agent h := by
    have hn : (new settings carrier now).roll.get? agent = none := rfl
    rw [hn] at h
    cases h

/-- The roll tells which agents are registered, and the presence of each. -/
theorem Manned.roll_eq {s : Station τ} (h : s.Manned) :
    s.roll = s.agents.mapKeyed fun agent _ => s.presenceOf agent := by
  refine Table.ext_get? fun agent => ?_
  have hh := h.heard agent
  unfold Table.contains at hh
  rw [Table.get?_mapKeyed, presenceOf_eq_roll]
  cases hr : s.roll.get? agent with
  | none =>
    rw [hr, Option.isSome_none] at hh
    have ha : s.agents.get? agent = none :=
      Option.isNone_iff_eq_none.1 (Option.isSome_eq_false_iff.1 hh.symm)
    rw [ha]
    rfl
  | some presence =>
    rw [hr, Option.isSome_some] at hh
    obtain ⟨a, ha⟩ := Option.isSome_iff_exists.1 hh.symm
    rw [ha]
    rfl

/-- Only of an agent that is not registered nothing is known. -/
theorem Manned.presenceOf_eq_unknown_iff {s : Station τ} (h : s.Manned) (agent : AgentId) :
    s.presenceOf agent = .unknown ↔ s.agents.contains agent = false := by
  rw [← h.heard agent, presenceOf_eq_roll]
  unfold Table.contains
  cases hr : s.roll.get? agent with
  | none => exact iff_of_true rfl rfl
  | some presence =>
    refine iff_of_false (fun hp => h.known agent ?_) Bool.noConfusion
    rw [hr]
    exact congrArg some hp

/-- A change of a station whose events are a chronicle of it; `leavers` are the agents that are
removed in it, in their order. -/
structure Recounts (s : Station τ) (leavers : List AgentId) (s' : Station τ) : Prop where
  settings : s'.settings = s.settings
  heard : ∀ agent, s'.roll.contains agent = s'.agents.contains agent
  log : ∃ effects, s'.log = s.log ++ effects ∧
    Chronicle s.id s.roll (published effects) s'.roll ∧
      (published effects).filterMap Event.leaver? = leavers

theorem Recounts.manned {s s' : Station τ} {leavers : List AgentId} (h : Recounts s leavers s')
    (hm : s.Manned) : s'.Manned := by
  obtain ⟨effects, -, hc, -⟩ := h.log
  exact ⟨h.heard, hc.known hm.known⟩

theorem Recounts.trans {s t u : Station τ} {l m : List AgentId} (h : Recounts s l t)
    (h' : Recounts t m u) : Recounts s (l ++ m) u where
  settings := h'.settings.trans h.settings
  heard := h'.heard
  log := by
    obtain ⟨effects, hl, hc, he⟩ := h.log
    obtain ⟨later, hm, hc', he'⟩ := h'.log
    have hid : t.id = s.id := congrArg NetworkSettings.id h.settings
    refine ⟨effects ++ later, ?_, ?_, ?_⟩
    · rw [hm, hl, List.append_assoc]
    · rw [published_append]
      exact hc.append (hid ▸ hc')
    · rw [published_append, List.filterMap_append, he, he']

theorem leavers_of_finished (network : NetworkId) (ended : List Finished) :
    (ended.map fun f => f.event network).filterMap Event.leaver? = [] := by
  rw [List.filterMap_map]
  exact List.filterMap_eq_nil_iff.2 fun f _ => rfl

/-- A change that tells of ends of requests of registered agents, and of nothing else. -/
theorem Recounts.of_ended {s s' : Station τ} (hm : s.Manned) (effects : List Effect)
    (ended : List Finished) (hs : s'.settings = s.settings) (hw : s'.watch = s.watch)
    (ha : ∀ agent, s'.agents.contains agent = s.agents.contains agent)
    (hl : s'.log = s.log ++ effects) (hp : published effects = ended.map fun f => f.event s.id)
    (hr : ∀ f ∈ ended, s.agents.contains f.agent = true) : Recounts s [] s' := by
  have hroll : s'.roll = s.roll := by
    unfold roll
    rw [hw]
  refine ⟨hs, fun agent => ?_, effects, hl, ?_, ?_⟩
  · rw [hroll, hm.heard, ha]
  · rw [hp, hroll]
    exact .of_finished fun f hf => (hm.heard f.agent).trans (hr f hf)
  · rw [hp]
    exact leavers_of_finished s.id ended

/-- A change that tells of nothing, and that registers and removes nobody. -/
theorem Recounts.of_untold {s s' : Station τ} (hm : s.Manned) (hs : s'.settings = s.settings)
    (hw : s'.watch = s.watch)
    (ha : ∀ agent, s'.agents.contains agent = s.agents.contains agent) {effects : List Effect}
    (hl : s'.log = s.log ++ effects) (hp : published effects = []) : Recounts s [] s' :=
  .of_ended hm effects [] hs hw ha hl hp (List.forall_mem_nil _)

theorem Recounts.refl {s : Station τ} (hm : s.Manned) : Recounts s [] s :=
  .of_untold hm rfl rfl (fun _ => rfl) (List.append_nil _).symm rfl

theorem contains_modify (t : Table AgentId Agent) (agent other : AgentId) (f : Agent → Agent) :
    (t.modify agent f).contains other = t.contains other := by
  unfold Table.contains
  rw [Table.get?_modify]
  split
  · exact Option.isSome_map
  · rfl

theorem contains_setBacklog (s : Station τ) (agent other : AgentId) (b : Backlog) :
    (s.setBacklog agent b).agents.contains other = s.agents.contains other :=
  contains_modify s.agents agent other _

/-- Whose request is pending is registered. -/
theorem contains_of_mem_idents {s : Station τ} (hs : s.Sound) {i : Ident} (h : i ∈ s.idents) :
    s.agents.contains i.agent = true := by
  have hm := hs.mem_queueOf h
  unfold Table.contains
  cases ha : s.agents.get? i.agent with
  | some a => rfl
  | none =>
    rw [queueOf_of_get?_eq_none ha] at hm
    cases hm

/-- Only requests of registered agents end, if none is taken in. -/
theorem Transfer.registered {s s' : Station τ} {ended : List Finished}
    (h : Transfer s [] ended s') (hs : s.Sound) :
    ∀ f ∈ ended, s.agents.contains f.agent = true := by
  intro f hf
  refine contains_of_mem_idents hs (i := f.ident) ?_
  have hm := h.balance.mem_iff.2 (List.mem_append_left _ (List.mem_map_of_mem hf))
  rwa [List.append_nil] at hm

/-! ### Hearing an agent -/

theorem contains_heard (s : Station τ) (m : Message) (now : Instant) (agent : AgentId) :
    (s.heard m now).agents.contains agent =
      (decide (agent = m.agent) || s.agents.contains agent) := by
  have hregister : (s.register m.agent).agents.contains agent =
      (decide (agent = m.agent) || s.agents.contains agent) := by
    unfold register
    split
    · rename_i hm
      by_cases ha : agent = m.agent
      · rw [ha, hm, Bool.or_true]
      · rw [decide_eq_false ha, Bool.false_or]
    · show (s.agents.insert m.agent ⟨.none, none⟩).contains agent = _
      unfold Table.contains
      rw [Table.get?_insert]
      by_cases ha : agent = m.agent
      · rw [if_pos ha, decide_eq_true ha]
        rfl
      · rw [if_neg ha, decide_eq_false ha, Bool.false_or]
  unfold heard
  rw [agents_hear]
  cases m.capabilities with
  | none => exact hregister
  | some capabilities => exact (contains_modify _ _ _ _).trans hregister

theorem watch_register (s : Station τ) (agent : AgentId) : (s.register agent).watch = s.watch := by
  unfold register
  split <;> rfl

theorem watch_heard (s : Station τ) (m : Message) (now : Instant) :
    (s.heard m now).watch = (s.watch.observe m.agent now m.kind.signal).2 := by
  unfold heard
  rw [hear_eq, watch_observed, watch_flagged]
  show ((s.register m.agent).watch.observe m.agent now m.kind.signal).2 = _
  rw [watch_register]

/-- What is told when the sender of a message is seen. -/
theorem published_observed (s : Station τ) (m : Message) (now : Instant) :
    ∃ effects, (s.observed m now).log = s.log ++ effects ∧
      published effects = (s.watch.observe m.agent now m.kind.signal).1.toList.map fun c =>
        .presence s.id c.agent c.source c.target := by
  unfold observed
  cases (s.watch.observe m.agent now m.kind.signal).1 with
  | none => exact ⟨[], (List.append_nil _).symm, rfl⟩
  | some c => exact ⟨[_, _], List.append_assoc _ _ _, rfl⟩

theorem published_register (s : Station τ) (agent : AgentId) :
    ∃ effects, (s.register agent).log = s.log ++ effects ∧
      published effects = if s.agents.contains agent then [] else [.registered s.id agent] := by
  unfold register
  split
  · exact ⟨[], (List.append_nil _).symm, rfl⟩
  · exact ⟨[_], rfl, rfl⟩

/-- What is told when a message is heard. -/
theorem published_heard (s : Station τ) (m : Message) (now : Instant) :
    ∃ effects, (s.heard m now).log = s.log ++ effects ∧
      published effects =
        (if s.agents.contains m.agent then [] else [.registered s.id m.agent]) ++
          (s.watch.observe m.agent now m.kind.signal).1.toList.map fun c =>
            .presence s.id c.agent c.source c.target := by
  obtain ⟨effects, hl, hp⟩ := published_register s m.agent
  obtain ⟨later, hm, hq⟩ :=
    published_observed (((s.register m.agent).counted m).flagged m) m now
  have hflagged : (((s.register m.agent).counted m).flagged m).log =
      (s.register m.agent).log ++ [.measured (.inbound (s.register m.agent).id m.kind) .count] := by
    unfold flagged
    split <;> rfl
  have hid : (((s.register m.agent).counted m).flagged m).id = s.id := by
    have hr : (s.register m.agent).id = s.id := congrArg NetworkSettings.id
      (quiet_register s m.agent).settings
    rw [← hr]
    unfold flagged
    split <;> rfl
  refine ⟨effects ++ (.measured (.inbound (s.register m.agent).id m.kind) .count :: later),
    ?_, ?_⟩
  · unfold heard
    rw [hear_eq, hm, hflagged, hl]
    simp only [List.append_assoc, List.singleton_append]
  · rw [published_append, hp]
    rw [watch_flagged] at hq
    change published later = ((s.register m.agent).watch.observe m.agent now
      m.kind.signal).1.toList.map _ at hq
    rw [watch_register, hid] at hq
    exact congrArg _ hq

theorem Signal.presence_ne_unknown (signal : Signal) : signal.presence ≠ .unknown := by
  cases signal <;> exact Presence.noConfusion

/-- Seeing an agent sets its presence. -/
theorem roll_observe (w : Watch) (agent : AgentId) (now : Instant) (signal : Signal) :
    (w.observe agent now signal).2.sightings.mapVal (·.presence) =
      (w.sightings.mapVal (·.presence)).insert agent signal.presence := by
  refine Table.ext_get? fun other => ?_
  unfold Watch.observe
  rw [Table.get?_mapVal, Table.get?_insert, Table.get?_insert, Table.get?_mapVal]
  split <;> rfl

theorem roll_heard (s : Station τ) (m : Message) (now : Instant) :
    (s.heard m now).roll = s.roll.insert m.agent m.kind.signal.presence := by
  unfold roll
  rw [watch_heard, roll_observe]

/-- Whether a change is told when an agent is seen. -/
theorem observe_fst (s : Station τ) (agent : AgentId) (now : Instant) (signal : Signal) :
    (s.watch.observe agent now signal).1 =
      if s.presenceOf agent = signal.presence then none
      else some ⟨agent, s.presenceOf agent, signal.presence⟩ := by
  unfold presenceOf Watch.presenceOf Watch.observe
  cases s.watch.sightings.get? agent <;> rfl

theorem insert_of_get? {t : Table AgentId Presence} {agent : AgentId} {presence : Presence}
    (h : t.get? agent = some presence) : t.insert agent presence = t := by
  refine Table.ext_get? fun other => ?_
  rw [Table.get?_insert]
  split
  · rename_i ho
    rw [ho, h]
  · rfl

theorem recounts_heard {s : Station τ} (hm : s.Manned) (m : Message) (now : Instant) :
    Recounts s [] (s.heard m now) := by
  obtain ⟨effects, hl, hp⟩ := published_heard s m now
  have ht := Signal.presence_ne_unknown m.kind.signal
  have hheard : ∀ agent,
      (s.heard m now).roll.contains agent = (s.heard m now).agents.contains agent := by
    intro agent
    rw [roll_heard, contains_heard, ← hm.heard agent]
    unfold Table.contains
    rw [Table.get?_insert]
    by_cases ha : agent = m.agent
    · rw [if_pos ha, decide_eq_true ha]
      rfl
    · rw [if_neg ha, decide_eq_false ha, Bool.false_or]
  refine ⟨settings_heard s m now, hheard, effects, hl, ?_⟩
  rw [hp, observe_fst, roll_heard, presenceOf_eq_roll]
  cases hr : s.roll.get? m.agent with
  | none =>
    have hnew : s.agents.contains m.agent = false := by
      rw [← hm.heard]
      unfold Table.contains
      rw [hr]
      rfl
    rw [hnew, Option.getD_none, if_neg (Ne.symm ht)]
    exact ⟨.register hr ht .nil, rfl⟩
  | some source =>
    have hold : s.agents.contains m.agent = true := by
      rw [← hm.heard]
      unfold Table.contains
      rw [hr]
      rfl
    rw [hold, Option.getD_some]
    by_cases hs : source = m.kind.signal.presence
    · rw [if_pos hs, insert_of_get? (hs ▸ hr)]
      exact ⟨.nil, rfl⟩
    · rw [if_neg hs]
      exact ⟨.change hr hs ht .nil, rfl⟩

theorem recounts_unanswered {s : Station τ} (hm : s.Manned) (m : Message) (now : Instant) :
    Recounts s [] (s.unanswered m now) := by
  unfold unanswered
  split
  · exact .of_untold hm rfl rfl (fun _ => rfl) rfl rfl
  · split
    · exact .of_untold hm rfl rfl (fun _ => rfl) rfl rfl
    · split
      · exact recounts_heard hm m now
      · have hheard := recounts_heard hm m now
        exact hheard.trans (.of_untold (hheard.manned hm) rfl rfl (fun _ => rfl)
          (List.append_nil _).symm rfl)

/-! ### Marking agents as silent -/

theorem published_tidings (network : NetworkId) (online : Nat) (changes : List PresenceChange) :
    published (changes.flatMap (tidings network online)) =
      changes.map fun c => .presence network c.agent c.source c.target := by
  induction changes with
  | nil => rfl
  | cons c rest ih => exact congrArg (Event.presence network c.agent c.source c.target :: ·) ih

/-- The roll after silent agents are marked as offline, change by change. -/
theorem roll_swept [Walk] (s : Station τ) (now : Instant) :
    (s.swept now).roll =
      (s.watch.sweep now).1.foldl (fun t c => t.insert c.agent c.target) s.roll := by
  have hroll : (s.swept now).roll = (s.watch.sweep now).2.sightings.mapVal (·.presence) := by
    unfold roll
    rw [swept_eq]
  have hpairs : (s.watch.sweep now).1.foldl (fun t c => t.insert c.agent c.target) s.roll =
      ((s.watch.sweep now).1.map fun c => (c.agent, c.target)).foldl
        (fun t e => t.insert e.1 e.2) s.roll := by
    rw [List.foldl_map]
  have hnodup : (((s.watch.sweep now).1.map fun c => (c.agent, c.target)).map
      Prod.fst).Nodup := by
    rw [List.map_map]
    exact s.watch.nodup_sweep now
  refine Table.ext_get? fun agent => Option.ext fun presence => ?_
  rw [hroll, hpairs, Table.get?_foldl_insert_eq_some_iff hnodup]
  have hchange : ∀ v, (agent, v) ∈ (s.watch.sweep now).1.map (fun c => (c.agent, c.target)) ↔
      ∃ sighting, s.watch.sightings.get? agent = some sighting ∧
        sighting.isOverdue s.watch.onlineTimeout now = true ∧ .offline = v := by
    intro v
    rw [List.mem_map]
    constructor
    · rintro ⟨c, hc, he⟩
      obtain ⟨rfl, rfl⟩ := Prod.mk.inj he
      obtain ⟨sighting, hs, ho, -, ht⟩ := Watch.mem_sweep_iff.1 hc
      exact ⟨sighting, hs, ho, ht.symm⟩
    · rintro ⟨sighting, hs, ho, rfl⟩
      exact ⟨⟨agent, sighting.presence, .offline⟩,
        Watch.mem_sweep_iff.2 ⟨sighting, hs, ho, rfl, rfl⟩, rfl⟩
  have hagent : agent ∈ ((s.watch.sweep now).1.map fun c => (c.agent, c.target)).map Prod.fst ↔
      ∃ v, (agent, v) ∈ (s.watch.sweep now).1.map fun c => (c.agent, c.target) := by
    simp only [List.mem_map (f := Prod.fst), Prod.exists, exists_and_right, exists_eq_right]
  rw [hagent]
  simp only [hchange]
  unfold roll Watch.sweep
  dsimp only
  rw [Table.get?_mapVal, Table.get?_mapVal, Table.get?_mapVal]
  cases s.watch.sightings.get? agent with
  | none => simp
  | some sighting => by_cases ho : sighting.isOverdue s.watch.onlineTimeout now <;> simp [ho]

theorem recounts_swept [Walk] {s : Station τ} (hm : s.Manned) (now : Instant) :
    Recounts s [] (s.swept now) := by
  obtain ⟨effects, hl, hp⟩ : ∃ effects, (s.swept now).log = s.log ++ effects ∧
      published effects =
        (s.watch.sweep now).1.map fun c => .presence s.id c.agent c.source c.target :=
    ⟨_, by rw [swept_eq], published_tidings ..⟩
  have hc : ∀ c ∈ (s.watch.sweep now).1,
      s.roll.get? c.agent = some c.source ∧ c.source ≠ c.target ∧ c.target ≠ .unknown := by
    intro c hc
    obtain ⟨sighting, hs, ho, hsource, htarget⟩ := Watch.mem_sweep_iff.1 hc
    refine ⟨?_, ?_, ?_⟩
    · unfold roll
      rw [Table.get?_mapVal, hs, hsource]
      rfl
    · -- only who is there can fall silent
      rw [hsource, htarget]
      intro hoff
      unfold Sighting.isOverdue at ho
      rw [hoff] at ho
      cases ho
    · rw [htarget]
      exact Presence.noConfusion
  have hchron : Chronicle s.id s.roll (published effects) (s.swept now).roll := by
    rw [roll_swept, hp]
    exact .of_changes (s.watch.nodup_sweep now) hc
  have hcontains : ∀ agent, (s.swept now).roll.contains agent = s.roll.contains agent := by
    intro agent
    unfold roll Table.contains
    rw [swept_eq]
    unfold Watch.sweep
    dsimp only
    rw [Table.get?_mapVal, Table.get?_mapVal, Table.get?_mapVal, Option.isSome_map,
      Option.isSome_map, Option.isSome_map]
  refine ⟨?_, fun agent => ?_, effects, hl, hchron, ?_⟩
  · rw [swept_eq]
  · rw [hcontains, hm.heard, agents_swept]
  · rw [hp, List.filterMap_map]
    exact List.filterMap_eq_nil_iff.2 fun c _ => rfl

end Station

end GroundControl
