import GroundControl.Station.Turns
import GroundControl.Proofs.Station.Transfer

/-!
# The work of a service

What the task of a service does is an operation of its station, or something quiet, and what the
operations preserve holds of the station as long as the task runs.

* `poll_work`: what a poll does to the station;
* `Service.Running`: the task has not ended; `running_of_turn`;
* `Service.Sound`: as long as the task runs, its station is sound; `sound_of_turns`;
* `Service.Reached`: what a service can become.
-/

namespace GroundControl

namespace Service

variable {τ : Type}

@[simp] theorem station_reply (s : Service τ) (call : Option CallId) (answer : Answer) :
    (s.reply call answer).station = s.station := by
  cases call <;> rfl

@[simp] theorem inbox_reply (s : Service τ) (call : Option CallId) (answer : Answer) :
    (s.reply call answer).inbox = s.inbox := by
  cases call <;> rfl

/-- The task goes on. -/
def Running (s : Service τ) : Prop := s.isOver = false

theorem running_of_ok {α : Type} {s : Service τ} {work : Act τ α}
    {next : α → Service τ → Service τ} (h : (s.act work next).Running) :
    ∃ a station, work s.station = .ok a station ∧ s.act work next = next a { s with station } := by
  unfold act at h ⊢
  cases hw : work s.station with
  | ok a station => exact ⟨a, station, rfl, rfl⟩
  | error fault station =>
    rw [hw] at h
    cases h

theorem act_reply {α : Type} {s : Service τ} {work : Act τ α} {call : Option CallId}
    {answer : α → Answer} (h : (s.act work fun a s => s.reply call (answer a)).Running) :
    (∃ a, work s.station = .ok a (s.act work fun a s => s.reply call (answer a)).station) ∧
      (s.act work fun a s => s.reply call (answer a)).inbox = s.inbox := by
  obtain ⟨a, station, hw, he⟩ := running_of_ok h
  rw [he, station_reply, inbox_reply]
  exact ⟨⟨a, hw⟩, rfl⟩

/-- Something regular is put off and done, or it ends the service. -/
theorem again_induction [Host] {P : Service τ → Prop} {s : Service τ} {due now : Instant}
    {period : Span} {work : Instant → Service τ}
    (hlapse : ∀ fault, Host.nextDue due period now = .error fault → P (s.finish (.crashed fault)))
    (hwork : ∀ next, P (work next)) : P (s.again due period now work) := by
  unfold again
  cases hn : Host.nextDue due period now with
  | ok next => exact hwork next
  | error fault => exact hlapse fault hn

theorem running_of_again [Host] {s : Service τ} {due now : Instant} {period : Span}
    {work : Instant → Service τ} (h : (s.again due period now work).Running) :
    ∃ next, s.again due period now work = work next :=
  again_induction (P := fun t => t.Running → ∃ next, t = work next) (fun _ _ => nofun)
    (fun next _ => ⟨next, rfl⟩) h

/-- A task that has shut its station down does not go on, whether or not it met a fault. -/
theorem not_running_shutdown [Walk] [Carrier τ] (s : Service τ) (now : Instant) :
    ¬ (s.act (Station.shutdown now) fun () s => s.finish .stopped).Running := by
  intro h
  obtain ⟨⟨⟩, station, -, he⟩ := running_of_ok h
  rw [he] at h
  cases h

/-- An attempt at a broadcast is quiet. -/
theorem quiet_attempt [Carrier τ] {s : Service τ} {call : Option CallId} {bulletin : Bulletin}
    {deadline : Instant} {isCorrection : Bool} {now : Instant}
    (h : (s.attempt call bulletin deadline isCorrection now).Running) :
    Station.Quiet s.station (s.attempt call bulletin deadline isCorrection now).station ∧
      (s.attempt call bulletin deadline isCorrection now).inbox = s.inbox := by
  obtain ⟨result, station, hw, he⟩ := running_of_ok h
  have hq := Station.quiet_tryBroadcast hw
  unfold attempt
  rw [he]
  cases result with
  | done result =>
    dsimp only
    rw [station_reply, inbox_reply]
    exact ⟨hq, rfl⟩
  | wait ready => exact ⟨hq, rfl⟩

/-- What is asked of a station, and what comes of it. -/
def Done [Carrier τ] (operation : Option Operation) (s s' : Station τ) : Prop :=
  match operation with
  | some operation => ∃ response, Station.perform operation s = .ok response s'
  | none => Station.Quiet s s'

theorem done_carryOut [Walk] [Carrier τ] {s : Service τ} {c : Command} {now : Instant}
    (h : (s.carryOut c now).Running) :
    Done (c.order.operation? now) s.station (s.carryOut c now).station ∧
      (s.carryOut c now).inbox = s.inbox := by
  obtain ⟨order, call⟩ := c
  cases order with
  | submit request agent payload urgency maxAttempts =>
    obtain ⟨⟨result, hw⟩, hi⟩ := act_reply h
    exact ⟨⟨.submitted result, Act.bind_pure_eq_ok.2 ⟨result, hw, rfl⟩⟩, hi⟩
  | broadcast bulletin deadline => exact quiet_attempt h
  | correction bulletin skipIfIdle deadline =>
    unfold carryOut at h ⊢
    dsimp only at h ⊢
    split at h
    · rename_i ht
      rw [if_pos ht]
      exact quiet_attempt h
    · rename_i ht
      rw [if_neg ht, station_reply, inbox_reply]
      exact ⟨.refl _, rfl⟩
  | cancel request =>
    refine ⟨⟨.cancelled (Station.cancel request s.station).1, ?_⟩, inbox_reply _ _ _⟩
    show _ = EStateM.Result.ok _ (Service.reply _ _ _).station
    rw [station_reply]
    rfl
  | deregister agent =>
    obtain ⟨⟨result, hw⟩, hi⟩ := act_reply h
    exact ⟨⟨.deregistered result, Act.bind_pure_eq_ok.2 ⟨result, hw, rfl⟩⟩, hi⟩
  | adoptEpoch epoch => exact ⟨⟨.done, rfl⟩, rfl⟩
  | tick time =>
    obtain ⟨⟨result, hw⟩, hi⟩ := act_reply h
    exact ⟨⟨.done, Act.bind_pure_eq_ok.2 ⟨result, hw, rfl⟩⟩, hi⟩
  | stop => exact absurd h (not_running_shutdown s now)
  | report | snapshots | presenceOf agent | phaseOf request =>
    refine ⟨?_, inbox_reply _ _ _⟩
    show Station.Quiet s.station (Service.reply _ _ _).station
    rw [station_reply]
    exact .refl _

/-- The messages that wait after the task has asked something of its station. -/
def left (operation : Option Operation) (inbox : List Message) : List Message :=
  match operation with
  | some (.deliver ..) => inbox.tail
  | _ => inbox

theorem left_operation? [Walk] (order : Order) (now : Instant) (inbox : List Message) :
    left (order.operation? now) inbox = inbox := by
  cases order <;> rfl

/-- A service that is ordered to stop, or is left without orders to come, does not go on. -/
theorem work?_ne_shutdown [Host] [Carrier τ] {s s' : Service τ} {now rung : Instant}
    (h : s.poll now rung = some s') (hs' : s'.Running) {operation : Operation}
    (hw : s.work? now rung = some operation) : ∀ walk time, operation ≠ .shutdown walk time := by
  have hover (s : Service τ) := s.not_running_shutdown now
  rintro walk time rfl
  unfold work? at hw
  unfold poll at h
  cases ha : s.activity with
  | stopped | crashed fault | holding hold =>
    rw [ha] at hw
    cases hw
  | serving =>
    rw [ha] at hw h
    dsimp only at hw h
    cases hc : s.commands with
    | cons c rest =>
      rw [hc] at hw h
      obtain ⟨order, call⟩ := c
      cases order <;> cases hw
      cases h
      exact hover _ hs'
    | nil =>
      rw [hc] at hw h
      dsimp only at hw h
      by_cases hcl : s.commandsClosed = true
      · rw [if_pos hcl] at h
        cases h
        exact hover _ hs'
      · rw [if_neg hcl] at hw
        split at hw
        · cases hw
        · split at hw
          · cases hw
          · split at hw <;> cases hw

/-- What a poll does to the station, and to the messages that wait. -/
theorem poll_work [Host] [Carrier τ] {s s' : Service τ} {now rung : Instant}
    (h : s.poll now rung = some s') (hs' : s'.Running) :
    Done (s.work? now rung) s.station s'.station ∧
      s'.inbox = left (s.work? now rung) s.inbox := by
  unfold poll at h
  unfold work?
  -- the cases come in the order in which the task looks for work
  cases ha : s.activity with
  | stopped =>
    rw [ha] at h
    cases h
  | crashed fault =>
    rw [ha] at h
    cases h
  | holding hold =>
    rw [ha] at h
    dsimp only at h
    split at h
    · cases h
      exact quiet_attempt hs'
    · cases h
  | serving =>
    rw [ha] at h
    dsimp only at h ⊢
    cases hc : s.commands with
    | cons c rest =>
      rw [hc] at h
      cases h
      dsimp only
      rw [left_operation?]
      exact done_carryOut hs'
    | nil =>
      rw [hc] at h
      dsimp only at h ⊢
      by_cases hcl : s.commandsClosed = true
      · rw [if_pos hcl] at h ⊢
        cases h
        exact absurd hs' (not_running_shutdown s now)
      · rw [if_neg hcl] at h ⊢
        cases hi : s.inbox with
        | cons m rest =>
          rw [hi] at h
          cases h
          obtain ⟨⟨⟩, station, hw, he⟩ := running_of_ok hs'
          rw [he]
          exact ⟨⟨.done, Act.bind_pure_eq_ok.2 ⟨(), hw, rfl⟩⟩, rfl⟩
        | nil =>
          rw [hi] at h
          dsimp only at h ⊢
          by_cases ht : s.tickDue ≤ rung
          · rw [if_pos ht] at h ⊢
            cases h
            obtain ⟨next, hagain⟩ := running_of_again hs'
            rw [hagain] at hs' ⊢
            obtain ⟨⟨⟩, station, hw, he⟩ := running_of_ok hs'
            rw [he]
            exact ⟨⟨.done, Act.bind_pure_eq_ok.2 ⟨(), hw, rfl⟩⟩, rfl⟩
          · rw [if_neg ht] at h ⊢
            by_cases hw : s.sweepDue ≤ rung
            · rw [if_pos hw] at h ⊢
              cases h
              obtain ⟨next, hagain⟩ := running_of_again hs'
              rw [hagain]
              exact ⟨⟨.swept _, rfl⟩, rfl⟩
            · rw [if_neg hw] at h
              cases h

/-! ### Sound services -/

/-- As long as the task runs, its station is sound and its requests have different tickets. -/
def Sound (s : Service τ) : Prop := s.Running → s.station.Sound ∧ s.station.Numbered

theorem sound_new (settings : NetworkSettings) (carrier : τ) (start : Instant) :
    (new (Station.new settings carrier start) start).Sound :=
  fun _ => ⟨Station.sound_new settings carrier start, Station.numbered_new settings carrier start⟩

/-- What is asked of a sound station leaves it sound. -/
theorem Done.sound [Carrier τ] {operation : Option Operation} {s s' : Station τ}
    (h : Done operation s s') (hs : s.Sound) (hn : s.Numbered) : s'.Sound ∧ s'.Numbered := by
  cases operation with
  | none =>
    have hq : Station.Quiet s s' := h
    exact ⟨hs.of_queueOf hq.queue, (Station.Transfer.of_quiet hq).keeps_numbered hn⟩
  | some operation =>
    obtain ⟨response, hp⟩ := h
    obtain ⟨hs', ended, ht⟩ := Station.perform_transfer hs hp
    exact ⟨hs', ht.keeps_numbered hn⟩

/-- A task that has ended stays so. -/
theorem running_of_turn [Carrier τ] {s : Service τ} {t : Turn} (h : (s.turn t).Running) :
    s.Running := by
  cases t with
  | order c =>
    by_cases ho : s.isOver = true
    · have he : s.turn (.order c) = s := if_pos ho
      exact he ▸ h
    · exact Bool.eq_false_iff.2 ho
  | receive m =>
    by_cases ho : s.isOver = true
    · have he : s.turn (.receive m) = s := if_pos ho
      exact he ▸ h
    · exact Bool.eq_false_iff.2 ho
  | close => exact h
  | poll host now rung =>
    unfold Running isOver
    cases ha : s.activity with
    | serving => rfl
    | holding hold => rfl
    | stopped =>
      have hp : s.poll now rung = none := by
        unfold poll
        rw [ha]
      rw [turn_poll_of_eq_none hp] at h
      unfold Running isOver at h
      rwa [ha] at h
    | crashed fault =>
      have hp : s.poll now rung = none := by
        unfold poll
        rw [ha]
      rw [turn_poll_of_eq_none hp] at h
      unfold Running isOver at h
      rwa [ha] at h

/-- What comes in does not touch the station. -/
theorem station_order (s : Service τ) (c : Command) : (s.order c).station = s.station := by
  unfold order
  split <;> rfl

theorem station_receive (s : Service τ) (m : Message) : (s.receive m).station = s.station := by
  unfold receive
  split <;> rfl

theorem sound_of_turn [Carrier τ] {s : Service τ} (hs : s.Sound) (t : Turn) : (s.turn t).Sound := by
  intro hr
  obtain ⟨hsound, hn⟩ := hs (running_of_turn hr)
  cases t with
  | order c =>
    have he : (s.turn (.order c)).station = s.station := station_order s c
    rw [he]
    exact ⟨hsound, hn⟩
  | receive m =>
    have he : (s.turn (.receive m)).station = s.station := station_receive s m
    rw [he]
    exact ⟨hsound, hn⟩
  | close => exact ⟨hsound, hn⟩
  | poll host now rung =>
    cases hp : s.poll now rung with
    | none =>
      rw [turn_poll_of_eq_none hp]
      exact ⟨hsound, hn⟩
    | some s' =>
      rw [turn_poll_of_eq_some hp] at hr ⊢
      exact (poll_work hp hr).1.sound hsound hn

theorem sound_of_turns [Carrier τ] {s : Service τ} (hs : s.Sound) (l : List Turn) :
    (s.turns l).Sound :=
  turns_induction (P := Sound) (fun _ t h => sound_of_turn h t) hs l

/-- A service that can come about, whatever happens to it. -/
def Reached [Carrier τ] (s : Service τ) : Prop :=
  ∃ (settings : NetworkSettings) (carrier : τ) (start : Instant) (history : List Turn),
    s = (new (Station.new settings carrier start) start).turns history

theorem Reached.sound [Carrier τ] {s : Service τ} (h : s.Reached) : s.Sound := by
  obtain ⟨settings, carrier, start, history, rfl⟩ := h
  exact sound_of_turns (sound_new settings carrier start) history

end Service

end GroundControl
