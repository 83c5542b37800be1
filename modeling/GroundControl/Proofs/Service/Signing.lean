import GroundControl.Proofs.Service.Stopping
import GroundControl.Proofs.Station.Stamps

/-!
# The epochs of a service

The epoch under which a service signs its frames only grows, it is never beyond the epochs the
service was told of, and nothing but an order that was told changes it.

* `Order.epoch?`, `Turn.epoch?`, the epoch the service is told of;
* `commands_of_poll`: orders that wait are only taken from the front;
* `Service.Signs`, what a turn does to the epoch and which frames are handed over in it;
  `signs_of_turn`;
* `Service.Told`, a bound on the epochs the service was told of; `Told.turn`;
* `epoch_of_next?`: an epoch that is taken up counts from then on.
-/

namespace GroundControl

/-- The epoch an order tells of. -/
def Order.epoch? : Order → Option Nat
  | .adoptEpoch epoch => some epoch
  | _ => none

/-- The epoch the service is told of. -/
def Turn.epoch? : Turn → Option Nat
  | .order c => c.order.epoch?
  | _ => none

namespace Service

variable {τ : Type}

/-- The frames that the service has handed to its link, the earliest first. -/
def frames (s : Service τ) : List Sending := sendings s.station.log

/-- What a turn does to the epoch, and which frames are handed over in it. -/
structure Signs (s s' : Service τ) : Prop where
  network : s'.station.id = s.station.id
  epoch : s.station.epoch ≤ s'.station.epoch
  frames : ∃ new, s'.frames = s.frames ++ new ∧ ∀ f ∈ new, f.1.epoch = s'.station.epoch

theorem Signs.of_station {s s' : Service τ} (h : s'.station = s.station) : Signs s s' where
  network := congrArg Station.id h
  epoch := Nat.le_of_eq (congrArg Station.epoch h.symm)
  frames := ⟨[], by unfold Service.frames; rw [h, List.append_nil], List.forall_mem_nil _⟩

theorem Signs.of_stamps {s s' : Service τ} (h : Station.Stamps s.station s'.station) :
    Signs s s' where
  network := congrArg NetworkSettings.id h.settings
  epoch := Nat.le_of_eq h.epoch.symm
  frames := by
    obtain ⟨new, hf, he⟩ := h.frames
    exact ⟨new, hf, fun f hm => (he f hm).trans h.epoch.symm⟩

/-- The station and all orders that wait know of no epoch beyond `bound`. -/
structure Told (bound : Nat) (s : Service τ) : Prop where
  station : s.station.epoch ≤ bound
  commands : ∀ c ∈ s.commands, ∀ epoch, c.order.epoch? = some epoch → epoch ≤ bound

theorem Told.mono {s : Service τ} {m n : Nat} (h : s.Told m) (hmn : m ≤ n) : s.Told n :=
  ⟨Nat.le_trans h.station hmn, fun c hc epoch he => Nat.le_trans (h.commands c hc epoch he) hmn⟩

/-! ### Orders that wait -/

section Commands

theorem commands_act {α : Type} {s : Service τ} {work : Act τ α}
    {next : α → Service τ → Service τ} (hnext : ∀ a t, (next a t).commands <:+ t.commands) :
    (s.act work next).commands <:+ s.commands := by
  rcases act_cases s work next with ⟨a, station, -, he⟩ | ⟨fault, station, -, he⟩
  · rw [he]
    exact hnext a { s with station }
  · rw [he]
    exact List.nil_suffix

theorem commands_reply (s : Service τ) (call : Option CallId) (answer : Answer) :
    (s.reply call answer).commands <:+ s.commands := by
  cases call <;> exact List.suffix_refl _

theorem commands_act_reply {α : Type} {s : Service τ} {work : Act τ α} {call : Option CallId}
    {answer : α → Answer} :
    (s.act work fun a s => s.reply call (answer a)).commands <:+ s.commands :=
  commands_act fun a t => commands_reply t call (answer a)

theorem commands_shutdown [Walk] (s : Service τ) (now : Instant) :
    (s.act (Station.shutdown now) fun () s => s.finish .stopped).commands <:+ s.commands :=
  commands_act fun _ _ => List.nil_suffix

variable [Carrier τ]

theorem commands_attempt (s : Service τ) (call : Option CallId) (bulletin : Bulletin)
    (deadline : Instant) (isCorrection : Bool) (now : Instant) :
    (s.attempt call bulletin deadline isCorrection now).commands <:+ s.commands := by
  refine commands_act fun result t => ?_
  cases result with
  | done result => exact commands_reply ..
  | wait ready => exact List.suffix_refl _

theorem commands_carryOut [Walk] (s : Service τ) (c : Command) (now : Instant) :
    (s.carryOut c now).commands <:+ s.commands := by
  obtain ⟨order, call⟩ := c
  cases order with
  | submit | deregister | tick => exact commands_act_reply
  | broadcast bulletin deadline => exact commands_attempt s call bulletin deadline false now
  | correction bulletin skipIfIdle deadline =>
    unfold carryOut
    dsimp only
    split
    · exact commands_attempt s call bulletin deadline true now
    · exact commands_reply ..
  | cancel request => exact commands_reply ..
  | adoptEpoch epoch => exact List.suffix_refl _
  | stop => exact commands_shutdown s now
  | report | snapshots | presenceOf agent | phaseOf request => exact commands_reply ..

/-- A poll takes orders from the front, or leaves none. -/
theorem commands_of_poll [Host] {s s' : Service τ} {now rung : Instant}
    (h : s.poll now rung = some s') : s'.commands <:+ s.commands := by
  obtain ⟨station, activity, commands, closed, inbox, tickDue, sweepDue, answers⟩ := s
  unfold poll at h
  cases activity with
  | stopped | crashed fault => cases h
  | holding hold =>
    dsimp only at h
    split at h
    · cases h
      exact commands_attempt _ _ _ _ _ _
    · cases h
  | serving =>
    cases commands with
    | cons c rest =>
      cases h
      exact (commands_carryOut _ c now).trans (List.suffix_cons c rest)
    | nil =>
      dsimp only at h
      split at h
      · cases h
        exact commands_shutdown _ now
      · cases inbox with
        | cons m rest =>
          cases h
          exact commands_act fun _ _ => List.suffix_refl _
        | nil =>
          dsimp only at h
          split at h
          · cases h
            exact again_induction (P := fun s => s.commands <:+ []) (fun _ _ => List.nil_suffix)
              fun _ => commands_act fun _ _ => List.suffix_refl _
          · split at h
            · cases h
              exact again_induction (P := fun s => s.commands <:+ []) (fun _ _ => List.nil_suffix)
                fun _ => List.suffix_refl _
            · cases h

/-- Only what is ordered in a turn is added to the orders that wait. -/
theorem mem_commands_turn {s : Service τ} {t : Turn} {c : Command}
    (h : c ∈ (s.turn t).commands) : c ∈ s.commands ∨ t = .order c := by
  cases t with
  | order d =>
    change c ∈ (s.order d).commands at h
    unfold order at h
    split at h
    · exact .inl h
    · refine (List.mem_append.1 h).imp_right fun hd => ?_
      rw [List.mem_singleton.1 hd]
  | receive m =>
    change c ∈ (s.receive m).commands at h
    unfold receive at h
    split at h <;> exact .inl h
  | close => exact .inl h
  | poll host now rung =>
    cases hp : s.poll now rung with
    | none =>
      rw [turn_poll_of_eq_none hp] at h
      exact .inl h
    | some s' =>
      rw [turn_poll_of_eq_some hp] at h
      exact .inl ((commands_of_poll hp).subset h)

end Commands

/-! ### Polls and turns -/

section Turns

variable [Carrier τ] {host : Host} {s s' : Service τ} {now rung : Instant}

omit [Carrier τ] in
/-- The station is asked to adopt an epoch only by an order that waits. -/
theorem mem_commands_of_work? {epoch : Nat} (h : s.work? now rung = some (.adoptEpoch epoch)) :
    ∃ c ∈ s.commands, c.order.epoch? = some epoch := by
  unfold work? at h
  cases ha : s.activity with
  | stopped | crashed fault | holding hold =>
    rw [ha] at h
    cases h
  | serving =>
    rw [ha] at h
    dsimp only at h
    cases hc : s.commands with
    | cons c rest =>
      rw [hc] at h
      refine ⟨c, List.mem_cons_self, ?_⟩
      obtain ⟨order, call⟩ := c
      cases order <;> cases h
      rfl
    | nil =>
      rw [hc] at h
      dsimp only at h
      -- without an order there is no epoch to adopt
      split at h
      · cases h
      · split at h
        · cases h
        · split at h
          · cases h
          · split at h <;> cases h

/-- A poll stamps the frames with the epoch there is, or it takes up an order to adopt one. -/
theorem stamps_or_adopts (h : Polled now rung s s') :
    Station.Stamps s.station s'.station ∨ ∃ c ∈ s.commands, ∃ epoch,
      c.order.epoch? = some epoch ∧ s'.station = s.station.adoptEpoch epoch := by
  -- whatever comes of an operation, its frames are stamped, unless it changes the epoch
  have hperform : ∀ {operation : Operation} {station : Station τ},
      s.work? now rung = some operation →
      Station.Leaves (· = station) (Station.perform operation s.station) →
        Station.Stamps s.station station ∨ ∃ c ∈ s.commands, ∃ epoch,
          c.order.epoch? = some epoch ∧ station = s.station.adoptEpoch epoch := by
    intro operation station hw hl
    by_cases ha : ∃ epoch, operation = .adoptEpoch epoch
    · obtain ⟨epoch, rfl⟩ := ha
      obtain ⟨c, hc, he⟩ := mem_commands_of_work? hw
      exact .inr ⟨c, hc, epoch, he, Eq.symm hl⟩
    · have hs := Station.stamped_perform (fun epoch he => ha ⟨epoch, he⟩) s.station
      cases hr : Station.perform operation s.station with
      | ok response t | error fault t =>
        rw [hr] at hs hl
        have hl : t = station := hl
        exact .inl (hl ▸ hs)
  cases h with
  | worked operation response hw hp hr hg => exact hperform hw (by rw [hp]; rfl)
  | crashed operation fault hw hp hs => exact hperform hw (by rw [hp]; rfl)
  | aired bulletin deadline result hp hr hg =>
    have hs := Station.stamped_tryBroadcast bulletin deadline now s.station
    rw [hp] at hs
    exact .inl hs
  | muted bulletin deadline fault hp hs =>
    have hs := Station.stamped_tryBroadcast bulletin deadline now s.station
    rw [hp] at hs
    exact .inl hs
  | asked hp | lapsed _ _ _ _ _ hp =>
    rw [hp]
    exact .inl (.refl _)
  | stopped station hstops hp hs =>
    have ht := Station.stamped_shutdown now s.station
    rw [hp] at ht
    subst hs
    exact .inl ht

theorem signs_of_poll (h : s.poll now rung = some s') : Signs s s' := by
  rcases stamps_or_adopts (polled_of_poll h) with hs | ⟨c, -, epoch, -, ha⟩
  · exact .of_stamps hs
  · refine ⟨by rw [ha]; rfl, ?_, [], ?_, List.forall_mem_nil _⟩
    · rw [ha]
      exact Nat.le_max_left _ _
    · unfold frames
      rw [ha, List.append_nil]
      rfl

theorem signs_of_turn (s : Service τ) (t : Turn) : Signs s (s.turn t) := by
  cases t with
  | order c => exact .of_station (station_order s c)
  | receive m => exact .of_station (station_receive s m)
  | close => exact .of_station rfl
  | poll host now rung =>
    cases hp : s.poll now rung with
    | none =>
      rw [turn_poll_of_eq_none hp]
      exact .of_station rfl
    | some s' =>
      rw [turn_poll_of_eq_some hp]
      exact signs_of_poll hp

theorem Told.turn {bound : Nat} (h : s.Told bound) {t : Turn}
    (ht : ∀ epoch, t.epoch? = some epoch → epoch ≤ bound) : (s.turn t).Told bound := by
  constructor
  · cases t with
    | order c => exact (station_order s c).symm ▸ h.station
    | receive m => exact (station_receive s m).symm ▸ h.station
    | close => exact h.station
    | poll host now rung =>
      cases hp : s.poll now rung with
      | none => exact (turn_poll_of_eq_none hp).symm ▸ h.station
      | some s' =>
        rw [turn_poll_of_eq_some hp]
        rcases stamps_or_adopts (polled_of_poll hp) with hs | ⟨c, hc, epoch, he, ha⟩
        · rw [hs.epoch]
          exact h.station
        · rw [ha]
          exact Nat.max_le.2 ⟨h.station, h.commands c hc epoch he⟩
  · intro c hc epoch he
    rcases mem_commands_turn hc with hc | rfl
    · exact h.commands c hc epoch he
    · exact ht epoch he

/-- An epoch that is taken up counts from then on. -/
theorem epoch_of_next? {epoch : Nat} (h : s.next? = some (.adoptEpoch epoch)) (host : Host)
    (now rung : Instant) : epoch ≤ (s.turn (.poll host now rung)).station.epoch := by
  obtain ⟨station, activity, commands, closed, inbox, tickDue, sweepDue, answers⟩ := s
  cases activity with
  | stopped | crashed fault | holding hold => cases h
  | serving =>
    cases commands with
    | nil => cases h
    | cons c rest =>
      obtain ⟨order, call⟩ := c
      cases h
      exact Nat.le_max_right _ _

/-- A service that has ended hands nothing to its link any more. -/
theorem frames_of_over (h : s.isOver = true) (t : Turn) : (s.turn t).frames = s.frames := by
  unfold frames
  rw [(turn_of_over h t).2.1]

end Turns

end Service

end GroundControl
