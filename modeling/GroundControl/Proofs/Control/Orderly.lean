import GroundControl.Proofs.Control.History

/-!
# Services and the epoch of their control centre

Of all services of a network one at most goes on.  It is not told of an epoch that the control
centre has not reached, and it signs under no older epoch than any frame of its network so far.

* `Control.Opened`, a control centre with a new service; `Control.Started`, what an attempt to start
  one comes to; `attached_of_settled`;
* `Situation.Orderly`, the invariant; `Orderly.detached`, `Orderly.synchronize`, `Orderly.started`;
* `Situation.Served`, what becomes of a situation when something happens to a service;
  `Served.orderly`;
* `orderly_happen`, `orderly_after`.
-/

namespace GroundControl

variable {τ : Type}

namespace Control

/-- A network that was not attached has got a service, which knows the current epoch. -/
structure Opened (service : Service τ) (c c' : Control τ) : Prop where
  vacant : c.attached.get? service.station.id = none
  attached : c'.attached = c.attached.insert service.station.id c.services.length
  services : c'.services = c.services ++ [service]
  epoch : service.station.epoch = c.clock.current
  commands : service.commands = []

/-- What an attempt to start a service comes to: nothing, or a new service. -/
def Started (c c' : Control τ) : Prop :=
  c'.clock = c.clock ∧ (c'.services = c.services ∧ c'.attached = c.attached ∨
    ∃ service, Opened service c c')

theorem started_start (c : Control τ) (settings : NetworkSettings) (carrier : τ) (now : Instant) :
    Started c (c.start settings carrier now).2 := by
  unfold start
  split
  · exact ⟨rfl, .inl ⟨rfl, rfl⟩⟩
  · rename_i h
    have hn : c.attached.get? settings.id = none := by simpa [Table.contains] using h
    exact ⟨rfl, .inr ⟨.new ((Station.new settings carrier now).adoptEpoch c.clock.current) now,
      hn, rfl, rfl, Nat.zero_max _, rfl⟩⟩

/-- The declared networks have no part in it. -/
theorem Started.declared {c c' : Control τ} (h : Started c c') (settings : ControlSettings) :
    Started c { c' with settings } := by
  obtain ⟨hclock, hsame | ⟨service, ho⟩⟩ := h
  · exact ⟨hclock, .inl hsame⟩
  · exact ⟨hclock, .inr ⟨service, ho.vacant, ho.attached, ho.services, ho.epoch, ho.commands⟩⟩

theorem started_attach (c : Control τ) (network : NetworkId) (carrier : τ) (now : Instant) :
    Started c (c.attach network carrier now).2 := by
  unfold attach
  cases c.settingsOf network with
  | error e => exact ⟨rfl, .inl ⟨rfl, rfl⟩⟩
  | ok settings => exact started_start c settings carrier now

theorem started_addNetwork (c : Control τ) (settings : NetworkSettings) (carrier : τ)
    (now : Instant) : Started c (c.addNetwork settings carrier now).2 := by
  unfold addNetwork
  cases settings.validate with
  | error e => exact ⟨rfl, .inl ⟨rfl, rfl⟩⟩
  | ok _ =>
    have hs := started_start c settings carrier now
    dsimp only
    cases hc : c.start settings carrier now with
    | mk result c' =>
      rw [hc] at hs
      cases result with
      | error e => exact hs
      | ok k => exact hs.declared _

theorem service?_modifyService (c : Control τ) (j k : Nat) (f : Service τ → Service τ) :
    (c.modifyService k f).service? j =
      (c.service? j).map fun service => if k = j then f service else service := by
  unfold service? modifyService
  rw [List.getElem?_modify]
  rfl

/-- As long as nobody waits for a service to end, each one that goes on is attached. -/
theorem attached_of_settled {c : Control τ} (h : c.settled = true) {k : Nat} {service : Service τ}
    (hk : c.service? k = some service) (hr : service.Running) :
    ∃ network, c.attached.get? network = some k := by
  have hlt : k < c.services.length := (List.getElem?_eq_some_iff.1 hk).1
  have hs := List.all_eq_true.1 h k (List.mem_range.2 hlt)
  rw [hk, Bool.or_eq_true] at hs
  rcases hs with hs | hs
  · obtain ⟨⟨network, j⟩, he, rfl⟩ := List.mem_map.1 (List.contains_iff_mem.1 hs)
    exact ⟨network, Table.mem_entries_iff.1 he⟩
  · have ho : service.isOver = true := hs
    rw [hr] at ho
    cases ho

end Control

namespace Situation

/-- Of all services of a network one at most goes on, and it has caught up with the frames of the
network; nothing knows of an epoch that the control centre has not reached. -/
structure Orderly (s : Situation τ) : Prop where
  clock : s.control.clock.current ≤ lastEpoch
  pushes : ∀ push ∈ s.pushes, push.epoch ≤ s.control.clock.current
  told : ∀ k service, s.control.service? k = some service → service.Told s.control.clock.current
  attached : ∀ network k, s.control.attached.get? network = some k →
    ∃ service, s.control.service? k = some service ∧ service.station.id = network
  alone : ∀ j k service service', s.control.service? j = some service →
    s.control.service? k = some service' → service.station.id = service'.station.id →
      service.Running → service'.Running → j = k
  caughtUp : ∀ x ∈ s.trail, ∀ k service, s.control.service? k = some service →
    service.station.id = x.network → service.Running → x.frame.epoch ≤ service.station.epoch
  reached : ∀ x ∈ s.trail, x.frame.epoch ≤ x.current ∧ x.current ≤ s.control.clock.current
  ordered : s.trail.Pairwise fun x y => x.network = y.network → x.frame.epoch ≤ y.frame.epoch

theorem orderly_begin {settings : ControlSettings} {c : Control τ}
    (h : Control.new settings = .ok c) : (begin c).Orderly := by
  have hc : c = ⟨settings, ∅, [], 0, .new⟩ := by
    unfold Control.new at h
    split at h
    · cases h
    · exact (Except.ok.inj h).symm
  subst hc
  have hservice : ∀ k, (begin (⟨settings, ∅, [], 0, .new⟩ : Control τ)).control.service? k = none :=
    fun _ => rfl
  refine ⟨?_, List.forall_mem_nil _, ?_, nofun, ?_, List.forall_mem_nil _, List.forall_mem_nil _,
    .nil⟩
  · exact (Nat.zero_le lastEpoch : EpochClock.new.current ≤ lastEpoch)
  · intro k service hk
    cases (hservice k).symm.trans hk
  · intro j k service service' hj
    cases (hservice j).symm.trans hj

/-- Letting go of services does not change them. -/
theorem Orderly.detached {s : Situation τ} (h : s.Orderly) {c : Control τ}
    (hc : c.clock = s.control.clock) (hs : c.services = s.control.services)
    (ha : ∀ network k, c.attached.get? network = some k →
      s.control.attached.get? network = some k) : Orderly { s with control := c } := by
  have hservice : ∀ k, c.service? k = s.control.service? k := by
    intro k
    unfold Control.service?
    rw [hs]
  obtain ⟨clock, pushes, told, attached, alone, caughtUp, reached, ordered⟩ := h
  rw [← hc] at clock pushes told reached
  simp only [← hservice] at told attached alone caughtUp
  exact ⟨clock, pushes, told, fun network k hk => attached network k (ha network k hk), alone,
    caughtUp, reached, ordered⟩

theorem Orderly.synchronize {s : Situation τ} (h : s.Orderly) (wall : WallTime) :
    Orderly { s with
      control := (s.control.synchronize wall).2
      pushes := s.pushes ++ (s.control.synchronize wall).2.attached.values.map
        (⟨·, (s.control.synchronize wall).1⟩) } := by
  have hle := EpochClock.current_le_current_advance h.clock wall
  refine ⟨?_, ?_, fun k service hk => (h.told k service hk).mono hle, h.attached, h.alone,
    h.caughtUp, fun x hx => ⟨(h.reached x hx).1, Nat.le_trans (h.reached x hx).2 hle⟩, h.ordered⟩
  · show (s.control.clock.advance wall).current ≤ lastEpoch
    simp only [EpochClock.advance, epochAt]
    omega
  · intro push hp
    rcases List.mem_append.1 hp with hp | hp
    · exact Nat.le_trans (h.pushes push hp) hle
    · obtain ⟨k, -, rfl⟩ := List.mem_map.1 hp
      exact Nat.le_refl _

section Opened

variable {s : Situation τ} {c : Control τ} {new : Service τ}

/-- A service is an old one, or it is the last one and new. -/
theorem cases_of_opened (h : s.control.Opened new c) {k : Nat} {service : Service τ}
    (hk : c.service? k = some service) :
    s.control.service? k = some service ∨ k = s.control.services.length ∧ service = new := by
  unfold Control.service? at hk ⊢
  rw [h.services] at hk
  rcases Nat.lt_or_ge k s.control.services.length with hlt | hge
  · rw [List.getElem?_append_left hlt] at hk
    exact .inl hk
  · rw [List.getElem?_append_right hge] at hk
    obtain ⟨hlt, rfl⟩ := List.getElem?_eq_some_iff.1 hk
    have hzero : k - s.control.services.length = 0 := Nat.lt_one_iff.1 hlt
    simp only [hzero]
    exact .inr ⟨by omega, rfl⟩

theorem service?_of_opened (h : s.control.Opened new c) {k : Nat} {service : Service τ}
    (hk : s.control.service? k = some service) : c.service? k = some service := by
  unfold Control.service? at hk ⊢
  rw [h.services, List.getElem?_append_left (List.getElem?_eq_some_iff.1 hk).1, hk]

/-- An old service of the same network does not go on, or the network would be attached. -/
theorem not_running_of_opened (hs : s.Orderly) (hsettled : s.control.settled = true)
    (h : s.control.Opened new c) {k : Nat} {service : Service τ}
    (hk : s.control.service? k = some service) (hid : service.station.id = new.station.id) :
    ¬ service.Running := by
  intro hr
  obtain ⟨network, hn⟩ := Control.attached_of_settled hsettled hk hr
  obtain ⟨service', hk', rfl⟩ := hs.attached network k hn
  obtain rfl := Option.some.inj (hk.symm.trans hk')
  rw [hid, h.vacant] at hn
  cases hn

/-- A new service begins with the current epoch, and all others of its network have ended. -/
theorem Orderly.opened (hs : s.Orderly) (hsettled : s.control.settled = true)
    (hclock : c.clock = s.control.clock) (h : s.control.Opened new c) :
    Orderly { s with control := c } := by
  have hover : ∀ {k : Nat} {service : Service τ}, s.control.service? k = some service →
      service.station.id = new.station.id → ¬ service.Running :=
    fun hk hid => not_running_of_opened hs hsettled h hk hid
  refine ⟨?_, ?_, ?_, ?_, ?_, ?_, ?_, hs.ordered⟩
  · exact hclock ▸ hs.clock
  · exact hclock ▸ hs.pushes
  · intro k service hk
    show service.Told c.clock.current
    rw [hclock]
    rcases cases_of_opened h hk with hk | ⟨-, rfl⟩
    · exact hs.told k service hk
    · exact ⟨Nat.le_of_eq h.epoch, by rw [h.commands]; exact List.forall_mem_nil _⟩
  · intro network k hk
    have hk : c.attached.get? network = some k := hk
    rw [h.attached, Table.get?_insert] at hk
    split at hk
    · rename_i hn
      obtain rfl := Option.some.inj hk
      refine ⟨new, ?_, hn.symm⟩
      show c.services[s.control.services.length]? = some new
      rw [h.services, List.getElem?_append_right (Nat.le_refl _), Nat.sub_self]
      rfl
    · obtain ⟨service, hk', hid⟩ := hs.attached network k hk
      exact ⟨service, service?_of_opened h hk', hid⟩
  · intro j k service service' hj hk hid hr hr'
    rcases cases_of_opened h hj with hj | ⟨rfl, rfl⟩ <;>
      rcases cases_of_opened h hk with hk | ⟨rfl, rfl⟩
    · exact hs.alone j k service service' hj hk hid hr hr'
    · exact absurd hr (hover hj hid)
    · exact absurd hr' (hover hk hid.symm)
    · rfl
  · intro x hx k service hk hid hr
    rcases cases_of_opened h hk with hk | ⟨-, rfl⟩
    · exact hs.caughtUp x hx k service hk hid hr
    · obtain ⟨hle, hle'⟩ := hs.reached x hx
      rw [h.epoch]
      exact Nat.le_trans hle hle'
  · exact hclock ▸ hs.reached

end Opened

theorem Orderly.started {s : Situation τ} (h : s.Orderly) (hs : s.control.settled = true)
    {c : Control τ} (hc : s.control.Started c) : Orderly { s with control := c } := by
  obtain ⟨hclock, ⟨hservices, hattached⟩ | ⟨new, hnew⟩⟩ := hc
  · exact h.detached hclock hservices fun network k hk => hattached ▸ hk
  · exact h.opened hs hclock hnew

section Happenings

variable [Carrier τ]

/-- Something has happened to the service `k`, which was `service`: it has handed over the frames
`new`, all of them under the epoch it has now. -/
structure Served (k : Nat) (service : Service τ) (t : Turn) (new : List Signed)
    (s s' : Situation τ) : Prop where
  was : s.control.service? k = some service
  control : s'.control = s.control.modifyService k fun _ => service.turn t
  pushes : s'.pushes = s.pushes
  trail : s'.trail = s.trail ++ new
  mine : ∀ x ∈ new, x.service = k ∧ x.network = service.station.id ∧ service.Running
  epoch : ∀ x ∈ new, x.frame.epoch = (service.turn t).station.epoch
  current : ∀ x ∈ new, x.current = s.control.clock.current

theorem served_serve {s : Situation τ} {k : Nat} {service : Service τ}
    (hk : s.control.service? k = some service) (t : Turn) :
    ∃ new, Served k service t new s (s.serve k t) := by
  obtain ⟨new, hf, he⟩ := (service.signs_of_turn t).frames
  have hserve : s.serve k t = { s with
      control := s.control.modifyService k fun _ => service.turn t
      trail := s.trail ++ new.map fun f =>
        ⟨k, service.station.id, f.1, s.control.clock.current⟩ } := by
    unfold serve
    rw [hk]
    dsimp only
    rw [hf, List.drop_left]
  refine ⟨_, hk, by rw [hserve], by rw [hserve], by rw [hserve], fun x hx => ?_, fun x hx => ?_,
    fun x hx => ?_⟩ <;> obtain ⟨f, hm, rfl⟩ := List.mem_map.1 hx
  · refine ⟨rfl, rfl, Bool.eq_false_iff.2 fun ho => ?_⟩
    -- only a service that goes on hands anything over
    have hsame := hf.symm.trans (Service.frames_of_over ho t)
    rw [List.append_right_eq_self.1 hsame] at hm
    cases hm
  · exact he f hm
  · rfl

theorem serve_of_eq_none {s : Situation τ} {k : Nat} (h : s.control.service? k = none) (t : Turn) :
    s.serve k t = s := by
  unfold serve
  rw [h]

section Served

variable {s s' : Situation τ} {k : Nat} {service : Service τ} {t : Turn} {new : List Signed}

/-- A service is the one it was, or the one to which something has happened. -/
theorem Served.cases (h : Served k service t new s s') {j : Nat} {other : Service τ}
    (hj : s'.control.service? j = some other) :
    j ≠ k ∧ s.control.service? j = some other ∨ k = j ∧ other = service.turn t := by
  rw [h.control, Control.service?_modifyService] at hj
  obtain ⟨old, ho, rfl⟩ := Option.map_eq_some_iff.1 hj
  by_cases hjk : k = j
  · rw [if_pos hjk]
    exact .inr ⟨hjk, rfl⟩
  · rw [if_neg hjk]
    exact .inl ⟨Ne.symm hjk, ho⟩

theorem Served.self (h : Served k service t new s s') :
    s'.control.service? k = some (service.turn t) := by
  rw [h.control, Control.service?_modifyService, h.was]
  exact congrArg some (if_pos rfl)

theorem Served.other (h : Served k service t new s s') {j : Nat} (hj : j ≠ k) :
    s'.control.service? j = s.control.service? j := by
  rw [h.control, Control.service?_modifyService]
  cases s.control.service? j with
  | none => rfl
  | some old => exact congrArg some (if_neg (Ne.symm hj))

theorem Served.clock (h : Served k service t new s s') :
    s'.control.clock = s.control.clock := by
  rw [h.control]
  rfl

/-- A service keeps its network, and one that goes on went on before. -/
theorem Served.before (h : Served k service t new s s') {j : Nat} {other : Service τ}
    (hj : s'.control.service? j = some other) (hr : other.Running) :
    ∃ old, s.control.service? j = some old ∧ old.station.id = other.station.id ∧ old.Running ∧
      old.station.epoch ≤ other.station.epoch := by
  rcases h.cases hj with ⟨-, hj⟩ | ⟨rfl, rfl⟩
  · exact ⟨other, hj, rfl, hr, Nat.le_refl _⟩
  · have hsigns := service.signs_of_turn t
    exact ⟨service, h.was, hsigns.network.symm, Service.running_of_turn hr, hsigns.epoch⟩

theorem Served.attached (h : Served k service t new s s') (hs : s.Orderly) {network : NetworkId}
    {j : Nat} (hj : s'.control.attached.get? network = some j) :
    ∃ other, s'.control.service? j = some other ∧ other.station.id = network := by
  rw [h.control] at hj
  obtain ⟨old, ho, rfl⟩ := hs.attached network j hj
  by_cases hjk : j = k
  · subst hjk
    obtain rfl := Option.some.inj (h.was.symm.trans ho)
    exact ⟨_, h.self, (service.signs_of_turn t).network⟩
  · exact ⟨old, (h.other hjk).trans ho, rfl⟩

theorem Served.alone (h : Served k service t new s s') (hs : s.Orderly) {i j : Nat}
    {one other : Service τ} (hi : s'.control.service? i = some one)
    (hj : s'.control.service? j = some other) (hid : one.station.id = other.station.id)
    (hr : one.Running) (hr' : other.Running) : i = j := by
  obtain ⟨one', hi', hid₁, hr₁, -⟩ := h.before hi hr
  obtain ⟨other', hj', hid₂, hr₂, -⟩ := h.before hj hr'
  exact hs.alone i j one' other' hi' hj' (hid₁.trans (hid.trans hid₂.symm)) hr₁ hr₂

theorem Served.caughtUp (h : Served k service t new s s') (hs : s.Orderly) {x : Signed}
    (hx : x ∈ s'.trail) {j : Nat} {other : Service τ} (hj : s'.control.service? j = some other)
    (hid : other.station.id = x.network) (hr : other.Running) :
    x.frame.epoch ≤ other.station.epoch := by
  obtain ⟨old, ho, hid', hr', hle⟩ := h.before hj hr
  rw [h.trail] at hx
  rcases List.mem_append.1 hx with hx | hx
  · exact Nat.le_trans (hs.caughtUp x hx j old ho (hid'.trans hid) hr') hle
  · obtain ⟨-, hn, hrun⟩ := h.mine x hx
    -- no other service of the network goes on, so it is the one that has handed the frame over
    have hjk := hs.alone j k old service ho h.was (hid'.trans (hid.trans hn)) hr' hrun
    subst hjk
    obtain rfl := Option.some.inj (hj.symm.trans h.self)
    exact Nat.le_of_eq (h.epoch x hx)

theorem Served.ordered (h : Served k service t new s s') (hs : s.Orderly) :
    s'.trail.Pairwise fun x y => x.network = y.network → x.frame.epoch ≤ y.frame.epoch := by
  rw [h.trail]
  refine List.pairwise_append.2 ⟨hs.ordered, ?_, fun x hx y hy hxy => ?_⟩
  · refine List.pairwise_of_forall_mem_list fun x hx y hy _ => ?_
    exact Nat.le_of_eq ((h.epoch x hx).trans (h.epoch y hy).symm)
  · obtain ⟨-, hn, hr⟩ := h.mine y hy
    rw [h.epoch y hy]
    exact Nat.le_trans (hs.caughtUp x hx k service h.was (hn.symm.trans hxy.symm) hr)
      (service.signs_of_turn t).epoch

theorem Served.orderly (h : Served k service t new s s') (hs : s.Orderly)
    (ht : ∀ epoch, t.epoch? = some epoch → epoch ≤ s.control.clock.current) : s'.Orderly := by
  have htold := (hs.told k service h.was).turn ht
  refine ⟨?_, ?_, fun j other hj => ?_, fun network j hj => h.attached hs hj,
    fun i j one other hi hj hid hr hr' => h.alone hs hi hj hid hr hr',
    fun x hx j other hj hid hr => h.caughtUp hs hx hj hid hr, fun x hx => ?_, h.ordered hs⟩
  · rw [h.clock]
    exact hs.clock
  · rw [h.clock, h.pushes]
    exact hs.pushes
  · rw [h.clock]
    rcases h.cases hj with ⟨-, hj⟩ | ⟨-, rfl⟩
    · exact hs.told j other hj
    · exact htold
  · rw [h.clock]
    rw [h.trail] at hx
    rcases List.mem_append.1 hx with hx | hx
    · exact hs.reached x hx
    · rw [h.epoch x hx, h.current x hx]
      exact ⟨htold.station, Nat.le_refl _⟩

end Served

theorem Orderly.serve {s : Situation τ} (h : s.Orderly) (k : Nat) {t : Turn}
    (ht : ∀ epoch, t.epoch? = some epoch → epoch ≤ s.control.clock.current) :
    (s.serve k t).Orderly := by
  cases hk : s.control.service? k with
  | none => rwa [serve_of_eq_none hk]
  | some service =>
    obtain ⟨new, hserved⟩ := served_serve hk t
    exact hserved.orderly h ht

theorem orderly_happen {s : Situation τ} (h : s.Orderly) (x : Happening τ) :
    (s.happen x).Orderly := by
  have hstart : ∀ f : Control τ → Except DispatchError Nat × Control τ,
      s.control.Started (f s.control).2 → (s.start f).Orderly := by
    intro f hf
    unfold start
    split
    · rename_i hs
      exact h.started hs hf
    · exact h
  cases x with
  | synchronize wall => exact h.synchronize wall
  | arrive i =>
    unfold happen
    dsimp only
    split
    · exact h
    · rename_i push hp
      have hpush := h.pushes push (List.mem_of_getElem? hp)
      have hrest : Orderly { s with pushes := s.pushes.eraseIdx i } :=
        ⟨h.clock, fun p hm => h.pushes p (List.mem_of_mem_eraseIdx hm), h.told, h.attached,
          h.alone, h.caughtUp, h.reached, h.ordered⟩
      exact hrest.serve push.service fun epoch he => Option.some.inj he ▸ hpush
  | attach network carrier now =>
    exact hstart (·.attach network carrier now) (Control.started_attach _ network carrier now)
  | addNetwork settings carrier now =>
    exact hstart (·.addNetwork settings carrier now)
      (Control.started_addNetwork _ settings carrier now)
  | detach network =>
    refine h.detached ?_ ?_ ?_ <;> unfold Control.detach
    · split <;> rfl
    · split <;> rfl
    · split
      · exact fun _ _ hk => hk
      · intro other k hk
        have hk : (s.control.attached.erase network).get? other = some k := hk
        rw [Table.get?_erase] at hk
        split at hk
        · cases hk
        · exact hk
  | detachAll =>
    refine h.detached rfl rfl fun _ _ hk => ?_
    cases hk
  | turn k t ht =>
    refine h.serve k fun epoch he => ?_
    cases ht.symm.trans he

theorem orderly_after {s : Situation τ} (h : s.Orderly) (l : List (Happening τ)) :
    (s.after l).Orderly := by
  induction l generalizing s with
  | nil => exact h
  | cons x rest ih => exact ih (orderly_happen h x)

end Happenings

end Situation

end GroundControl
