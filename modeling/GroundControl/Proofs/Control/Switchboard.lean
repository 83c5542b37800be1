import Mathlib.Data.List.Nodup
import Mathlib.Data.List.Perm.Basic
import GroundControl.Proofs.Control.Orderly
import GroundControl.Proofs.Service.Numbers

/-!
# The networks of a control centre and its request numbers

Whatever is asked of a control centre, each of its declared networks has a name of its own and sound
settings, each attached network runs with the one entry that declares it, a call that fails changes
nothing, and no request number goes into two handles.

* `Declared`, what the declared networks have in common, with `declared_of_validate`,
  `Declared.declare`, `Declared.filter`;
* `Switchboard τ`, a control centre with the submissions on their way to its services;
  `Switchboard.Call`, `Switchboard.perform`, `Switchboard.after`;
* `Switchboard.Orderly`, the invariant, with `Orderly.opened`, `Orderly.serve`, `orderly_perform`;
* `Switchboard.unchanged_of_error`: a call that fails changes nothing;
* `Switchboard.Consistent`, `consistent_after`.
-/

namespace GroundControl

/-! ### Declared networks -/

/-- Different names, and sound settings. -/
structure Declared (networks : List NetworkSettings) : Prop where
  distinct : (networks.map (·.id)).Nodup
  valid : ∀ settings ∈ networks, settings.validate = .ok ()

theorem validateNetworks_eq_ok {taken : List NetworkId} {networks : List NetworkSettings}
    (h : ControlSettings.validateNetworks taken networks = .ok ()) :
    Declared networks ∧ ∀ settings ∈ networks, settings.id ∉ taken := by
  induction networks generalizing taken with
  | nil => exact ⟨⟨.nil, List.forall_mem_nil _⟩, List.forall_mem_nil _⟩
  | cons s rest ih =>
    unfold ControlSettings.validateNetworks at h
    cases hv : s.validate with
    | error e =>
      rw [hv] at h
      cases h
    | ok u =>
      rw [hv] at h
      dsimp only at h
      split at h
      · cases h
      · rename_i hfree
        obtain ⟨hrest, htaken⟩ := ih h
        refine ⟨⟨?_, ?_⟩, ?_⟩
        · refine List.nodup_cons.2 ⟨fun hm => ?_, hrest.distinct⟩
          obtain ⟨settings, hs, hid⟩ := List.mem_map.1 hm
          exact htaken settings hs (hid ▸ List.mem_cons_self)
        · exact List.forall_mem_cons.2 ⟨hv, hrest.valid⟩
        · exact List.forall_mem_cons.2
            ⟨hfree, fun settings hs ht => htaken settings hs (List.mem_cons_of_mem _ ht)⟩

theorem declared_of_validate {settings : ControlSettings} (h : settings.validate = .ok ()) :
    Declared settings.networks := by
  unfold ControlSettings.validate at h
  split at h
  · cases h
  · split at h
    · cases h
    · exact (validateNetworks_eq_ok h).1

namespace Declared

variable {networks : List NetworkSettings} {settings : NetworkSettings} {network : NetworkId}

/-- A network has one entry if it has any. -/
theorem filter_of_mem (h : Declared networks) (hm : settings ∈ networks) :
    networks.filter (·.id = settings.id) = [settings] := by
  have hnodup : (networks.filter (·.id = settings.id)).Nodup :=
    (List.Nodup.of_map _ h.distinct).filter _
  refine List.perm_singleton.1
    ((List.perm_ext_iff_of_nodup hnodup (List.nodup_singleton _)).2 fun other => ?_)
  rw [List.mem_filter, List.mem_singleton, decide_eq_true_iff]
  constructor
  · rintro ⟨hother, hid⟩
    exact List.inj_on_of_nodup_map h.distinct hother hm hid
  · rintro rfl
    exact ⟨hm, rfl⟩

theorem filter (h : Declared networks) (p : NetworkSettings → Bool) :
    Declared (networks.filter p) where
  distinct := h.distinct.sublist (List.filter_sublist.map _)
  valid := fun s hs => h.valid s (List.mem_of_mem_filter hs)

end Declared

section Declare

variable {networks : List NetworkSettings} {settings : NetworkSettings} {network : NetworkId}

theorem mem_declare {s : NetworkSettings} (h : s ∈ Control.declare settings networks) :
    s = settings ∨ s ∈ networks := by
  induction networks with
  | nil => exact .inl (List.mem_singleton.1 h)
  | cons t rest ih =>
    unfold Control.declare at h
    split at h
    · exact (List.mem_cons.1 h).imp_right (List.mem_cons_of_mem _)
    · rcases List.mem_cons.1 h with rfl | h
      · exact .inr List.mem_cons_self
      · exact (ih h).imp_right (List.mem_cons_of_mem _)

theorem self_mem_declare (settings : NetworkSettings) (networks : List NetworkSettings) :
    settings ∈ Control.declare settings networks := by
  induction networks with
  | nil => exact List.mem_singleton_self _
  | cons t rest ih =>
    unfold Control.declare
    split
    · exact List.mem_cons_self
    · exact List.mem_cons_of_mem _ ih

/-- The other networks keep their entries. -/
theorem filter_declare (h : network ≠ settings.id) :
    (Control.declare settings networks).filter (·.id = network) =
      networks.filter (·.id = network) := by
  have hne : ¬ (settings.id = network) := Ne.symm h
  induction networks with
  | nil => exact List.filter_cons_of_neg (by simpa using hne)
  | cons t rest ih =>
    unfold Control.declare
    split
    · rename_i ht
      rw [List.filter_cons_of_neg (by simpa using hne),
        List.filter_cons_of_neg (by simpa [ht] using hne)]
    · rw [List.filter_cons, List.filter_cons, ih]

theorem Declared.declare (h : Declared networks) (hv : settings.validate = .ok ()) :
    Declared (Control.declare settings networks) where
  distinct := by
    obtain ⟨hdistinct, -⟩ := h
    induction networks with
    | nil => exact List.nodup_singleton _
    | cons t rest ih =>
      obtain ⟨ht, hrest⟩ := List.nodup_cons.1 hdistinct
      unfold Control.declare
      split
      · rename_i hid
        refine List.nodup_cons.2 ⟨?_, hrest⟩
        show settings.id ∉ _
        rw [← hid]
        exact ht
      · rename_i hid
        refine List.nodup_cons.2 ⟨fun hm => ?_, ih hrest⟩
        obtain ⟨s, hs, hsid⟩ := List.mem_map.1 hm
        rcases mem_declare hs with rfl | hs
        · exact hid hsid.symm
        · exact ht (List.mem_map.2 ⟨s, hs, hsid⟩)
  valid := fun s hs => (mem_declare hs).elim (fun he => he ▸ hv) (h.valid s)

end Declare

/-! ### Calls -/

/-- A control centre and the submissions on their way to its services. -/
structure Switchboard (τ : Type) where
  control : Control τ
  /-- the orders that have not reached their service yet -/
  posted : List (Nat × Command)

namespace Switchboard

variable {τ : Type}

/-- What can be asked of a control centre, and what can happen to its services. -/
inductive Call (τ : Type)
  | attach (network : NetworkId) (carrier : τ) (now : Instant)
  | addNetwork (settings : NetworkSettings) (carrier : τ) (now : Instant)
  | detach (network : NetworkId)
  | detachAll
  | synchronize (wall : WallTime)
  | submit (network : NetworkId) (agent : AgentId) (payload : Payload) (urgency : Urgency)
      (maxAttempts : Nat) (call : Option CallId)
  /-- one of the submissions on their way reaches its service -/
  | arrive (i : Nat)
  /-- anything that can happen to a service, but that nobody else submits a request -/
  | turn (k : Nat) (t : Turn) (h : t.submission? = none)

variable [Carrier τ]

/-- Something happens to the service with a number. -/
def serve (s : Switchboard τ) (k : Nat) (t : Turn) : Switchboard τ :=
  { s with control := s.control.modifyService k (·.turn t) }

/-- What the caller is told at once, and what becomes of the switchboard. -/
def perform (s : Switchboard τ) : Call τ → Except DispatchError Unit × Switchboard τ
  | .attach network carrier now =>
      let (answer, control) := s.control.attach network carrier now
      (answer.map fun _ => (), { s with control })
  | .addNetwork settings carrier now =>
      let (answer, control) := s.control.addNetwork settings carrier now
      (answer.map fun _ => (), { s with control })
  | .detach network =>
      let (answer, control) := s.control.detach network
      (answer.map fun _ => (), { s with control })
  | .detachAll => (.ok (), { s with control := s.control.detachAll.2 })
  | .synchronize wall => (.ok (), { s with control := (s.control.synchronize wall).2 })
  | .submit network agent payload urgency maxAttempts call =>
      match s.control.serviceOf network with
      | .error e => (.error e, s)
      | .ok k =>
          let (request, control) := s.control.nextRequest
          let order : Order := .submit request agent payload urgency maxAttempts
          (.ok (), ⟨control, s.posted ++ [(k, ⟨order, call⟩)]⟩)
  | .arrive i =>
      match s.posted[i]? with
      | none => (.ok (), s)
      | some (k, c) => (.ok (), { s with posted := s.posted.eraseIdx i }.serve k (.order c))
  | .turn k t _ => (.ok (), s.serve k t)

/-- What becomes of a switchboard in several calls, one after the other. -/
def after (s : Switchboard τ) (calls : List (Call τ)) : Switchboard τ :=
  calls.foldl (fun s c => (s.perform c).2) s

/-! ### A call that fails -/

omit [Carrier τ] in
theorem start_error {c : Control τ} {settings : NetworkSettings} {carrier : τ} {now : Instant}
    {e : DispatchError} (h : (c.start settings carrier now).1 = .error e) :
    (c.start settings carrier now).2 = c := by
  unfold Control.start at h ⊢
  split
  · rfl
  · rename_i hn
    rw [if_neg hn] at h
    cases h

omit [Carrier τ] in
theorem attach_error {c : Control τ} {network : NetworkId} {carrier : τ} {now : Instant}
    {e : DispatchError} (h : (c.attach network carrier now).1 = .error e) :
    (c.attach network carrier now).2 = c := by
  unfold Control.attach at h ⊢
  cases hs : c.settingsOf network with
  | error e => rfl
  | ok settings =>
    rw [hs] at h
    exact start_error h

omit [Carrier τ] in
theorem addNetwork_error {c : Control τ} {settings : NetworkSettings} {carrier : τ}
    {now : Instant} {e : DispatchError} (h : (c.addNetwork settings carrier now).1 = .error e) :
    (c.addNetwork settings carrier now).2 = c := by
  unfold Control.addNetwork at h ⊢
  cases hv : settings.validate with
  | error e => rfl
  | ok u =>
    rw [hv] at h
    dsimp only at h ⊢
    cases hc : c.start settings carrier now with
    | mk result c' =>
      rw [hc] at h
      cases result with
      | ok k => cases h
      | error e' =>
        have hsame := start_error (c := c) (e := e') (by rw [hc])
        rw [hc] at hsame
        exact hsame

omit [Carrier τ] in
theorem detach_error {c : Control τ} {network : NetworkId} {e : DispatchError}
    (h : (c.detach network).1 = .error e) : (c.detach network).2 = c := by
  unfold Control.detach at h ⊢
  cases ha : c.attached.get? network with
  | none => rfl
  | some k =>
    rw [ha] at h
    cases h

theorem map_eq_error {α : Type} {result : Except DispatchError α} {e : DispatchError}
    (h : (result.map fun _ => ()) = .error e) : result = .error e := by
  cases result with
  | error e' => exact congrArg _ (Except.error.inj h)
  | ok a => cases h

/-- A call that fails changes nothing. -/
theorem unchanged_of_error {s : Switchboard τ} {c : Call τ} {e : DispatchError}
    (h : (s.perform c).1 = .error e) : (s.perform c).2 = s := by
  cases c with
  | attach network carrier now =>
    exact congrArg (Switchboard.mk · s.posted) (attach_error (map_eq_error h))
  | addNetwork settings carrier now =>
    exact congrArg (Switchboard.mk · s.posted) (addNetwork_error (map_eq_error h))
  | detach network => exact congrArg (Switchboard.mk · s.posted) (detach_error (map_eq_error h))
  | detachAll | synchronize | turn => cases h
  | submit network agent payload urgency maxAttempts call =>
    unfold perform at h ⊢
    dsimp only at h ⊢
    cases hk : s.control.serviceOf network with
    | error e => rfl
    | ok k =>
      rw [hk] at h
      cases h
  | arrive i =>
    unfold perform at h
    dsimp only at h
    cases hp : s.posted[i]? with
    | none => rw [hp] at h; cases h
    | some p => rw [hp] at h; cases h

/-! ### What every call keeps -/

/-- The numbers that were given out: in handles, in orders that wait, and in orders on their way. -/
def numbers (s : Switchboard τ) : List RequestId :=
  s.control.services.flatMap Service.numbers ++ s.posted.filterMap (·.2.order.submission?)

/-- Every attached network has a service that runs with the only entry that declares the network,
and every request number is given out once. -/
structure Orderly (s : Switchboard τ) : Prop where
  declared : Declared s.control.settings.networks
  attached : ∀ network k, s.control.attached.get? network = some k →
    ∃ service, s.control.service? k = some service ∧
      s.control.settings.networks.filter (·.id = network) = [service.station.settings]
  numbers : ∀ n, s.numbers.count n ≤ if n ≤ s.control.requests then 1 else 0

omit [Carrier τ] in
theorem orderly_new {settings : ControlSettings} {c : Control τ}
    (h : Control.new settings = .ok c) : Orderly ⟨c, []⟩ := by
  unfold Control.new at h
  split at h
  · cases h
  · rename_i hv
    cases h
    exact ⟨declared_of_validate hv, nofun, fun n => Nat.zero_le _⟩

section Steps

variable {s : Switchboard τ} {c : Control τ}

omit [Carrier τ] in
/-- A new service runs with the entry that declares its network. -/
theorem Orderly.opened (h : s.Orderly) {new : Service τ} (ho : s.control.Opened new c)
    (hd : Declared c.settings.networks) (hm : new.station.settings ∈ c.settings.networks)
    (hothers : ∀ network, network ≠ new.station.id →
      c.settings.networks.filter (·.id = network) =
        s.control.settings.networks.filter (·.id = network))
    (hr : c.requests = s.control.requests) (hn : new.numbers = []) :
    Orderly { s with control := c } := by
  refine ⟨hd, fun network k hk => ?_, fun n => ?_⟩
  · change c.attached.get? network = some k at hk
    rw [ho.attached, Table.get?_insert] at hk
    split at hk
    · rename_i hnetwork
      cases hk
      refine ⟨new, ?_, ?_⟩
      · show c.services[_]? = _
        rw [ho.services, List.getElem?_concat_length]
      · rw [hnetwork]
        exact hd.filter_of_mem hm
    · rename_i hnetwork
      obtain ⟨service, hs, hf⟩ := h.attached network k hk
      exact ⟨service, Situation.service?_of_opened (s := .begin s.control) ho hs,
        (hothers network hnetwork).trans hf⟩
  · show List.count n (c.services.flatMap Service.numbers ++ _) ≤ _
    rw [ho.services, List.flatMap_append, List.flatMap_singleton, hn, List.append_nil, hr]
    exact h.numbers n

omit [Carrier τ] in
/-- What an attempt to start a service comes to if it succeeds. -/
theorem opened_start {settings : NetworkSettings} {carrier : τ} {now : Instant} {k : Nat}
    (h : (c.start settings carrier now).1 = .ok k) :
    ∃ new, c.Opened new (c.start settings carrier now).2 ∧ new.station.settings = settings ∧
      (c.start settings carrier now).2.settings = c.settings ∧
      (c.start settings carrier now).2.requests = c.requests ∧ new.numbers = [] := by
  unfold Control.start at h ⊢
  split
  · rename_i hc
    rw [if_pos hc] at h
    cases h
  · rename_i hc
    have hn : c.attached.get? settings.id = none := by simpa [Table.contains] using hc
    exact ⟨.new ((Station.new settings carrier now).adoptEpoch c.clock.current) now,
      ⟨hn, rfl, rfl, Nat.zero_max _, rfl⟩, rfl, rfl, rfl, rfl⟩

omit [Carrier τ] in
theorem Orderly.attach (h : s.Orderly) (network : NetworkId) (carrier : τ) (now : Instant) :
    Orderly { s with control := (s.control.attach network carrier now).2 } := by
  cases hr : (s.control.attach network carrier now).1 with
  | error e =>
    rw [attach_error hr]
    exact h
  | ok k =>
    unfold Control.attach Control.settingsOf at hr ⊢
    cases hf : s.control.settings.networks.find? fun t => t.id = network with
    | none =>
      rw [hf] at hr
      cases hr
    | some settings =>
      rw [hf] at hr
      obtain ⟨new, ho, hsettings, hsame, hrequests, hnumbers⟩ := opened_start hr
      refine h.opened ho ?_ ?_ ?_ hrequests hnumbers
      · rw [hsame]
        exact h.declared
      · rw [hsame, hsettings]
        exact List.mem_of_find?_eq_some hf
      · rw [hsame]
        exact fun _ _ => rfl

omit [Carrier τ] in
theorem Orderly.addNetwork (h : s.Orderly) (settings : NetworkSettings) (carrier : τ)
    (now : Instant) :
    Orderly { s with control := (s.control.addNetwork settings carrier now).2 } := by
  cases hr : (s.control.addNetwork settings carrier now).1 with
  | error e =>
    rw [addNetwork_error hr]
    exact h
  | ok k =>
    unfold Control.addNetwork at hr ⊢
    cases hv : settings.validate with
    | error e =>
      rw [hv] at hr
      cases hr
    | ok u =>
      rw [hv] at hr
      dsimp only at hr ⊢
      cases hc : s.control.start settings carrier now with
      | mk result c' =>
        rw [hc] at hr
        cases result with
        | error e => cases hr
        | ok k' =>
          have hstart : (s.control.start settings carrier now).1 = .ok k' := by rw [hc]
          obtain ⟨new, ho, hsettings, hsame, hrequests, hnumbers⟩ := opened_start hstart
          rw [hc] at ho hsame hrequests
          dsimp only at ho hsame hrequests ⊢
          refine h.opened ⟨ho.vacant, ho.attached, ho.services, ho.epoch, ho.commands⟩ ?_ ?_ ?_
            hrequests hnumbers
          · dsimp only
            rw [hsame]
            exact h.declared.declare hv
          · dsimp only
            rw [hsettings]
            exact self_mem_declare settings _
          · intro network hne
            have hid : new.station.id = settings.id := congrArg NetworkSettings.id hsettings
            rw [hid] at hne
            dsimp only
            rw [hsame]
            exact filter_declare hne

omit [Carrier τ] in
/-- Letting go of services changes neither them nor the entries of the networks that stay. -/
theorem Orderly.detached (h : s.Orderly) (hservices : c.services = s.control.services)
    (hr : c.requests = s.control.requests) (hd : Declared c.settings.networks)
    (ha : ∀ network k, c.attached.get? network = some k →
      s.control.attached.get? network = some k ∧
        c.settings.networks.filter (·.id = network) =
          s.control.settings.networks.filter (·.id = network)) :
    Orderly { s with control := c } := by
  refine ⟨hd, fun network k hk => ?_, fun n => ?_⟩
  · obtain ⟨hk, hf⟩ := ha network k hk
    obtain ⟨service, hs, hf'⟩ := h.attached network k hk
    refine ⟨service, ?_, hf.trans hf'⟩
    show c.services[k]? = _
    rw [hservices]
    exact hs
  · show List.count n (c.services.flatMap Service.numbers ++ _) ≤ if n ≤ c.requests then 1 else 0
    rw [hservices, hr]
    exact h.numbers n

omit [Carrier τ] in
theorem Orderly.detach (h : s.Orderly) (network : NetworkId) :
    Orderly { s with control := (s.control.detach network).2 } := by
  unfold Control.detach
  cases ha : s.control.attached.get? network with
  | none => exact h
  | some k =>
    refine h.detached rfl rfl (h.declared.filter _) fun other j hj => ?_
    rw [Table.get?_erase] at hj
    split at hj
    · cases hj
    · rename_i hne
      refine ⟨hj, ?_⟩
      dsimp only
      rw [List.filter_filter]
      refine List.filter_congr fun settings _ => ?_
      -- an entry of the other network is not one of this
      by_cases hid : settings.id = other
      · have hid' : settings.id ≠ network := fun he => hne (hid.symm.trans he)
        simp [hid, hne]
      · simp [hid]

/-- Something happens to a service; if a request is submitted, its number was on its way. -/
theorem Orderly.serve (h : s.Orderly) {posted : List (Nat × Command)} (k : Nat) (t : Turn)
    (hposted : ∀ n, (posted.filterMap (·.2.order.submission?)).count n +
        t.submission?.toList.count n ≤
      (s.posted.filterMap (·.2.order.submission?)).count n) :
    Orderly ({ s with posted }.serve k t) := by
  refine ⟨h.declared, fun network j hj => ?_, fun n => ?_⟩
  · obtain ⟨service, hs, hf⟩ := h.attached network j hj
    refine ⟨if k = j then service.turn t else service, ?_, ?_⟩
    · show (s.control.modifyService k (·.turn t)).service? j = _
      rw [Control.service?_modifyService, hs]
      rfl
    · refine hf.trans ?_
      split
      · rw [Service.settings_turn]
      · rfl
  · have hservices : ((s.control.services.modify k (·.turn t)).flatMap Service.numbers).count n ≤
        (s.control.services.flatMap Service.numbers).count n + t.submission?.toList.count n := by
      rcases Nat.lt_or_ge k s.control.services.length with hlt | hge
      · obtain ⟨before, service, later, hl, -, hm⟩ := List.exists_of_modify (·.turn t) hlt
        rw [hm, hl, List.flatMap_append, List.flatMap_append, List.flatMap_cons,
          List.flatMap_cons]
        simp only [List.count_append]
        have hturn := Service.count_numbers_turn service t n
        omega
      · rw [List.modify_eq_self hge]
        exact Nat.le_add_right _ _
    have hn := h.numbers n
    unfold Switchboard.numbers at hn
    rw [List.count_append] at hn
    show List.count n ((s.control.services.modify k (·.turn t)).flatMap Service.numbers ++
      posted.filterMap _) ≤ if n ≤ s.control.requests then 1 else 0
    rw [List.count_append]
    have hp := hposted n
    omega

omit [Carrier τ] in
/-- A submission is numbered, and the number goes on its way. -/
theorem Orderly.post (h : s.Orderly) (k : Nat) {command : Command}
    (hc : command.order.submission? = some (s.control.requests + 1)) :
    Orderly ⟨s.control.nextRequest.2, s.posted ++ [(k, command)]⟩ := by
  refine ⟨h.declared, h.attached, fun n => ?_⟩
  have hn := h.numbers n
  have hnumbers :
      Switchboard.numbers ⟨s.control.nextRequest.2, s.posted ++ [(k, command)]⟩ =
        s.numbers ++ [s.control.requests + 1] := by
    unfold Switchboard.numbers
    rw [List.filterMap_append, ← List.append_assoc, List.filterMap_cons, hc]
    rfl
  rw [hnumbers, List.count_append]
  show _ ≤ if n ≤ s.control.requests + 1 then 1 else 0
  by_cases he : n = s.control.requests + 1
  · subst he
    rw [if_neg (Nat.not_succ_le_self _)] at hn
    rw [List.count_singleton_self, if_pos (Nat.le_refl _)]
    exact Nat.add_le_add_right hn 1
  · rw [List.count_singleton, if_neg (by simpa using Ne.symm he), Nat.add_zero]
    refine Nat.le_trans hn ?_
    split
    · rename_i hle
      exact Nat.le_of_eq (if_pos (Nat.le_succ_of_le hle)).symm
    · exact Nat.zero_le _

end Steps

theorem orderly_perform {s : Switchboard τ} (h : s.Orderly) (c : Call τ) :
    Orderly (s.perform c).2 := by
  cases c with
  | attach network carrier now => exact h.attach network carrier now
  | addNetwork settings carrier now => exact h.addNetwork settings carrier now
  | detach network => exact h.detach network
  | detachAll => exact h.detached rfl rfl h.declared nofun
  | synchronize wall => exact h.detached rfl rfl h.declared fun _ _ hk => ⟨hk, rfl⟩
  | submit network agent payload urgency maxAttempts call =>
    unfold perform
    dsimp only
    cases s.control.serviceOf network with
    | error e => exact h
    | ok k => exact h.post k rfl
  | arrive i =>
    unfold perform
    dsimp only
    cases hp : s.posted[i]? with
    | none => exact h
    | some p =>
      refine h.serve p.1 (.order p.2) fun n => ?_
      obtain ⟨hlt, he⟩ := List.getElem?_eq_some_iff.1 hp
      have hperm := (List.getElem_cons_eraseIdx_perm hlt).filterMap (·.2.order.submission?)
      rw [← hperm.count_eq, he, List.filterMap_cons]
      show _ + p.2.order.submission?.toList.count n ≤ _
      cases p.2.order.submission? with
      | none => exact Nat.le_refl _
      | some m =>
        refine Nat.le_of_eq ?_
        rw [List.count_cons, Option.toList_some, List.count_singleton]
  | turn k t ht =>
    refine h.serve k t fun n => ?_
    rw [ht]
    exact Nat.le_refl _

theorem orderly_after {s : Switchboard τ} (h : s.Orderly) (calls : List (Call τ)) :
    (s.after calls).Orderly := by
  induction calls generalizing s with
  | nil => exact h
  | cons c rest ih => exact ih (orderly_perform h c)

/-! ### Consistency -/

/-- The handles that all services have given out. -/
def handles (s : Switchboard τ) : List Handle := s.control.services.flatMap (·.handles)

/-- What holds of a control centre at any time. -/
structure Consistent (s : Switchboard τ) : Prop where
  distinct : (s.control.settings.networks.map (·.id)).Nodup
  valid : ∀ settings ∈ s.control.settings.networks, settings.validate = .ok ()
  /-- an attached network runs with the one entry that declares it, which a look-up finds -/
  attached : ∀ network k, s.control.attached.get? network = some k →
    ∃ service, s.control.service? k = some service ∧
      s.control.settings.networks.filter (·.id = network) = [service.station.settings] ∧
      s.control.settingsOf network = .ok service.station.settings
  increasing : s.control.networks.Pairwise (· < ·)
  /-- a call that fails changes nothing -/
  unchanged : ∀ c e, (s.perform c).1 = .error e → (s.perform c).2 = s
  /-- the requests of all handles have different numbers -/
  numbered : (s.handles.map (·.request)).Nodup
  /-- none beyond the numbers that were given out -/
  bounded : ∀ handle ∈ s.handles, handle.request ≤ s.control.requests

omit [Carrier τ] in
theorem count_handles_le (s : Switchboard τ) (n : RequestId) :
    (s.handles.map (·.request)).count n ≤ s.numbers.count n := by
  unfold handles numbers
  rw [List.count_append]
  refine Nat.le_trans ?_ (Nat.le_add_right _ _)
  induction s.control.services with
  | nil => exact Nat.le_refl _
  | cons service rest ih =>
    rw [List.flatMap_cons, List.flatMap_cons, List.map_append, List.count_append,
      List.count_append]
    exact Nat.add_le_add (service.sublist_numbers.count_le n) ih

theorem Orderly.consistent {s : Switchboard τ} (h : s.Orderly) : s.Consistent := by
  have hcount := fun n => Nat.le_trans (s.count_handles_le n) (h.numbers n)
  constructor
  case distinct => exact h.declared.distinct
  case valid => exact h.declared.valid
  case attached =>
    intro network k hk
    obtain ⟨service, hs, hf⟩ := h.attached network k hk
    refine ⟨service, hs, hf, ?_⟩
    have hfind : s.control.settings.networks.find? (fun t => t.id = network) =
        some service.station.settings := by
      rw [← List.head?_filter, hf]
      rfl
    unfold Control.settingsOf
    rw [hfind]
  case increasing => exact s.control.attached.sorted.map _ fun _ _ hlt => hlt
  case unchanged => exact fun c e => unchanged_of_error
  case numbered =>
    refine List.nodup_iff_count_le_one.2 fun n => Nat.le_trans (hcount n) ?_
    split
    · exact Nat.le_refl _
    · exact Nat.zero_le _
  case bounded =>
    intro handle hm
    refine Nat.le_of_not_lt fun hlt => ?_
    have hzero := hcount handle.request
    rw [if_neg (Nat.not_le.2 hlt)] at hzero
    have hpos := List.count_pos_iff.2 (List.mem_map.2 ⟨handle, hm, rfl⟩ :
      handle.request ∈ s.handles.map (·.request))
    omega

/-- Whatever is asked of a control centre and whatever happens to its services, its networks and its
request numbers stay consistent. -/
theorem consistent_after {settings : ControlSettings} {c : Control τ}
    (h : Control.new settings = .ok c) (calls : List (Call τ)) :
    (after ⟨c, []⟩ calls).Consistent :=
  (orderly_after (orderly_new h) calls).consistent

/-- A network is attached, and cannot be attached again with other settings before it is removed.  A
request is submitted to it, one that reaches it only after it was removed, and one to its
successor. -/
def replaced : List (Call Pipe) :=
  [.attach "beta" (.new "down" 4) 0,
    .attach "alpha" (.new "up" 4) 0,
    .addNetwork { id := "alpha", attempts := 5 } (.new "up" 4) 0,
    .turn 0 (.receive (.heartbeat "alpha" 1)) rfl,
    .turn 0 (.poll .plain 0 0) rfl,
    .submit "alpha" 1 (.oneWay [7]) .normal 0 (some 1),
    .arrive 0,
    .turn 0 (.poll .plain 0 0) rfl,
    .submit "alpha" 1 (.oneWay [8]) .normal 0 (some 2),
    .detach "alpha",
    .submit "alpha" 1 (.oneWay [9]) .normal 0 (some 3),
    .addNetwork { id := "alpha", attempts := 5 } (.new "up" 4) 0,
    .arrive 0,
    .turn 0 (.order ⟨.stop, none⟩) rfl,
    .turn 0 (.poll .plain 0 0) rfl,
    .turn 0 (.poll .plain 0 0) rfl,
    .turn 1 (.receive (.heartbeat "alpha" 2)) rfl,
    .turn 1 (.poll .plain 0 0) rfl,
    .submit "alpha" 2 (.oneWay [10]) .normal 0 (some 4),
    .arrive 0,
    .turn 1 (.poll .plain 0 0) rfl]

theorem consistent_after_replaced :
    ∃ c : Control Pipe, Control.new { networks := [{ id := "alpha" }] } = .ok c ∧
      ((after ⟨c, []⟩ replaced).handles.map (·.request) = [1, 2, 3] ∧
        (after ⟨c, []⟩ replaced).control.attached.get? "alpha" = some 1 ∧
        (after ⟨c, []⟩ replaced).control.settings.networks.map (fun s => (s.id, s.attempts)) =
          [("alpha", 5)]) ∧
      (after ⟨c, []⟩ replaced).Consistent := by
  have hnew : Control.new { networks := [{ id := "alpha" }] } =
      .ok (⟨{ networks := [{ id := "alpha" }] }, ∅, [], 0, .new⟩ : Control Pipe) := rfl
  exact ⟨_, hnew, by decide +kernel, consistent_after hnew replaced⟩

end Switchboard

end GroundControl
