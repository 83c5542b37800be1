import GroundControl.Proofs.Simulation.Callers

/-!
# What holds of the simulated world

Between the turns of its tasks the simulated world is in order: the attached networks have their
services, all answers were taken over, and the calls that wait for one are among those made.

* `Service.Tidy`, what holds of each service; `Tidy.deed`;
* `Control.Staffed.opened`, `Staffed.attach`, `Staffed.addNetwork`, `Staffed.deeds`;
* `World.Regular`; `regular_new`, `Regular.attach`, `Regular.addNetwork`, and `Regular.leads`: what
  happens to the services keeps it.
-/

namespace GroundControl

/-! ### The services -/

namespace Service

/-- What holds of a service between its turns once `n` calls were made. -/
structure Tidy {τ : Type} (n : CallId) (s : Service τ) : Prop where
  patient : s.Patient
  /-- every answer was taken over -/
  heard : s.answers = []
  calls : ∀ call ∈ s.calls, call < n

variable {τ : Type} {s : Service τ} {m n : CallId}

theorem tidy_new (station : Station τ) (now : Instant) (n : CallId) : (new station now).Tidy n :=
  ⟨nofun, rfl, nofun⟩

theorem Tidy.mono (h : s.Tidy m) (hmn : m ≤ n) : s.Tidy n :=
  ⟨h.patient, h.heard, fun call hc => Nat.lt_of_lt_of_le (h.calls call hc) hmn⟩

section Turns

variable [Carrier τ] {l : List Turn} {call : CallId}

/-- A call that waits was made before or meanwhile. -/
theorem mem_calls_turns (h : call ∈ (s.turns l).calls) : call ∈ s.calls ∨ call ∈ callsOf l := by
  induction l generalizing s with
  | nil => exact .inl h
  | cons t rest ih =>
    rw [callsOf_cons, List.mem_append, Option.mem_toList]
    obtain hc | hc := ih h
    · exact (mem_calls_turn hc).imp_right .inl
    · exact .inr (.inr hc)

/-- So was one that is answered. -/
theorem mem_calls_of_mem_answers (hs : s.answers = []) {answer : Answer}
    (h : (call, answer) ∈ (s.turns l).answers) : call ∈ s.calls ∨ call ∈ callsOf l := by
  by_contra hnot
  obtain ⟨hwaits, hmade⟩ := not_or.1 hnot
  have hnone : (s.turns l).answers.lookup call = none := by
    rw [(framesFor_of_absent hwaits hmade).2.1, hs]
    rfl
  simpa using List.lookup_eq_none_iff.1 hnone _ h

end Turns

theorem callsOf_turns (d : Deed) : callsOf d.turns = (d.command?.bind (·.call)).toList := by
  cases d with
  | order c => exact callsOf_cons (.order c) [] |>.trans (List.append_nil _)
  | work n now rung => exact List.filterMap_replicate_of_none rfl
  | receive | read | close => rfl

/-- A call that waits or is answered after a deed was made before, or is made in it. -/
theorem Tidy.lt_of_turns (h : s.Tidy n) {d : Deed} {call : CallId}
    (hd : ∀ c, d.command? = some c → c.call = some call → call < n)
    (hc : call ∈ s.calls ∨ call ∈ callsOf d.turns) : call < n := by
  obtain hc | hc := hc
  · exact h.calls call hc
  · rw [callsOf_turns, Option.mem_toList] at hc
    obtain ⟨c, hcommand, hcall⟩ := Option.bind_eq_some_iff.1 hc
    exact hd c hcommand hcall

/-- What happens to a service leaves it tidy, unless a call is out of order. -/
theorem Tidy.deed {s : Service Pipe} (h : s.Tidy n) {d : Deed}
    (hd : ∀ c call, d.command? = some c → c.call = some call → call < n) : (s.deed d).Tidy n where
  patient := by
    have hturns := patient_turns h.patient d.turns
    cases d <;> exact hturns
  heard := answers_deed h.heard d
  calls := by
    intro call hc
    have hturns : call ∈ (s.turns d.turns).calls := by cases d <;> exact hc
    exact h.lt_of_turns (fun c => hd c call) (mem_calls_turns hturns)

/-- The answers that are taken over meanwhile are to calls that were made. -/
theorem Tidy.given {s : Service Pipe} (h : s.Tidy n) {d : Deed} : ∀ e ∈ s.given d, e.1 < n := by
  intro e he
  cases d with
  | work k now rung =>
    exact h.lt_of_turns (d := .work k now rung) nofun (mem_calls_of_mem_answers h.heard he)
  | order | receive | read | close => cases he

end Service

/-! ### The control centre -/

namespace Control

variable {τ : Type} {c c' : Control τ}

/-- A new service is there for its network, and the others are for theirs. -/
theorem Staffed.opened (h : c.Staffed) {new : Service τ} (ho : c.Opened new c')
    (hnew : c'.settingsOf new.station.id = .ok new.station.settings)
    (hothers : ∀ network, network ≠ new.station.id → c'.settingsOf network = c.settingsOf network) :
    c'.Staffed := by
  intro network k hk
  rw [ho.attached, Table.get?_insert] at hk
  split at hk
  · rename_i hnetwork
    cases hk
    refine ⟨new, ?_, hnetwork.symm, hnetwork ▸ hnew⟩
    show c'.services[_]? = _
    rw [ho.services, List.getElem?_concat_length]
  · rename_i hnetwork
    obtain ⟨service, hs, hid, hsettings⟩ := h network k hk
    exact ⟨service, Situation.service?_of_opened (s := .begin c) ho hs, hid,
      (hothers network hnetwork).trans hsettings⟩

theorem Staffed.attach (h : c.Staffed) (network : NetworkId) (carrier : τ) (now : Instant) :
    (c.attach network carrier now).2.Staffed := by
  cases hr : (c.attach network carrier now).1 with
  | error e =>
    rw [Switchboard.attach_error hr]
    exact h
  | ok k =>
    unfold Control.attach at hr ⊢
    cases hs : c.settingsOf network with
    | error e =>
      rw [hs] at hr
      cases hr
    | ok settings =>
      rw [hs] at hr
      obtain ⟨new, ho, hsettings, hsame, -, -⟩ := Switchboard.opened_start hr
      have hid : settings.id = network := by
        unfold settingsOf at hs
        split at hs
        · cases hs
        · rename_i hf
          cases hs
          simpa using List.find?_some hf
      have hsettingsOf : ∀ network,
          (c.start settings carrier now).2.settingsOf network = c.settingsOf network := by
        intro network
        unfold settingsOf
        rw [hsame]
      refine h.opened ho ?_ fun network _ => hsettingsOf network
      rw [hsettingsOf, hsettings, ← hs, ← hid, ← hsettings]
      rfl

theorem find?_declare_self (settings : NetworkSettings) (networks : List NetworkSettings) :
    (declare settings networks).find? (fun s => s.id = settings.id) = some settings := by
  have hself : decide (settings.id = settings.id) = true := decide_eq_true rfl
  induction networks with
  | nil => exact List.find?_cons_of_pos hself
  | cons s rest ih =>
    unfold declare
    split
    · exact List.find?_cons_of_pos hself
    · rename_i hid
      exact (List.find?_cons_of_neg (by simpa using hid)).trans ih

theorem find?_declare_of_ne {settings : NetworkSettings} {network : NetworkId}
    (h : network ≠ settings.id) (networks : List NetworkSettings) :
    (declare settings networks).find? (fun s => s.id = network) =
      networks.find? fun s => s.id = network := by
  rw [← List.head?_filter, filter_declare h, List.head?_filter]

theorem Staffed.addNetwork (h : c.Staffed) (settings : NetworkSettings) (carrier : τ)
    (now : Instant) : (c.addNetwork settings carrier now).2.Staffed := by
  cases hr : (c.addNetwork settings carrier now).1 with
  | error e =>
    rw [Switchboard.addNetwork_error hr]
    exact h
  | ok k =>
    unfold Control.addNetwork at hr ⊢
    cases hv : settings.validate with
    | error e =>
      rw [hv] at hr
      cases hr
    | ok u =>
      rw [hv] at hr
      dsimp only at hr ⊢
      cases hc : c.start settings carrier now with
      | mk result c' =>
        rw [hc] at hr
        cases result with
        | error e => cases hr
        | ok k' =>
          have hstart : (c.start settings carrier now).1 = .ok k' := by rw [hc]
          obtain ⟨new, ho, rfl, hsame, -, -⟩ := Switchboard.opened_start hstart
          rw [hc] at ho hsame
          dsimp only at ho hsame ⊢
          refine h.opened ⟨ho.vacant, ho.attached, ho.services, ho.epoch, ho.commands⟩ ?_ ?_
          · unfold settingsOf
            dsimp only
            rw [show new.station.id = new.station.settings.id from rfl, find?_declare_self]
          · intro network hne
            unfold settingsOf
            dsimp only
            rw [hsame, find?_declare_of_ne hne]

/-- A change to a service that keeps its settings. -/
theorem Staffed.modify (h : c.Staffed) {f : Service τ → Service τ}
    (hf : ∀ s, (f s).station.settings = s.station.settings) (k : Nat) :
    (c.modifyService k f).Staffed := by
  intro network j hj
  obtain ⟨service, hs, hid, hsettings⟩ := h network j hj
  have hkeeps : (if k = j then f service else service).station.settings =
      service.station.settings := by
    split
    · exact hf service
    · rfl
  refine ⟨if k = j then f service else service, ?_, ?_, ?_⟩
  · rw [service?_modifyService, hs]
    rfl
  · exact (congrArg NetworkSettings.id hkeeps).trans hid
  · rw [hkeeps]
    exact hsettings

theorem Staffed.deeds {c : Control Pipe} (h : c.Staffed) (l : List (Nat × Deed)) :
    (c.deeds l).Staffed := by
  induction l generalizing c with
  | nil => exact h
  | cons e rest ih =>
    refine ih (h.modify (fun s => ?_) e.1)
    have hturns := s.settings_turns e.2.turns
    obtain ⟨k, d⟩ := e
    cases d <;> exact hturns

/-- What happens to tidy services leaves them so, and their answers are to calls that were made. -/
theorem tidy_deeds {c : Control Pipe} {n : CallId} (h : ∀ service ∈ c.services, service.Tidy n)
    {l : List (Nat × Deed)}
    (hl : ∀ e ∈ commandsOf l, ∀ call, e.2.call = some call → call < n) :
    (∀ service ∈ (c.deeds l).services, service.Tidy n) ∧ ∀ e ∈ c.given l, e.2.1 < n := by
  induction l generalizing c with
  | nil => exact ⟨h, nofun⟩
  | cons e rest ih =>
    obtain ⟨k, d⟩ := e
    have hd : ∀ command call, d.command? = some command → command.call = some call → call < n := by
      intro command call hcommand hcall
      refine hl (k, command) (List.mem_filterMap.2 ⟨(k, d), List.mem_cons_self, ?_⟩) call hcall
      rw [hcommand]
      rfl
    have hmodified := forall_services_modify (fun s hs => Service.Tidy.deed hs hd) h k
    obtain ⟨htidy, hgiven⟩ := ih hmodified fun e he =>
      hl e ((commandsOf_append [(k, d)] rest).symm ▸ List.mem_append_right _ he)
    refine ⟨htidy, fun e he => ?_⟩
    obtain hfirst | hlater := List.mem_append.1 he
    · obtain ⟨x, hx, rfl⟩ := List.mem_map.1 hfirst
      cases hs : c.service? k with
      | none =>
        rw [hs] at hx
        cases hx
      | some s =>
        rw [hs] at hx
        exact (h s (List.mem_of_getElem? hs)).given x hx
    · exact hgiven e hlater

end Control

/-! ### The world -/

/-- What holds of the simulated world between the turns of its tasks. -/
structure World.Regular (w : World) : Prop where
  staffed : w.control.Staffed
  tidy : ∀ service ∈ w.control.services, service.Tidy w.calls
  /-- the calls that were answered were made -/
  answers : ∀ e ∈ w.answers, e.1 < w.calls

namespace World

variable {w w' : World}

theorem regular_new {settings : ControlSettings} (h : new settings = .ok w) : w.Regular := by
  unfold new Control.new at h
  cases hv : settings.validate with
  | error e =>
    rw [hv] at h
    cases h
  | ok u =>
    rw [hv] at h
    cases h
    exact ⟨fun network k hk => (nomatch hk), List.forall_mem_nil _, List.forall_mem_nil _⟩

/-- More calls may be made. -/
theorem Regular.mono (h : w.Regular) {calls : Nat} (hcalls : w.calls ≤ calls) :
    Regular { w with calls } where
  staffed := h.staffed
  tidy := fun service hs => (h.tidy service hs).mono hcalls
  answers := fun e he => Nat.lt_of_lt_of_le (h.answers e he) hcalls

/-- Whatever happens to the services, with orders for which calls were made. -/
theorem Regular.leads (h : w.Regular) {l : List (Nat × Deed)} (hl : w.Leads l w')
    (hcalls : ∀ e ∈ commandsOf l, ∀ call, e.2.call = some call → call < w.calls) : w'.Regular := by
  obtain ⟨htidy, hgiven⟩ := Control.tidy_deeds h.tidy hcalls
  refine ⟨?_, ?_, fun e he => ?_⟩
  · rw [hl.control]
    exact h.staffed.deeds l
  · rw [hl.control, hl.calls]
    exact htidy
  · rw [hl.answers] at he
    rw [hl.calls]
    obtain he | he := List.mem_append.1 he
    · exact h.answers e he
    · obtain ⟨x, hx, rfl⟩ := List.mem_map.1 he
      exact hgiven x hx

/-- Whatever the tasks do while time passes. -/
theorem Regular.goes (h : w.Regular) (hw : w.Goes w') : w'.Regular := by
  obtain ⟨l, hl, hnone⟩ := hw
  exact h.leads hl (hnone ▸ nofun)

theorem rests_connect (w : World) (network : NetworkId) (k : Nat) (rig : Rig) :
    w.Rests (w.connect network k rig) := by
  have hservice := rests_wake w (.service k)
  unfold connect
  generalize w.wake (.service k) = u at hservice ⊢
  refine hservice.trans ?_
  cases rig with
  | linked settings =>
    let t := Transceiver.new network settings u.now
    have houtlet : u.Rests ({ u with transceivers := u.transceivers ++ [(k, t)] }.addOutlet
        (.transceiver u.transceivers.length)) := ⟨rfl, rfl, rfl⟩
    exact houtlet.trans (rests_wake _ _)
  | kept | watched => exact ⟨rfl, rfl, rfl⟩

end World

namespace Caller

variable {w : World}

/-- A new service is connected to its rig. -/
theorem regular_start {network : NetworkId} {rig : Rig}
    {work : Instant → Control Pipe → Except DispatchError Nat × Control Pipe} (hw : w.Regular)
    (hstaffed : (work w.now w.control).2.Staffed)
    (htidy : ∀ service ∈ (work w.now w.control).2.services, service.Tidy w.calls) :
    ((start network rig work).runs w).2.Regular := by
  have hwork : World.Regular { w with control := (work w.now w.control).2 } :=
    ⟨hstaffed, htidy, hw.answers⟩
  have hruns : (onControl (work w.now)).runs w =
      (.ok (work w.now w.control).1, { w with control := (work w.now w.control).2 }) := rfl
  unfold start
  rw [runs_bind_of_ok (runs_get w), runs_bind_of_ok hruns]
  cases (work w.now w.control).1 with
  | error e => exact hwork
  | ok k =>
    dsimp only
    rw [runs_bind_of_ok (runs_modify _ _)]
    exact hwork.goes (World.rests_connect _ network k rig).goes

/-- A declared network is attached. -/
theorem regular_attach (hw : w.Regular) (network : NetworkId) (capacity : Nat) (rig : Rig) :
    ((attach network capacity rig).runs w).2.Regular :=
  regular_start hw (hw.staffed.attach network _ w.now)
    (forall_services_attach (fun station now => Service.tidy_new station now _) hw.tidy network _ _)

/-- A network is declared and attached. -/
theorem regular_addNetwork (hw : w.Regular) (settings : NetworkSettings) (capacity : Nat)
    (rig : Rig) : ((addNetwork settings capacity rig).runs w).2.Regular :=
  regular_start hw (hw.staffed.addNetwork settings _ w.now)
    (forall_services_addNetwork (fun station now => Service.tidy_new station now _) hw.tidy
      settings _ _)

end Caller

end GroundControl
