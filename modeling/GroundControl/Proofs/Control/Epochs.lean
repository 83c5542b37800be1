import GroundControl.Proofs.Control.Orderly

/-!
# Epochs never go back

Whatever the wall clock does, and however long a new epoch is on its way to a service: the frames of
a network carry epochs that never decrease, even if the network is removed and added again; no frame
carries an epoch that the control centre has not reached; and a service that has taken up an epoch
signs with no older one afterwards.

* `Situation.Knows`, a service has reached an epoch; `Situation.Heeds`, it has since signed with no
  older one; `heeds_of_next?`, `heeds_after`;
* `EpochsForward`, `epochs_go_forward`.
-/

namespace GroundControl

variable {τ : Type}

namespace Situation

/-- The service `k` knows an epoch. -/
def Knows (k epoch : Nat) (s : Situation τ) : Prop :=
  ∃ service, s.control.service? k = some service ∧ epoch ≤ service.station.epoch

/-- The service `k` knows an epoch, and has since signed with no older one. -/
structure Heeds (k epoch : Nat) (s s' : Situation τ) : Prop where
  knows : s'.Knows k epoch
  trail : ∃ new, s'.trail = s.trail ++ new ∧ ∀ x ∈ new, x.service = k → epoch ≤ x.frame.epoch

section Heeds

variable {k epoch : Nat} {s s' t : Situation τ}

theorem Heeds.trans (h : Heeds k epoch s s') (h' : Heeds k epoch s' t) : Heeds k epoch s t := by
  obtain ⟨l, hl, he⟩ := h.trail
  obtain ⟨m, hm, he'⟩ := h'.trail
  exact ⟨h'.knows, l ++ m, by rw [hm, hl, List.append_assoc],
    List.forall_mem_append.2 ⟨he, he'⟩⟩

/-- As long as the service does nothing, it only matters that it stays. -/
theorem Knows.heeds (h : s.Knows k epoch) (ht : s'.trail = s.trail)
    (hs : ∀ service, s.control.service? k = some service →
      s'.control.service? k = some service) : Heeds k epoch s s' := by
  obtain ⟨service, hk, hle⟩ := h
  exact ⟨⟨service, hs service hk, hle⟩, [], by rw [ht, List.append_nil], List.forall_mem_nil _⟩

variable [Carrier τ]

/-- A service that knows the epoch after a turn has signed with no older one in it. -/
theorem Served.heeds {j : Nat} {service : Service τ} {u : Turn} {new : List Signed}
    (h : Served j service u new s s') (hk : s'.Knows k epoch) : Heeds k epoch s s' := by
  refine ⟨hk, new, h.trail, fun x hx hxk => ?_⟩
  obtain ⟨known, hknown, hle⟩ := hk
  have hjk : j = k := (h.mine x hx).1.symm.trans hxk
  subst hjk
  obtain rfl := Option.some.inj (hknown.symm.trans h.self)
  rw [h.epoch x hx]
  exact hle

theorem Knows.serve (h : s.Knows k epoch) (j : Nat) (u : Turn) :
    Heeds k epoch s (s.serve j u) := by
  cases hj : s.control.service? j with
  | none =>
    rw [serve_of_eq_none hj]
    exact h.heeds rfl fun _ hk => hk
  | some service =>
    obtain ⟨new, hserved⟩ := served_serve hj u
    obtain ⟨known, hknown, hle⟩ := h
    refine hserved.heeds ?_
    by_cases hkj : k = j
    · subst hkj
      obtain rfl := Option.some.inj (hj.symm.trans hknown)
      exact ⟨_, hserved.self, Nat.le_trans hle (service.signs_of_turn u).epoch⟩
    · exact ⟨known, (hserved.other hkj).trans hknown, hle⟩

theorem Knows.happen (h : s.Knows k epoch) (x : Happening τ) : Heeds k epoch s (s.happen x) := by
  have hstart : ∀ f : Control τ → Except DispatchError Nat × Control τ,
      s.control.Started (f s.control).2 → Heeds k epoch s (s.start f) := by
    intro f hf
    unfold start
    split
    · obtain ⟨-, ⟨hservices, -⟩ | ⟨new, hnew⟩⟩ := hf
      · refine h.heeds rfl fun service hk => ?_
        show (f s.control).2.services[k]? = some service
        rw [hservices]
        exact hk
      · exact h.heeds rfl fun service hk => service?_of_opened hnew hk
    · exact h.heeds rfl fun _ hk => hk
  cases x with
  | synchronize wall => exact h.heeds rfl fun _ hk => hk
  | arrive i =>
    unfold Situation.happen
    dsimp only
    split
    · exact h.heeds rfl fun _ hk => hk
    · rename_i push hp
      have hrest : Heeds k epoch s { s with pushes := s.pushes.eraseIdx i } :=
        h.heeds rfl fun _ hk => hk
      exact hrest.trans (hrest.knows.serve push.service _)
  | attach network carrier now =>
    exact hstart (·.attach network carrier now) (Control.started_attach _ network carrier now)
  | addNetwork settings carrier now =>
    exact hstart (·.addNetwork settings carrier now)
      (Control.started_addNetwork _ settings carrier now)
  | detach network =>
    refine h.heeds rfl fun service hk => ?_
    show ((s.control.detach network).2).services[k]? = some service
    unfold Control.detach
    split <;> exact hk
  | detachAll => exact h.heeds rfl fun _ hk => hk
  | turn j u hu => exact h.serve j u

theorem heeds_after (h : s.Knows k epoch) (l : List (Happening τ)) :
    Heeds k epoch s (s.after l) := by
  induction l generalizing s with
  | nil => exact h.heeds rfl fun _ hk => hk
  | cons x rest ih =>
    have hx := h.happen x
    exact hx.trans (ih hx.knows)

/-- A service that takes up an epoch heeds it. -/
theorem heeds_of_next? {service : Service τ} (hk : s.control.service? k = some service)
    (hn : service.next? = some (.adoptEpoch epoch)) (host : Host) (now rung : Instant) :
    Heeds k epoch s (s.serve k (.poll host now rung)) := by
  obtain ⟨new, hserved⟩ := served_serve hk (.poll host now rung)
  exact hserved.heeds ⟨_, hserved.self, Service.epoch_of_next? hn host now rung⟩

end Heeds

end Situation

/-- The epochs of all frames, from a new control centre on, go forward. -/
structure EpochsForward [Carrier τ] (c : Control τ) (l : List (Happening τ)) : Prop where
  /-- the frames of a network never carry an older epoch than the ones before -/
  ordered : ((Situation.begin c).after l).trail.Pairwise fun x y =>
    x.network = y.network → x.frame.epoch ≤ y.frame.epoch
  /-- no frame carries an epoch that the control centre had not reached when it was sent -/
  reached : ∀ x ∈ ((Situation.begin c).after l).trail, x.frame.epoch ≤ x.current
  /-- once a service has taken up an epoch, its frames carry that epoch or a later one -/
  heeded : ∀ before later k host now rung epoch service,
    l = before ++ .turn k (.poll host now rung) rfl :: later →
      ((Situation.begin c).after before).control.service? k = some service →
        service.next? = some (.adoptEpoch epoch) →
          ∃ new, ((Situation.begin c).after l).trail =
              ((Situation.begin c).after before).trail ++ new ∧
            ∀ x ∈ new, x.service = k → epoch ≤ x.frame.epoch

/-- Whatever happens to a control centre and its services, whatever the wall clock reads, and in
whatever order the epochs reach the services, the epochs of the frames go forward. -/
theorem epochs_go_forward [Carrier τ] {settings : ControlSettings} {c : Control τ}
    (h : Control.new settings = .ok c) (l : List (Happening τ)) : EpochsForward c l := by
  have hs := Situation.orderly_after (Situation.orderly_begin h) l
  refine ⟨hs.ordered, fun x hx => (hs.reached x hx).1, ?_⟩
  rintro before later k host now rung epoch service rfl hk hn
  have hfirst := Situation.heeds_of_next? hk hn host now rung
  have hall := hfirst.trans (Situation.heeds_after hfirst.knows later)
  rw [Situation.after_append]
  exact hall.trail

/-- A network sends, learns of a later epoch before it learns of an earlier one, is removed and is
added again, and then sends under the epoch of that time. -/
def removedAndAdded : List (Happening Pipe) :=
  [.addNetwork { id := "alpha" } (.new "up" 4) 0,
    .turn 0 (.order ⟨.broadcast ⟨.correction, [7]⟩ 0, none⟩) rfl,
    .turn 0 (.poll .plain 0 0) rfl,
    .synchronize 1420070400000030000,
    .synchronize 1420070400000010000,
    .arrive 1,
    .turn 0 (.poll .plain 10 10) rfl,
    .turn 0 (.order ⟨.broadcast ⟨.correction, [8]⟩ 10, none⟩) rfl,
    .turn 0 (.poll .plain 10 10) rfl,
    .arrive 0,
    .turn 0 (.poll .plain 20 20) rfl,
    .synchronize 0,
    .detach "alpha",
    .turn 0 (.order ⟨.broadcast ⟨.correction, [9]⟩ 20, none⟩) rfl,
    .turn 0 (.poll .plain 20 20) rfl,
    .addNetwork { id := "alpha" } (.new "up" 4) 20,
    .turn 0 (.order ⟨.stop, none⟩) rfl,
    .turn 0 (.poll .plain 30 30) rfl,
    .addNetwork { id := "alpha" } (.new "up" 4) 30,
    .turn 1 (.order ⟨.broadcast ⟨.correction, [10]⟩ 40, none⟩) rfl,
    .turn 1 (.poll .plain 40 40) rfl]

theorem epochs_go_forward_removedAndAdded :
    ∃ c : Control Pipe, Control.new {} = .ok c ∧
      ((Situation.begin c).after removedAndAdded).trail.map
          (fun x => (x.service, x.frame.body, x.frame.epoch, x.current)) =
        [(0, [7], 0, 0), (0, [8], 4, 4), (0, [9], 4, 5), (1, [10], 5, 5)] ∧
      EpochsForward c removedAndAdded := by
  have hnew : Control.new {} = .ok (⟨{}, ∅, [], 0, .new⟩ : Control Pipe) := rfl
  exact ⟨_, hnew, by decide +kernel, epochs_go_forward hnew removedAndAdded⟩

end GroundControl
