import GroundControl.Proofs.Link.Executions
import GroundControl.Proofs.Station.Replies

/-!
# A station in contact with its vehicles

The frames that the carrier of a station takes come to a radio link one by one, in their order.  The
vehicles of the link execute them, and the replies and the heartbeats are on their way back for as
long as it takes: each arrives at any time, in any order, or not at all.

* `Contact`, a station and its link, with all that is on its way between them;
* `Occurrence`, what can happen next; `Contact.next`, `Contact.run`;
* `RadioLink.Reports`: a reply says how the frame of a command was executed;
* `Contact.Coherent`, what every run preserves: `Coherent.next`, `Coherent.run`.
-/

namespace GroundControl

/-- The frames that the carrier took. -/
def transmitted (effects : List Effect) : List Frame :=
  ((sendings effects).filter Sending.isTaken).map Prod.fst

/-- A station and the link to its vehicles. -/
structure Contact (τ : Type) where
  station : Station τ
  link : RadioLink
  /-- the frames on their way to the link, the earliest first -/
  uplink : List Frame
  /-- the messages on their way to the station -/
  downlink : List Message
  /-- what the station has done -/
  steps : List (Step τ)
  /-- the frames that the link has received, the earliest first -/
  received : List Frame

/-- What can happen between a station and its link. -/
inductive Occurrence
  /-- the station carries out an operation that takes in no message -/
  | operate (operation : Operation)
  /-- the link receives the next frame -/
  | receive
  /-- the vehicles send heartbeats -/
  | beat
  /-- one of the messages on their way arrives, and the requests it has set free are moved or not -/
  | arrive (place : Nat) (pumped : Bool) (now : Instant)

/-- The verdict that reports a response. -/
def Response.verdict : Response → Verdict
  | .completed _ => .accepted
  | .rejected message => .rejected message

namespace Contact

variable {τ : Type}

/-- A station that has done nothing yet, and a link to vehicles that have received nothing. -/
def new (settings : NetworkSettings) (link : LinkSettings) (carrier : τ) (start : Instant) :
    Contact τ where
  station := .new settings carrier start
  link := .new settings.id link
  uplink := []
  downlink := []
  steps := []
  received := []

/-- The link receives the next frame, and its reply is on its way. -/
def receive (c : Contact τ) : Contact τ :=
  match c.uplink with
  | [] => c
  | f :: rest =>
      let (reply, link) := c.link.receive f
      { c with
        link, uplink := rest
        downlink := c.downlink ++ reply.toList
        received := c.received ++ [f] }

/-- The vehicles send their heartbeats. -/
def beat (c : Contact τ) : Contact τ := { c with downlink := c.downlink ++ c.link.heartbeats }

section Run

variable [Carrier τ]

/-- The station carries out an operation; the frames that its carrier takes are on their way. -/
def perform (c : Contact τ) (operation : Operation) : Except Fault (Contact τ) :=
  match Station.perform operation c.station with
  | .error fault _ => .error fault
  | .ok response after =>
      let step : Step τ := ⟨c.station, operation, response, after⟩
      .ok { c with
        station := after
        uplink := c.uplink ++ transmitted step.effects
        steps := c.steps ++ [step] }

/-- The station carries out an operation, unless it takes in a message: messages come from the link
only. -/
def operate (c : Contact τ) (operation : Operation) : Except Fault (Contact τ) :=
  match operation.message? with
  | some _ => .ok c
  | none => c.perform operation

/-- One of the messages on their way arrives. -/
def arrive (c : Contact τ) (place : Nat) (pumped : Bool) (now : Instant) :
    Except Fault (Contact τ) :=
  match c.downlink[place]? with
  | none => .ok c
  | some m =>
      { c with downlink := c.downlink.eraseIdx place }.perform
        (if pumped then .deliver m now else .route m now)

/-- What comes of an occurrence. -/
def next (c : Contact τ) : Occurrence → Except Fault (Contact τ)
  | .operate operation => c.operate operation
  | .receive => .ok c.receive
  | .beat => .ok c.beat
  | .arrive place pumped now => c.arrive place pumped now

/-- What comes of occurrences one after the other, unless the station meets a fault. -/
def run : List Occurrence → Contact τ → Except Fault (Contact τ)
  | [], c => .ok c
  | occurrence :: rest, c =>
      match c.next occurrence with
      | .error fault => .error fault
      | .ok c => run rest c

end Run

end Contact

namespace RadioLink

variable {l : RadioLink} {e : Execution} {m : Message} {reply : Reply}

/-- A reply reports the execution of a frame: it comes from the vehicle, with the key in the frame,
and says how the vehicle responded. -/
theorem reply_of_report? (h : l.report? e = some m) (hm : m.reply = some reply) :
    m.agent = e.agent ∧ e.frame.key = some reply.key ∧ reply.verdict = e.response.verdict := by
  obtain ⟨key, hk, rfl⟩ := Option.map_eq_some_iff.1 h
  rw [hk]
  cases hr : e.response with
  | completed message =>
    rw [hr] at hm
    obtain rfl := Option.some.inj hm
    exact ⟨rfl, rfl, rfl⟩
  | rejected message =>
    rw [hr] at hm
    obtain rfl := Option.some.inj hm
    exact ⟨rfl, rfl, rfl⟩

theorem reply_of_mem_heartbeats (h : m ∈ l.heartbeats) : m.reply = none := by
  unfold heartbeats at h
  split at h
  · cases h
  · obtain ⟨v, -, rfl⟩ := List.mem_map.1 h
    unfold heartbeat
    split <;> rfl

/-- If a message is a reply, it reports how one of the frames was executed that a link received. -/
def Reports (l : RadioLink) (frames : List Frame) (m : Message) : Prop :=
  m.reply.isSome = true → ∃ e ∈ l.executions frames, l.report? e = some m

theorem Reports.append {frames : List Frame} (h : l.Reports frames m) (later : List Frame) :
    l.Reports (frames ++ later) m := by
  intro hm
  obtain ⟨e, he, hr⟩ := h hm
  exact ⟨e, executions_append l frames later ▸ List.mem_append_left _ he, hr⟩

theorem reports_of_mem_heartbeats (l : RadioLink) (frames : List Frame)
    (h : m ∈ (l.after frames).heartbeats) : l.Reports frames m := by
  intro hm
  rw [reply_of_mem_heartbeats h] at hm
  cases hm

/-- The reply to a frame reports its execution. -/
theorem reports_receive (hl : l.isDead = false) (frames : List Frame) (f : Frame)
    (h : m ∈ ((l.after frames).receive f).1) : l.Reports (frames ++ [f]) m := by
  intro _
  rw [reply_receive (isDead_after hl frames), report?_after hl] at h
  obtain ⟨e, he, hm⟩ := Option.bind_eq_some_iff.1 h
  refine ⟨e, ?_, hm⟩
  rw [executions_append]
  refine List.mem_append_right _ ?_
  unfold executions
  rw [he]
  exact List.mem_cons_self

end RadioLink

theorem transmitted_append (effects later : List Effect) :
    transmitted (effects ++ later) = transmitted effects ++ transmitted later := by
  unfold transmitted
  rw [sendings_append, List.filter_append, List.map_append]

namespace Contact

variable {τ : Type}

/-! ### What every run preserves -/

/-- A station and a link that began as `l`, in contact since the beginning of the station: the
station has done what its steps say, the link has received the frames that the carrier took, in
their order, apart from those on their way, and every reply reports the execution of a frame. -/
structure Coherent [Carrier τ] (beginning : Station τ) (l : RadioLink) (c : Contact τ) : Prop where
  steps : Station.run (c.steps.map Step.operation) beginning = .ok (c.steps, c.station)
  link : c.link = l.after c.received
  traffic : transmitted (c.steps.flatMap Step.effects) = c.received ++ c.uplink
  coming : ∀ m ∈ c.downlink, l.Reports c.received m
  arrived : ∀ step ∈ c.steps, ∀ m now, step.operation.message? = some (m, now) →
    l.Reports c.received m

section Coherent

variable [Carrier τ] {beginning : Station τ} {l : RadioLink} {c c' : Contact τ}

theorem coherent_new (settings : NetworkSettings) (link : LinkSettings) (carrier : τ)
    (start : Instant) :
    Coherent (.new settings carrier start) (.new settings.id link)
      (new settings link carrier start) where
  steps := rfl
  link := rfl
  traffic := rfl
  coming := List.forall_mem_nil _
  arrived := List.forall_mem_nil _

theorem Coherent.perform (h : Coherent beginning l c) {operation : Operation}
    (hm : ∀ m now, operation.message? = some (m, now) → l.Reports c.received m)
    (hp : c.perform operation = .ok c') : Coherent beginning l c' := by
  unfold Contact.perform at hp
  cases hs : Station.perform operation c.station with
  | error fault s =>
    rw [hs] at hp
    cases hp
  | ok response after =>
    rw [hs] at hp
    cases hp
    exact {
      steps := by
        rw [List.map_append]
        exact Station.run_append h.steps
          (Station.run_cons_eq_ok.2 ⟨response, after, [], hs, rfl, rfl⟩)
      link := h.link
      traffic := by
        rw [List.flatMap_append, transmitted_append, h.traffic, List.flatMap_singleton,
          List.append_assoc]
      coming := h.coming
      arrived := List.forall_mem_append.2 ⟨h.arrived, List.forall_mem_singleton.2 hm⟩ }

theorem Coherent.operate (h : Coherent beginning l c) {operation : Operation}
    (ho : c.operate operation = .ok c') : Coherent beginning l c' := by
  unfold Contact.operate at ho
  cases hm : operation.message? with
  | some m =>
    rw [hm] at ho
    cases ho
    exact h
  | none =>
    rw [hm] at ho
    refine h.perform (fun m now hm' => ?_) ho
    rw [hm] at hm'
    cases hm'

theorem Coherent.receive (h : Coherent beginning l c) (hl : l.isDead = false) :
    Coherent beginning l c.receive := by
  unfold Contact.receive
  cases hu : c.uplink with
  | nil => exact h
  | cons f rest =>
    exact {
      steps := h.steps
      link := by
        rw [RadioLink.after_append, ← h.link]
        rfl
      traffic := by
        rw [h.traffic, hu]
        exact List.append_cons ..
      coming := by
        refine List.forall_mem_append.2 ⟨fun m hm => (h.coming m hm).append [f], fun m hm => ?_⟩
        rw [h.link] at hm
        exact RadioLink.reports_receive hl c.received f (Option.mem_toList.1 hm)
      arrived := fun step hs m now hm => (h.arrived step hs m now hm).append [f] }

theorem Coherent.beat (h : Coherent beginning l c) : Coherent beginning l c.beat where
  steps := h.steps
  link := h.link
  traffic := h.traffic
  coming := List.forall_mem_append.2 ⟨h.coming, fun _ hm =>
    RadioLink.reports_of_mem_heartbeats l c.received (h.link ▸ hm)⟩
  arrived := h.arrived

theorem Coherent.arrive (h : Coherent beginning l c) {place : Nat} {pumped : Bool} {now : Instant}
    (ha : c.arrive place pumped now = .ok c') : Coherent beginning l c' := by
  unfold Contact.arrive at ha
  cases hm : c.downlink[place]? with
  | none =>
    rw [hm] at ha
    cases ha
    exact h
  | some m =>
    rw [hm] at ha
    have hlanded : Coherent beginning l { c with downlink := c.downlink.eraseIdx place } :=
      ⟨h.steps, h.link, h.traffic, fun m hm => h.coming m (List.mem_of_mem_eraseIdx hm), h.arrived⟩
    refine hlanded.perform (fun m' now' hm' => ?_) ha
    obtain rfl : m = m' := by
      cases pumped with
      | true => exact congrArg Prod.fst (Option.some.inj hm')
      | false => exact congrArg Prod.fst (Option.some.inj hm')
    exact h.coming m (List.mem_of_getElem? hm)

theorem Coherent.next (h : Coherent beginning l c) (hl : l.isDead = false) {occurrence : Occurrence}
    (hn : c.next occurrence = .ok c') : Coherent beginning l c' := by
  cases occurrence with
  | operate operation => exact h.operate hn
  | receive =>
    cases hn
    exact h.receive hl
  | beat =>
    cases hn
    exact h.beat
  | arrive place pumped now => exact h.arrive hn

theorem Coherent.run (h : Coherent beginning l c) (hl : l.isDead = false)
    {occurrences : List Occurrence} (hr : run occurrences c = .ok c') :
    Coherent beginning l c' := by
  induction occurrences generalizing c with
  | nil =>
    cases hr
    exact h
  | cons occurrence rest ih =>
    unfold Contact.run at hr
    cases hn : c.next occurrence with
    | error fault =>
      rw [hn] at hr
      cases hr
    | ok c₁ =>
      rw [hn] at hr
      exact ih (h.next hl hn) hr

end Coherent

end Contact

end GroundControl
