import GroundControl.Proofs.Service.Polls
import GroundControl.Proofs.Station.Debts

/-!
# Nothing is lost when a service stops

A service stops when it is ordered to, or when no order is left and none can come.  The station is
shut down then, which ends every pending request; so every submitter who has got a handle is told an
outcome by the station.  What waits behind the stop is not looked at any more, and those who wait
for an answer to it learn that the network is closed.

* `CallEnd`, `Service.callEnd?`, what a caller learns; `Service.outcomeOf`, what a submitter learns;
* `callsOf`, the calls that are made;
* `Service.Crashed`; `crashed_of_turns`, `turns_of_over`: a service that has ended stays as it is;
* `Service.Attends`, the invariant: nobody who waits is forgotten; `attends_of_turns`;
* `exists_stop`, `turn_of_stops`: a service ends with a shutdown;
* `NothingLost`, `stop_loses_nothing`.
-/

namespace GroundControl

/-- How a call ends. -/
inductive CallEnd
  | answered (answer : Answer)
  /-- the service has ended without an answer -/
  | closed

/-- The call that waits for the answer to an order. -/
def Turn.call? : Turn → Option CallId
  | .order c => c.call
  | _ => none

/-- The calls that are made. -/
def callsOf (l : List Turn) : List CallId := l.filterMap Turn.call?

namespace Service

variable {τ : Type}

/-- How a call has ended, if it has: a service that has ended answers no call any more. -/
def callEnd? (s : Service τ) (call : CallId) : Option CallEnd :=
  match s.answers.lookup call with
  | some answer => some (.answered answer)
  | none => if s.isOver then some .closed else none

/-- What the submitter of a request has learned, if anything: a request that disappears with its
service is reported as abandoned. -/
def outcomeOf (s : Service τ) (h : Handle) : Option Outcome :=
  match (s.station.toldTo h.ticket).head? with
  | some outcome => some outcome
  | none => if s.isOver then some (.abandoned h.network) else none

/-- A fault has ended the service. -/
def Crashed (s : Service τ) : Prop := ∃ fault, s.activity = .crashed fault

theorem isOver_of_stopped {s : Service τ} (h : s.activity = .stopped) : s.isOver = true := by
  unfold isOver
  rw [h]

theorem isOver_of_crashed {s : Service τ} (h : s.Crashed) : s.isOver = true := by
  obtain ⟨fault, h⟩ := h
  unfold isOver
  rw [h]

theorem callEnd?_of_closed {s : Service τ} (ho : s.isOver = true) {call : CallId}
    (hc : call ∉ s.answers.map Prod.fst) : s.callEnd? call = some .closed := by
  have hl : s.answers.lookup call = none := by
    refine List.lookup_eq_none_iff.2 fun e he => ?_
    have hne : call ≠ e.1 := fun h => hc (h ▸ List.mem_map_of_mem he)
    simpa using hne
  unfold callEnd?
  rw [hl]
  exact if_pos ho

theorem outcomeOf_of_toldTo {s : Service τ} {h : Handle} {o : Outcome}
    (ht : s.station.toldTo h.ticket = [o]) : s.outcomeOf h = some o := by
  unfold outcomeOf
  rw [ht]
  rfl

/-! ### Services that have ended -/

section Over

variable [Carrier τ] {s : Service τ}

theorem poll_of_over [Host] (h : s.isOver = true) (now rung : Instant) :
    s.poll now rung = none := by
  unfold isOver at h
  unfold poll
  cases ha : s.activity with
  | stopped | crashed fault => rfl
  | serving | holding hold =>
    rw [ha] at h
    cases h

/-- What happens to a service that has ended does not change it. -/
theorem turn_of_over (h : s.isOver = true) (t : Turn) :
    (s.turn t).activity = s.activity ∧ (s.turn t).station = s.station ∧
      (s.turn t).answers = s.answers := by
  cases t with
  | order c =>
    have he : s.turn (.order c) = s := if_pos h
    simp [he]
  | receive m =>
    have he : s.turn (.receive m) = s := if_pos h
    simp [he]
  | close => exact ⟨rfl, rfl, rfl⟩
  | poll host now rung => simp [turn_poll_of_eq_none (poll_of_over h now rung)]

theorem turns_of_over (h : s.isOver = true) (l : List Turn) :
    (s.turns l).activity = s.activity ∧ (s.turns l).station = s.station ∧
      (s.turns l).answers = s.answers := by
  induction l generalizing s with
  | nil => exact ⟨rfl, rfl, rfl⟩
  | cons t rest ih =>
    obtain ⟨ha, hs, hr⟩ := turn_of_over h t
    have ho : (s.turn t).isOver = true := by
      unfold isOver at h ⊢
      rwa [ha]
    rw [turns_cons, ← ha, ← hs, ← hr]
    exact ih ho

theorem crashed_of_turns (h : s.Crashed) (l : List Turn) : (s.turns l).Crashed := by
  obtain ⟨fault, ha⟩ := h
  exact ⟨fault, (turns_of_over (isOver_of_crashed ⟨fault, ha⟩) l).1.trans ha⟩

end Over

/-! ### What comes in -/

section Incoming

variable (s : Service τ)

theorem order_eq (c : Command) :
    (s.order c).activity = s.activity ∧ (s.order c).answers = s.answers ∧
      (s.order c).calls.Sublist (s.calls ++ c.call.toList) := by
  unfold order
  split
  · exact ⟨rfl, rfl, List.sublist_append_left _ _⟩
  · refine ⟨rfl, rfl, ?_⟩
    unfold calls
    rw [List.append_assoc, ← filterMap_concat]
    exact .refl _

theorem receive_eq (m : Message) :
    (s.receive m).activity = s.activity ∧ (s.receive m).answers = s.answers ∧
      (s.receive m).calls = s.calls := by
  unfold receive
  split <;> exact ⟨rfl, rfl, rfl⟩

end Incoming

/-! ### The invariant -/

/-- Nobody is forgotten by a service to which the calls `placed` were made: each call waits or is
answered, and for each handle that was given out the station owes an outcome or has told it. -/
structure Attends (placed : List CallId) (s : Service τ) : Prop where
  owes : ∃ fresh ended, s.station.Owes fresh ended ∧
    ∀ call h, (call, Answer.submitted (.ok h)) ∈ s.answers → h.ident ∈ fresh
  calls : (s.answers.map Prod.fst ++ s.calls).Sublist placed
  cleared : s.activity = .stopped → s.station.Cleared

section Attending

variable {s s' : Service τ} {placed : List CallId}

theorem mem_calls_of_commands {c : Command} (hc : c ∈ s.commands) {call : CallId}
    (h : c.call = some call) : call ∈ s.calls :=
  List.mem_append_right _ (List.mem_filterMap.2 ⟨c, hc, h⟩)

/-- A call that waits, or is made later, has not been answered. -/
theorem Attends.not_answered (h : s.Attends placed) {later : List CallId}
    (hn : (placed ++ later).Nodup) {call : CallId} (hc : call ∈ s.calls ∨ call ∈ later) :
    call ∉ s.answers.map Prod.fst := by
  intro ha
  rcases hc with hc | hc
  · have hboth := hn.of_append_left.sublist h.calls
    exact List.disjoint_of_nodup_append hboth ha hc
  · have hplaced := h.calls.subset (List.mem_append_left s.calls ha)
    exact List.disjoint_of_nodup_append hn hplaced hc

/-- What a poll answers keeps the account of handles and calls. -/
theorem Attends.gives {handle : Option Handle} (h : s.Attends placed) (hg : Gives handle s s')
    (hr : s'.Running) {fresh fresh' : List Ident} {ended' : List Finished}
    (ho : s'.station.Owes (fresh ++ fresh') ended')
    (hf : ∀ call h, (call, Answer.submitted (.ok h)) ∈ s.answers → h.ident ∈ fresh)
    (hh : ∀ h, handle = some h → h.ident ∈ fresh') : s'.Attends placed := by
  obtain ⟨given, ha, hc, hgiven⟩ := hg.answers
  refine ⟨⟨fresh ++ fresh', ended', ho, fun call x hx => ?_⟩, ?_, fun hs => ?_⟩
  · rw [ha] at hx
    rcases List.mem_append.1 hx with hx | hx
    · exact List.mem_append_left _ (hf call x hx)
    · exact List.mem_append_right _ (hh x (hgiven call _ hx x rfl))
  · rw [ha, List.map_append, List.append_assoc]
    exact (hc.append_left _).trans h.calls
  · have hover := isOver_of_stopped hs
    rw [hr] at hover
    cases hover

variable [Carrier τ]

theorem Attends.poll [Host] {now rung : Instant} (h : s.Attends placed) (hp : Polled now rung s s')
    (hc : ¬ s'.Crashed) : s'.Attends placed := by
  obtain ⟨fresh, ended, ho, hf⟩ := h.owes
  -- a broadcast or a question ends no request and takes none in
  have hstill : s'.Running → Gives none s s' → s'.station.Owes fresh ended → s'.Attends placed := by
    intro hr hg ho'
    rw [← List.append_nil fresh] at ho'
    exact h.gives hg hr ho' hf nofun
  cases hp with
  | worked operation response hw hp hr hg =>
    obtain ⟨ended', ho'⟩ := ho.perform hp
    refine h.gives hg hr ho' hf fun x hx => ?_
    exact List.mem_map_of_mem (Option.mem_toList.2 hx)
  | aired bulletin deadline result hp hr hg =>
    exact hstill hr hg (ho.of_quiet (Station.quiet_tryBroadcast hp) (Station.books_tryBroadcast hp))
  | asked hp hr hg => exact hstill hr hg (hp ▸ ho)
  | stopped station hstops hp hs =>
    have hperform : Station.perform (.shutdown Host.toWalk now) s.station = .ok .done station :=
      Act.bind_pure_eq_ok.2 ⟨(), hp, rfl⟩
    obtain ⟨ended', ho'⟩ := ho.perform hperform
    have ho' : station.Owes (fresh ++ []) (ended ++ ended') := ho'
    rw [List.append_nil] at ho'
    subst hs
    refine ⟨⟨fresh, ended ++ ended', ho', hf⟩, ?_, fun _ => ?_⟩
    · exact ((List.prefix_append _ _).sublist.append_left _).trans h.calls
    · exact ho'.cleared (Station.agents_shutdown hp)
  | crashed operation fault hw hp hs => exact absurd ⟨fault, hs⟩ hc
  | lapsed due period fault hw hn hp hs => exact absurd ⟨fault, hs⟩ hc
  | muted bulletin deadline fault hp hs => exact absurd ⟨fault, hs⟩ hc

theorem Attends.turn (h : s.Attends placed) (t : Turn) (hc : ¬ (s.turn t).Crashed) :
    (s.turn t).Attends (placed ++ t.call?.toList) := by
  cases t with
  | order c =>
    obtain ⟨ha, hr, hcalls⟩ := s.order_eq c
    refine ⟨?_, ?_, fun hs => ?_⟩
    · show ∃ fresh ended, (s.order c).station.Owes fresh ended ∧ _
      rw [station_order]
      simpa [Service.turn, hr] using h.owes
    · show ((s.order c).answers.map Prod.fst ++ (s.order c).calls).Sublist _
      rw [hr]
      refine (hcalls.append_left _).trans ?_
      rw [← List.append_assoc]
      exact h.calls.append_right _
    · show (s.order c).station.Cleared
      rw [station_order]
      exact h.cleared (ha.symm.trans hs)
  | receive m =>
    obtain ⟨ha, hr, hcalls⟩ := s.receive_eq m
    refine ⟨?_, ?_, fun hs => ?_⟩
    · show ∃ fresh ended, (s.receive m).station.Owes fresh ended ∧ _
      rw [station_receive]
      simpa [Service.turn, hr] using h.owes
    · show ((s.receive m).answers.map Prod.fst ++ (s.receive m).calls).Sublist (placed ++ [])
      rw [hr, hcalls, List.append_nil]
      exact h.calls
    · show (s.receive m).station.Cleared
      rw [station_receive]
      exact h.cleared (ha.symm.trans hs)
  | close =>
    show Attends (placed ++ []) { s with commandsClosed := true }
    rw [List.append_nil]
    exact ⟨h.owes, h.calls, h.cleared⟩
  | poll host now rung =>
    show Attends (placed ++ []) _
    rw [List.append_nil]
    cases hp : s.poll now rung with
    | none =>
      rw [turn_poll_of_eq_none hp]
      exact h
    | some s' =>
      rw [turn_poll_of_eq_some hp] at hc ⊢
      exact h.poll (polled_of_poll hp) hc

theorem callsOf_cons (t : Turn) (l : List Turn) :
    callsOf (t :: l) = t.call?.toList ++ callsOf l := by
  unfold callsOf
  rw [List.filterMap_cons]
  cases t.call? <;> rfl

theorem attends_of_turns (h : s.Attends placed) {l : List Turn} (hc : ¬ (s.turns l).Crashed) :
    (s.turns l).Attends (placed ++ callsOf l) := by
  induction l generalizing s placed with
  | nil =>
    show Attends (placed ++ []) s
    rwa [List.append_nil]
  | cons t rest ih =>
    rw [turns_cons] at hc ⊢
    rw [callsOf_cons, ← List.append_assoc]
    exact ih (h.turn t fun hcrash => hc (crashed_of_turns hcrash rest)) hc

end Attending

/-! ### The end of a service -/

section Ends

variable [Carrier τ] {s : Service τ}

/-- A service that is about to stop shuts its station down. -/
theorem turn_of_stops (h : s.Stops) {host : Host} {now rung : Instant}
    (hc : ¬ (s.turn (.poll host now rung)).Crashed) :
    ∃ station, Station.shutdown now s.station = .ok () station ∧
      (s.turn (.poll host now rung)).activity = .stopped ∧
        (s.turn (.poll host now rung)).station = station ∧
          (s.turn (.poll host now rung)).answers = s.answers := by
  have hpoll : ∃ commands, s.poll now rung = some (({ s with commands } : Service τ).act
      (Station.shutdown now) fun () s => s.finish .stopped) := by
    obtain ⟨station, activity, commands, closed, inbox, tickDue, sweepDue, answers⟩ := s
    rcases h with h | ⟨rfl, rfl, rfl⟩
    · cases activity with
      | serving =>
        cases commands with
        | nil => cases h
        | cons c rest =>
          obtain ⟨order, call⟩ := c
          obtain rfl := Option.some.inj h
          exact ⟨rest, rfl⟩
      | holding | stopped | crashed => cases h
    · exact ⟨[], rfl⟩
  obtain ⟨commands, hpoll⟩ := hpoll
  rw [turn_poll_of_eq_some hpoll] at hc ⊢
  rcases act_cases { s with commands } (Station.shutdown now) fun () s => s.finish .stopped with
    ⟨⟨⟩, station, hok, he⟩ | ⟨fault, station, hfault, he⟩
  · rw [he]
    exact ⟨station, hok, rfl, rfl, rfl⟩
  · rw [he] at hc
    exact absurd ⟨fault, rfl⟩ hc

/-- A service that has stopped was about to stop at one of its polls. -/
theorem exists_stop {l : List Turn} (hs : s.activity ≠ .stopped)
    (h : (s.turns l).activity = .stopped) :
    ∃ before host now rung after, l = before ++ .poll host now rung :: after ∧
      (s.turns before).Stops := by
  induction l generalizing s with
  | nil => exact absurd h hs
  | cons t rest ih =>
    by_cases ht : (s.turn t).activity = .stopped
    · refine ⟨[], ?_⟩
      cases t with
      | order c => exact absurd ((s.order_eq c).1.symm.trans ht) hs
      | receive m => exact absurd ((s.receive_eq m).1.symm.trans ht) hs
      | close => exact absurd ht hs
      | poll host now rung =>
        refine ⟨host, now, rung, rest, rfl, ?_⟩
        cases hp : s.poll now rung with
        | none =>
          rw [turn_poll_of_eq_none hp] at ht
          exact absurd ht hs
        | some s' =>
          rw [turn_poll_of_eq_some hp] at ht
          have hover := isOver_of_stopped ht
          cases polled_of_poll hp with
          | worked _ _ _ _ hr | aired _ _ _ _ hr | asked _ hr =>
            rw [hr] at hover
            cases hover
          | stopped station hstops => exact hstops
          | crashed _ _ _ _ hs' | lapsed _ _ _ _ _ _ hs' | muted _ _ _ _ hs' =>
            cases hs'.symm.trans ht
    · obtain ⟨before, host, now, rung, after, rfl, hb⟩ := ih ht h
      exact ⟨t :: before, host, now, rung, after, rfl, hb⟩

end Ends

/-- Nothing is lost in the turns `history` of the service `s`. -/
structure NothingLost [Carrier τ] (s : Service τ) (history : List Turn) : Prop where
  /-- a submitter who has got a handle is told one outcome at most, -/
  once : ∀ call h, (call, Answer.submitted (.ok h)) ∈ (s.turns history).answers →
    ((s.turns history).station.toldTo h.ticket).length ≤ 1
  /-- and has learned one by the end, which the station has told -/
  resolved : (s.turns history).activity = .stopped →
    ∀ call h, (call, Answer.submitted (.ok h)) ∈ (s.turns history).answers →
      ∃ o, (s.turns history).station.toldTo h.ticket = [o] ∧
        (s.turns history).outcomeOf h = some o ∧ o ≠ .abandoned h.network
  /-- in the end there are no agents and no requests -/
  cleared : (s.turns history).activity = .stopped → (s.turns history).station.Cleared
  /-- the service ends when it takes up the order to stop, or has no orders left -/
  begun : (s.turns history).activity = .stopped → ∃ before host now rung after,
    history = before ++ .poll host now rung :: after ∧ (s.turns before).Stops
  /-- the orders behind the stop are not carried out, and their callers learn that the network is
  closed -/
  behind : ∀ before (host : Host) now rung after, history = before ++ .poll host now rung :: after →
    (s.turns before).Stops →
      Station.shutdown now (s.turns before).station = .ok () (s.turns history).station ∧
        (s.turns history).activity = .stopped ∧
          ∀ c, c ∈ (s.turns before).commands ∨ .order c ∈ after →
            ∀ call, c.call = some call → (s.turns history).callEnd? call = some .closed

end Service

open Service

/-- No request is lost when a service stops, whenever and however it does, and whatever its station
has done before it began. -/
theorem stop_loses_nothing {τ : Type} [Carrier τ] {settings : NetworkSettings} {carrier : τ}
    {created : Instant} {operations : List Operation} {steps : List (Step τ)} {station : Station τ}
    (hrun : Station.run operations (.new settings carrier created) = .ok (steps, station))
    (start : Instant) {history : List Turn} (hcalls : (callsOf history).Nodup)
    (hc : ¬ ((Service.new station start).turns history).Crashed) :
    NothingLost (.new station start) history := by
  obtain ⟨ended, ho⟩ := Station.owes_of_run (Station.owes_new settings carrier created) hrun
  have hnew : (Service.new station start).Attends [] :=
    ⟨⟨_, _, ho, nofun⟩, .refl _, nofun⟩
  have hlast := attends_of_turns hnew hc
  obtain ⟨fresh, ended, ho, hf⟩ := hlast.owes
  refine ⟨fun call h hm => ho.length_toldTo (hf call h hm), fun hs call h hm => ?_, hlast.cleared,
    exists_stop nofun, ?_⟩
  · have hpending : h.ident ∉ ((Service.new station start).turns history).station.idents := by
      rw [(hlast.cleared hs).idents]
      exact List.not_mem_nil
    obtain ⟨o, htold, hg⟩ := ho.told_of_not_pending (hf call h hm) hpending
    exact ⟨o, htold, outcomeOf_of_toldTo htold, hg.ne_abandoned h.network⟩
  · rintro before host now rung after rfl hstops
    rw [turns_append, turns_cons] at hc
    have hstop :
        ¬ (((Service.new station start).turns before).turn (.poll host now rung)).Crashed :=
      fun hcrash => hc (crashed_of_turns hcrash after)
    obtain ⟨last, hshut, hactivity, hstation, hanswers⟩ := turn_of_stops hstops hstop
    obtain ⟨ha, hs, hr⟩ := turns_of_over (isOver_of_stopped hactivity) after
    rw [turns_append, turns_cons]
    refine ⟨?_, ha.trans hactivity, fun c hcm call hcall => ?_⟩
    · rw [hs, hstation]
      exact hshut
    · refine callEnd?_of_closed (isOver_of_stopped (ha.trans hactivity)) ?_
      rw [hr, hanswers]
      have hbefore := attends_of_turns hnew fun hcrash =>
        hstop (crashed_of_turns hcrash [.poll host now rung])
      have hsplit : callsOf (before ++ .poll host now rung :: after) =
          ([] ++ callsOf before) ++ callsOf after := List.filterMap_append
      refine hbefore.not_answered (hsplit ▸ hcalls) (hcm.imp (fun hm => ?_) fun hm => ?_)
      · exact mem_calls_of_commands hm hcall
      · exact List.mem_filterMap.2 ⟨.order c, hm, hcall⟩

/-- A station that is attached when the epoch is seven. -/
def attachedStation : Station Pipe := (Station.new { id := "alpha" } (.new "up" 4) 0).adoptEpoch 7

/-- A request waits for its reply when the order to stop comes in.  Another request and a question
come after it, and the reply, too late. -/
def stopComes : List Turn :=
  [.receive (.heartbeat "alpha" 1), .poll .plain 0 0,
    .order ⟨.submit 1 1 (.expecting [7] 3) .normal 1, some 0⟩, .poll .plain 0 0,
    .order ⟨.stop, none⟩, .order ⟨.submit 2 1 (.oneWay [8]) .normal 1, some 1⟩,
    .receive (.accepted "alpha" 1 3), .poll .plain 1000000 0, .order ⟨.report, some 2⟩,
    .poll .plain 2000000 1000000]

theorem stop_loses_nothing_stopComes :
    (∃ steps, Station.run [.adoptEpoch 7] (.new { id := "alpha" } (.new "up" 4) 0) =
        .ok (steps, attachedStation)) ∧
      (callsOf stopComes).Nodup ∧ ¬ ((Service.new attachedStation 0).turns stopComes).Crashed ∧
        ((Service.new attachedStation 0).turns stopComes).outcomeOf ⟨1, "alpha", 1, 0⟩ =
            some (.failure .agentGone 1 none) ∧
          NothingLost (.new attachedStation 0) stopComes := by
  have hrun : ∃ steps, Station.run [.adoptEpoch 7] (.new { id := "alpha" } (.new "up" 4) 0) =
      .ok (steps, attachedStation) := ⟨_, rfl⟩
  have hcalls : (callsOf stopComes).Nodup := by decide
  have hstopped : (((Service.new attachedStation 0).turns stopComes).activity matches .stopped) =
      true := by decide +kernel
  have hc : ¬ ((Service.new attachedStation 0).turns stopComes).Crashed := by
    rintro ⟨fault, h⟩
    rw [h] at hstopped
    cases hstopped
  obtain ⟨steps, h⟩ := hrun
  exact ⟨⟨steps, h⟩, hcalls, hc, by decide +kernel, stop_loses_nothing h 0 hcalls hc⟩

end GroundControl
