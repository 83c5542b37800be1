import GroundControl.Proofs.Service.Work

/-!
# What a poll comes to

A poll lets the station do one piece of work, answers one call at most, and goes on; or it ends the
service, by order or because of a fault.

* `Service.calls`, the calls that wait for an answer;
* `Service.Gives`, what a poll answers; `Service.Stops`: the next poll ends the service;
* `Service.Polled`, the ways a poll can go; `polled_of_poll`.
-/

namespace GroundControl

/-- The handle in an answer, if it is the answer to a submission that was taken in. -/
def Answer.handle? : Answer → Option Handle
  | .submitted (.ok handle) => some handle
  | _ => none

namespace Service

variable {τ : Type}

/-- The call that a broadcast on hold is to answer. -/
def held? (s : Service τ) : Option CallId :=
  match s.activity with
  | .holding hold => hold.call
  | _ => none

/-- The calls that wait for an answer, in the order in which their orders came in. -/
def calls (s : Service τ) : List CallId := s.held?.toList ++ s.commands.filterMap (·.call)

/-- One call at most is answered, one that has waited; if its answer is a handle, it is `handle`. -/
structure Gives (handle : Option Handle) (s s' : Service τ) : Prop where
  answers : ∃ given, s'.answers = s.answers ++ given ∧
    (given.map Prod.fst ++ s'.calls).Sublist s.calls ∧
      ∀ call answer, (call, answer) ∈ given → ∀ h, answer.handle? = some h → handle = some h

/-- The task is about to stop: it is ordered to, or no order is left and none can come. -/
def Stops (s : Service τ) : Prop :=
  s.next? = some .stop ∨ s.activity = .serving ∧ s.commands = [] ∧ s.commandsClosed = true

/-- A poll of `s` at `now` with alarms up to `rung` has gone one of these ways and left `s'`. -/
inductive Polled [Carrier τ] [Host] (now rung : Instant) (s s' : Service τ) : Prop
  /-- the station has carried out an operation -/
  | worked (operation : Operation) (response : Result) (hw : s.work? now rung = some operation)
      (hp : Station.perform operation s.station = .ok response s'.station) (hr : s'.Running)
      (hg : Gives response.handle? s s')
  /-- the station has attempted a broadcast -/
  | aired (bulletin : Bulletin) (deadline : Instant) (result : Attempt Unit)
      (hp : Station.tryBroadcast bulletin deadline now s.station = .ok result s'.station)
      (hr : s'.Running) (hg : Gives none s s')
  /-- the station was only looked at -/
  | asked (hp : s'.station = s.station) (hr : s'.Running) (hg : Gives none s s')
  /-- the station was shut down -/
  | stopped (station : Station τ) (hstops : s.Stops)
      (hp : Station.shutdown now s.station = .ok () station)
      (hs : s' = { s with station, activity := .stopped, commands := [], inbox := [] })
  /-- an operation has met a fault -/
  | crashed (operation : Operation) (fault : Fault) (hw : s.work? now rung = some operation)
      (hp : Station.perform operation s.station = .error fault s'.station)
      (hs : s'.activity = .crashed fault)
  /-- something regular could not be put off -/
  | lapsed (due : Instant) (period : Span) (fault : Fault)
      (hw : s.tickDue ≤ rung ∧ period = s.station.settings.tickInterval ∨
        s.sweepDue ≤ rung ∧ period = s.station.settings.sweepInterval)
      (hn : Host.nextDue due period now = .error fault) (hp : s'.station = s.station)
      (hs : s'.activity = .crashed fault)
  /-- the attempt at a broadcast has met a fault -/
  | muted (bulletin : Bulletin) (deadline : Instant) (fault : Fault)
      (hp : Station.tryBroadcast bulletin deadline now s.station = .error fault s'.station)
      (hs : s'.activity = .crashed fault)

/-! ### Answers -/

section Answers

variable {s t : Service τ} {handle : Option Handle}

theorem calls_of_serving (h : s.activity = .serving) : s.calls = s.commands.filterMap (·.call) := by
  unfold calls held?
  rw [h]
  rfl

theorem calls_of_commands {c : Command} {rest : List Command} (h : s.activity = .serving)
    (hc : s.commands = c :: rest) : s.calls = c.call.toList ++ rest.filterMap (·.call) := by
  rw [calls_of_serving h, hc, List.filterMap_cons]
  cases c.call <;> rfl

theorem answers_reply (s : Service τ) (call : Option CallId) (answer : Answer) :
    (s.reply call answer).answers = s.answers ++ call.toList.map fun id => (id, answer) := by
  cases call with
  | none => exact (List.append_nil _).symm
  | some id => rfl

@[simp] theorem calls_reply (s : Service τ) (call : Option CallId) (answer : Answer) :
    (s.reply call answer).calls = s.calls := by
  cases call <;> rfl

@[simp] theorem activity_reply (s : Service τ) (call : Option CallId) (answer : Answer) :
    (s.reply call answer).activity = s.activity := by
  cases call <;> rfl

theorem running_reply {call : Option CallId} {answer : Answer} (h : s.Running) :
    (s.reply call answer).Running := by
  cases call <;> exact h

theorem running_of_serving (h : s.activity = .serving) : s.Running := by
  unfold Running isOver
  rw [h]

/-- A call that has waited is answered. -/
theorem gives_reply {call : Option CallId} {answer : Answer} (ha : t.answers = s.answers)
    (hc : s.calls = call.toList ++ t.calls) (hh : ∀ h, answer.handle? = some h → handle = some h) :
    Gives handle s (t.reply call answer) := by
  refine ⟨call.toList.map fun id => (id, answer), ?_, ?_, ?_⟩
  · rw [answers_reply, ha]
  · have hid : (call.toList.map fun id => (id, answer)).map Prod.fst = call.toList := by
      rw [List.map_map]
      exact List.map_id call.toList
    rw [calls_reply, hc, hid]
  · intro id a hm
    obtain ⟨_, -, he⟩ := List.mem_map.1 hm
    cases he
    exact hh

/-- No call is answered. -/
theorem gives_nothing (ha : t.answers = s.answers) (hc : t.calls.Sublist s.calls) :
    Gives handle s t :=
  ⟨[], by rw [ha, List.append_nil], hc, fun _ _ hm => absurd hm List.not_mem_nil⟩

end Answers

/-! ### The ways a poll can go -/

section Ways

variable [Carrier τ] [Host] {s t : Service τ} {now rung : Instant}

omit [Carrier τ] [Host] in
/-- Work goes well, or it ends the service. -/
theorem act_cases {α : Type} (s : Service τ) (work : Act τ α) (next : α → Service τ → Service τ) :
    (∃ a station, work s.station = .ok a station ∧
      s.act work next = next a { s with station }) ∨
    ∃ fault station, work s.station = .error fault station ∧
      s.act work next = { s with station }.finish (.crashed fault) := by
  unfold act
  cases work s.station with
  | ok a station => exact .inl ⟨a, station, rfl, rfl⟩
  | error fault station => exact .inr ⟨fault, station, rfl, rfl⟩

omit [Carrier τ] [Host] in
/-- A fault of an act is a fault of all that begins with it. -/
theorem bind_eq_error {α β : Type} {x : Act τ α} {station station' : Station τ} {fault : Fault}
    (h : x station = .error fault station') (f : α → Act τ β) :
    (x >>= f) station = .error fault station' := by
  show EStateM.bind x f station = _
  unfold EStateM.bind
  rw [h]

/-- The way of an operation of which the answer goes to a call that has waited.  The service `t`
is `s` once the order for it is taken out. -/
theorem polled_of_act {α : Type} {work : Act τ α} {operation : Operation} (respond : α → Result)
    {call : Option CallId} {answer : α → Answer} (hw : s.work? now rung = some operation)
    (hs : t.station = s.station) (ht : t.activity = .serving) (ha : t.answers = s.answers)
    (hc : s.calls = call.toList ++ t.calls)
    (hop : Station.perform operation = work >>= fun a => pure (respond a))
    (hh : ∀ a, (answer a).handle? = (respond a).handle?) :
    Polled now rung s (t.act work fun a t => t.reply call (answer a)) := by
  rcases act_cases t work fun a t => t.reply call (answer a) with
    ⟨a, station, hok, he⟩ | ⟨fault, station, hfault, he⟩
  · rw [hs] at hok
    rw [he]
    refine .worked operation (respond a) hw ?_ (running_reply (running_of_serving ht)) ?_
    · rw [station_reply, hop]
      exact Act.bind_pure_eq_ok.2 ⟨a, hok, rfl⟩
    · exact gives_reply ha hc fun h hx => (hh a).symm.trans hx
  · rw [hs] at hfault
    rw [he]
    refine .crashed operation fault hw ?_ rfl
    rw [hop]
    exact bind_eq_error hfault _

/-- The way of an attempt at a broadcast. -/
theorem polled_of_attempt (hs : t.station = s.station) (ht : t.activity = .serving)
    (ha : t.answers = s.answers) {call : Option CallId} (hc : s.calls = call.toList ++ t.calls)
    (bulletin : Bulletin) (deadline : Instant) (isCorrection : Bool) :
    Polled now rung s (t.attempt call bulletin deadline isCorrection now) := by
  have hcalls := calls_of_serving ht
  unfold attempt
  rcases act_cases t (Station.tryBroadcast bulletin deadline now) _ with
    ⟨result, station, hok, he⟩ | ⟨fault, station, hfault, he⟩
  · rw [hs] at hok
    rw [he]
    cases result with
    | done result =>
      refine .aired bulletin deadline (.done result) ?_ (running_reply rfl) ?_
      · rw [station_reply]
        exact hok
      · refine gives_reply ha (hc.trans ?_) fun h hx => ?_
        · rw [hcalls]
          rfl
        · cases isCorrection <;> cases hx
    | wait ready =>
      refine .aired bulletin deadline (.wait ready) hok rfl (gives_nothing ha ?_)
      -- the call goes on waiting, ahead of all others
      rw [hc, hcalls]
      exact .refl _
  · rw [hs] at hfault
    rw [he]
    exact .muted bulletin deadline fault hfault rfl

/-- The way of a shutdown. -/
theorem polled_of_shutdown (hstops : s.Stops)
    (hw : s.work? now rung = some (.shutdown Host.toWalk now)) {commands : List Command}
    (ht : t = { s with commands }) :
    Polled now rung s (t.act (Station.shutdown now) fun () t => t.finish .stopped) := by
  rcases act_cases t (Station.shutdown now) fun () t => t.finish .stopped with
    ⟨⟨⟩, station, hok, he⟩ | ⟨fault, station, hfault, he⟩
  · rw [he]
    subst ht
    exact .stopped station hstops hok rfl
  · rw [he]
    subst ht
    exact .crashed (.shutdown Host.toWalk now) fault hw (bind_eq_error hfault _) rfl

/-- The way of work of which nobody waits for the answer. -/
theorem polled_of_work {work : Act τ Unit} {operation : Operation}
    (hw : s.work? now rung = some operation) (hs : t.station = s.station)
    (ht : t.activity = .serving) (ha : t.answers = s.answers) (hc : t.calls = s.calls)
    (hop : Station.perform operation = work >>= fun _ => pure .done) :
    Polled now rung s (t.act work fun () t => t) := by
  have hreply : (t.act work fun () t => t) = t.act work fun _ t => t.reply none .done := rfl
  rw [hreply]
  exact polled_of_act (fun _ => Result.done) hw hs ht ha hc.symm hop fun _ => rfl

/-- The way of a regular pass, wherever it puts the next one. -/
theorem polled_of_pass (hs : s.activity = .serving)
    (hw : s.work? now rung = some (.pumpAll Host.toWalk now)) (tickDue : Instant) :
    Polled now rung s ({ s with tickDue }.act (Station.pumpAll now) fun () t => t) :=
  polled_of_work hw rfl hs rfl rfl rfl

/-- The way of an order. -/
theorem polled_of_carryOut {c : Command} {rest : List Command} (hs : s.activity = .serving)
    (hc : s.commands = c :: rest) (hw : s.work? now rung = c.order.operation? now) :
    Polled now rung s ({ s with commands := rest }.carryOut c now) := by
  have hcalls : s.calls = c.call.toList ++ ({ s with commands := rest } : Service τ).calls := by
    rw [calls_of_commands hs hc, calls_of_serving (s := { s with commands := rest }) hs]
  obtain ⟨order, call⟩ := c
  -- a question leaves the station as it is
  have hquestion : ∀ answer : Answer, answer.handle? = none →
      Polled now rung s (({ s with commands := rest } : Service τ).reply call answer) :=
    fun answer ha => .asked (station_reply _ _ _) (running_reply (running_of_serving hs))
      (gives_reply rfl hcalls fun h hx => absurd (ha.symm.trans hx) (Option.some_ne_none h).symm)
  cases order with
  | submit request agent payload urgency maxAttempts =>
    refine polled_of_act Result.submitted hw rfl hs rfl hcalls rfl ?_
    intro result
    cases result <;> rfl
  | broadcast bulletin deadline =>
    exact polled_of_attempt (s := s) (t := { s with commands := rest }) rfl hs rfl hcalls _ _ _
  | correction bulletin skipIfIdle deadline =>
    unfold carryOut
    dsimp only
    split
    · exact polled_of_attempt (s := s) (t := { s with commands := rest }) rfl hs rfl hcalls _ _ _
    · exact hquestion _ rfl
  | cancel request =>
    refine .worked _ (.cancelled (Station.cancel request s.station).1) hw ?_
      (running_reply (running_of_serving hs)) (gives_reply rfl hcalls nofun)
    show _ = EStateM.Result.ok _ (Service.reply _ _ _).station
    rw [station_reply]
    rfl
  | deregister agent =>
    exact polled_of_act Result.deregistered hw rfl hs rfl hcalls rfl fun _ => rfl
  | adoptEpoch epoch =>
    refine .worked _ .done hw rfl (running_of_serving hs) (gives_nothing rfl ?_)
    rw [hcalls]
    exact List.sublist_append_right _ _
  | tick time =>
    exact polled_of_act (fun _ => Result.done) hw rfl hs rfl hcalls rfl fun _ => rfl
  | stop =>
    refine polled_of_shutdown (.inl ?_) hw rfl
    unfold next?
    rw [hs, hc]
    rfl
  | report | snapshots | presenceOf agent | phaseOf request => exact hquestion _ rfl

/-- Every poll goes one of these ways. -/
theorem polled_of_poll {s' : Service τ} (h : s.poll now rung = some s') :
    Polled now rung s s' := by
  obtain ⟨station, activity, commands, closed, inbox, tickDue, sweepDue, answers⟩ := s
  -- the cases come in the order in which the task looks for work
  cases activity with
  | stopped | crashed fault => cases h
  | holding hold =>
    unfold poll at h
    dsimp only at h
    split at h
    · cases h
      exact polled_of_attempt (s := ⟨station, .holding hold, commands, closed, inbox, tickDue,
        sweepDue, answers⟩) (t := ⟨station, .serving, commands, closed, inbox, tickDue, sweepDue,
        answers⟩) rfl rfl rfl rfl hold.bulletin hold.deadline hold.isCorrection
    · cases h
  | serving =>
    cases commands with
    | cons c rest =>
      cases h
      exact polled_of_carryOut rfl rfl rfl
    | nil =>
      cases closed with
      | true =>
        cases h
        exact polled_of_shutdown (.inr ⟨rfl, rfl, rfl⟩) rfl rfl
      | false =>
        cases inbox with
        | cons m rest =>
          cases h
          exact polled_of_work rfl rfl rfl rfl rfl rfl
        | nil =>
          unfold poll at h
          dsimp only at h
          rw [if_neg Bool.false_ne_true] at h
          by_cases ht : tickDue ≤ rung
          · rw [if_pos ht] at h
            have hw : work? ⟨station, .serving, [], false, [], tickDue, sweepDue, answers⟩ now
                rung = some (.pumpAll Host.toWalk now) := by
              unfold work?
              dsimp only
              rw [if_neg Bool.false_ne_true, if_pos ht]
            cases h
            exact again_induction (P := Polled now rung _)
              (fun fault hn => .lapsed _ _ fault (.inl ⟨ht, rfl⟩) hn rfl rfl)
              fun tickDue => polled_of_pass rfl hw tickDue
          · rw [if_neg ht] at h
            by_cases hs : sweepDue ≤ rung
            · rw [if_pos hs] at h
              have hw : work? ⟨station, .serving, [], false, [], tickDue, sweepDue, answers⟩ now
                  rung = some (.sweep Host.toWalk now) := by
                unfold work?
                dsimp only
                rw [if_neg Bool.false_ne_true, if_neg ht, if_pos hs]
              cases h
              exact again_induction (P := Polled now rung _)
                (fun fault hn => .lapsed _ _ fault (.inr ⟨hs, rfl⟩) hn rfl rfl) fun sweepDue =>
                .worked (.sweep Host.toWalk now) (.swept _) hw rfl rfl (gives_nothing rfl (.refl _))
            · rw [if_neg hs] at h
              cases h

end Ways

end Service

end GroundControl
