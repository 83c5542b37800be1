import GroundControl.Proofs.Service.Signing

/-!
# The request numbers of a service

A number that a service was ordered to submit a request under waits with the order, and then it
either goes into one handle or is gone.  A service never changes the settings of its station.

* `Order.submission?`, `Turn.submission?`, the number under which a request is submitted;
* `Service.handles`, the handles that were given out; `Service.numbers`, the numbers in them and in
  the orders that wait;
* `numbers_of_poll`, `count_numbers_turn`: no turn adds to the numbers but the order of a
  submission;
* `settings_turn`.
-/

namespace GroundControl

/-- The number under which an order submits a request. -/
def Order.submission? : Order → Option RequestId
  | .submit request .. => some request
  | _ => none

/-- The number under which a request is submitted. -/
def Turn.submission? : Turn → Option RequestId
  | .order c => c.order.submission?
  | _ => none

namespace Service

variable {τ : Type}

/-- The handles that the service has given out. -/
def handles (s : Service τ) : List Handle := s.answers.filterMap (·.2.handle?)

/-- The numbers of the orders to submit that wait. -/
def queued (s : Service τ) : List RequestId := s.commands.filterMap (·.order.submission?)

/-- The numbers in the handles that were given out and in the orders that wait. -/
def numbers (s : Service τ) : List RequestId := s.handles.map Handle.request ++ s.queued

section Replies

variable {s : Service τ} {numbers : List RequestId}

theorem handles_reply (s : Service τ) (call : Option CallId) (answer : Answer) :
    (s.reply call answer).handles =
      s.handles ++ if call.isSome then answer.handle?.toList else [] := by
  unfold handles
  rw [answers_reply, List.filterMap_append]
  cases call with
  | none => rfl
  | some id =>
    cases h : answer.handle? <;> simp [h]

theorem queued_reply (s : Service τ) (call : Option CallId) (answer : Answer) :
    (s.reply call answer).queued = s.queued := by
  cases call <;> rfl

/-- An answer without a handle leaves the numbers as they are. -/
theorem numbers_reply (s : Service τ) (call : Option CallId) {answer : Answer}
    (h : answer.handle? = none) : (s.reply call answer).numbers = s.numbers := by
  unfold Service.numbers
  rw [handles_reply, queued_reply, h, Option.toList_none, ite_self, List.append_nil]

/-- Work that ends the service leaves the handles. -/
theorem numbers_act {α : Type} {work : Act τ α} {next : α → Service τ → Service τ}
    (hs : (s.handles.map Handle.request).Sublist numbers)
    (hnext : ∀ a station, work s.station = .ok a station →
      (next a { s with station }).numbers.Sublist numbers) :
    (s.act work next).numbers.Sublist numbers := by
  rcases act_cases s work next with ⟨a, station, hok, he⟩ | ⟨fault, station, -, he⟩
  · rw [he]
    exact hnext a station hok
  · rw [he]
    show (s.handles.map Handle.request ++ []).Sublist numbers
    rwa [List.append_nil]

/-- The numbers are a matter of the answers and of the orders that wait. -/
theorem numbers_kept {s s' : Service τ} (ha : s'.answers = s.answers)
    (hc : s'.commands = s.commands) : s'.numbers.Sublist s.numbers := by
  unfold Service.numbers handles queued
  rw [ha, hc]

theorem sublist_numbers (s : Service τ) : (s.handles.map Handle.request).Sublist s.numbers :=
  List.sublist_append_left _ _

theorem handles_kept {s s' : Service τ} (ha : s'.answers = s.answers) :
    (s'.handles.map Handle.request).Sublist s.numbers := by
  have hh : s'.handles = s.handles := by
    unfold handles
    rw [ha]
  rw [hh]
  exact s.sublist_numbers

theorem numbers_finish (s : Service τ) (activity : Activity) :
    (s.finish activity).numbers.Sublist s.numbers := by
  show (s.handles.map Handle.request ++ []).Sublist _
  rw [List.append_nil]
  exact s.sublist_numbers

end Replies

/-! ### Polls -/

section Polls

variable [Carrier τ] {host : Host} {s s' : Service τ} {now rung : Instant}

theorem numbers_attempt (s : Service τ) (call : Option CallId) (bulletin : Bulletin)
    (deadline : Instant) (isCorrection : Bool) (now : Instant) :
    (s.attempt call bulletin deadline isCorrection now).numbers.Sublist s.numbers := by
  refine numbers_act s.sublist_numbers fun result station _ => ?_
  cases result with
  | done result =>
    have ha : (broadcastAnswer isCorrection result).handle? = none := by
      cases isCorrection <;> rfl
    have hr := numbers_reply { s with station, activity := .serving } call ha
    rw [hr]
    exact numbers_kept rfl rfl
  | wait ready => exact numbers_kept rfl rfl

/-- The handle of a submission has the number under which the request was submitted. -/
theorem request_of_submit {request : RequestId} {agent : AgentId} {payload : Payload}
    {urgency : Urgency} {maxAttempts : Nat} {handle : Handle} {station station' : Station τ}
    (h : Station.submit request agent payload urgency maxAttempts now station =
      .ok (.ok handle) station') : handle.request = request := by
  have hp : Station.perform (.submit request agent payload urgency maxAttempts now) station =
      .ok (.submitted (.ok handle)) station' := Act.bind_pure_eq_ok.2 ⟨_, h, rfl⟩
  have hs := Station.submission_of_handle hp (x := handle) rfl
  exact (congrArg Prod.fst (Option.some.inj hs)).symm

/-- Carrying out an order to submit turns its number into a handle at most. -/
theorem numbers_carryOut [Walk] (s : Service τ) (c : Command) (now : Instant) :
    (s.carryOut c now).numbers.Sublist
      (s.handles.map Handle.request ++ (c.order.submission?.toList ++ s.queued)) := by
  have hnumbers : s.numbers.Sublist
      (s.handles.map Handle.request ++ (c.order.submission?.toList ++ s.queued)) :=
    (List.sublist_append_right _ _).append_left _
  have hhandles := s.sublist_numbers.trans hnumbers
  -- work that is answered without a handle
  have hwork : ∀ {α : Type} {work : Act τ α} {answer : α → Answer},
      (∀ a, (answer a).handle? = none) →
        (s.act work fun a s => s.reply c.call (answer a)).numbers.Sublist
          (s.handles.map Handle.request ++ (c.order.submission?.toList ++ s.queued)) :=
    fun ha => numbers_act hhandles fun a station _ => by
      rw [numbers_reply _ _ (ha a)]
      exact (numbers_kept rfl rfl).trans hnumbers
  have hquestion : ∀ {answer : Answer} (station : Station τ), answer.handle? = none →
      (({ s with station } : Service τ).reply c.call answer).numbers.Sublist
        (s.handles.map Handle.request ++ (c.order.submission?.toList ++ s.queued)) :=
    fun station ha => by
      rw [numbers_reply _ _ ha]
      exact (numbers_kept rfl rfl).trans hnumbers
  obtain ⟨order, call⟩ := c
  cases order with
  | submit request agent payload urgency maxAttempts =>
    refine numbers_act hhandles fun result station hok => ?_
    cases result with
    | error e =>
      rw [numbers_reply { s with station } call rfl]
      exact (numbers_kept rfl rfl).trans hnumbers
    | ok handle =>
      obtain rfl := request_of_submit hok
      unfold numbers
      rw [handles_reply, queued_reply, List.map_append, List.append_assoc]
      refine ((?_ : List.Sublist _ [handle.request]).append_right _).append_left _
      cases call with
      | none => exact List.nil_sublist _
      | some id => exact .refl _
  | broadcast bulletin deadline => exact (numbers_attempt s call ..).trans hnumbers
  | correction bulletin skipIfIdle deadline =>
    unfold carryOut
    dsimp only
    split
    · exact (numbers_attempt s call ..).trans hnumbers
    · exact hquestion s.station rfl
  | cancel request => exact hquestion _ rfl
  | deregister agent => exact hwork fun _ => rfl
  | adoptEpoch epoch => exact (numbers_kept rfl rfl).trans hnumbers
  | tick time => exact hwork fun _ => rfl
  | stop => exact numbers_act hhandles fun _ station _ =>
      (numbers_finish { s with station } .stopped).trans hnumbers
  | report | snapshots | presenceOf agent | phaseOf request => exact hquestion s.station rfl

theorem numbers_of_poll (h : s.poll now rung = some s') : s'.numbers.Sublist s.numbers := by
  obtain ⟨station, activity, commands, closed, inbox, tickDue, sweepDue, answers⟩ := s
  unfold poll at h
  cases activity with
  | stopped | crashed fault => cases h
  | holding hold =>
    dsimp only at h
    split at h
    · cases h
      exact numbers_attempt _ _ _ _ _ _
    · cases h
  | serving =>
    cases commands with
    | cons c rest =>
      cases h
      refine (numbers_carryOut _ c now).trans ?_
      unfold numbers queued
      dsimp only
      rw [List.filterMap_cons]
      cases c.order.submission? <;> exact .refl _
    | nil =>
      dsimp only at h
      split at h
      · cases h
        exact numbers_act (handles_kept rfl) fun _ station _ =>
          (numbers_finish _ _).trans (numbers_kept rfl rfl)
      · cases inbox with
        | cons m rest =>
          cases h
          exact numbers_act (handles_kept rfl) fun _ _ _ => numbers_kept rfl rfl
        | nil =>
          dsimp only at h
          split at h
          · cases h
            exact again_induction (P := fun s => s.numbers.Sublist _)
              (fun _ _ => numbers_finish _ _)
              fun _ => numbers_act (handles_kept rfl) fun _ _ _ => numbers_kept rfl rfl
          · split at h
            · cases h
              exact again_induction (P := fun s => s.numbers.Sublist _)
                (fun _ _ => numbers_finish _ _) fun _ => numbers_kept rfl rfl
            · cases h

/-- Only the order of a submission adds a number. -/
theorem count_numbers_turn (s : Service τ) (t : Turn) (n : RequestId) :
    (s.turn t).numbers.count n ≤ s.numbers.count n + t.submission?.toList.count n := by
  cases t with
  | order c =>
    show (s.order c).numbers.count n ≤ _
    unfold order
    split
    · exact Nat.le_add_right _ _
    · have hq : ({ s with commands := s.commands ++ [c] } : Service τ).numbers =
          s.numbers ++ c.order.submission?.toList := by
        unfold numbers queued
        rw [filterMap_concat, ← List.append_assoc]
        rfl
      rw [hq, List.count_append]
      exact Nat.le_refl _
  | receive m =>
    show (s.receive m).numbers.count n ≤ _
    unfold receive
    split <;> exact Nat.le_add_right _ _
  | close => exact Nat.le_add_right _ _
  | poll host now rung =>
    refine Nat.le_trans ?_ (Nat.le_add_right _ _)
    cases hp : s.poll now rung with
    | none => exact Nat.le_of_eq (by rw [turn_poll_of_eq_none hp])
    | some s' =>
      rw [turn_poll_of_eq_some hp]
      exact (numbers_of_poll hp).count_le n

/-! ### Settings -/

theorem settings_turn (s : Service τ) (t : Turn) :
    (s.turn t).station.settings = s.station.settings := by
  cases t with
  | order c => exact congrArg Station.settings (station_order s c)
  | receive m => exact congrArg Station.settings (station_receive s m)
  | close => rfl
  | poll host now rung =>
    cases hp : s.poll now rung with
    | none => rw [turn_poll_of_eq_none hp]
    | some s' =>
      rw [turn_poll_of_eq_some hp]
      rcases stamps_or_adopts (polled_of_poll hp) with hs | ⟨c, -, epoch, -, ha⟩
      · exact hs.settings
      · rw [ha]
        rfl

end Polls

end Service

end GroundControl
