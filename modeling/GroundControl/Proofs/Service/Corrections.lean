import GroundControl.Proofs.Service.Signing
import GroundControl.Proofs.Station.Announcements

/-!
# A piece of the correction stream at a service

An order to send a piece of the correction stream waits behind the orders that came before it.  When
the task takes it up, it may have to wait for a token, and the task tries again from time to time
until the piece is dealt with.  In between anything else can happen to the service.

* `Piece`, what the caller has ordered; `Service.works?`, the call on whose order the task works in
  a turn; `Service.framesFor`, the frames handed over on behalf of a call;
* `Service.Bears`: what waits of a call is about the piece;
* `Service.Handled`, what a poll makes of a piece that the task has in hand; `handled_of_poll`;
* `Service.Touches`, what any poll does to other calls; `touches_of_poll`;
* `Service.Tracks`, the invariant: the call is answered once at most;
* `Service.Settles`, the poll that deals with the piece; `Service.Course`, what has become of it;
  `course_of_tracks`.
-/

namespace GroundControl

/-- A piece of the correction stream, and the call that waits to learn what became of it. -/
structure Piece where
  bulletin : Bulletin
  skipIfIdle : Bool
  /-- the instant up to which it can wait for a token -/
  deadline : Instant
  call : CallId

namespace Piece

/-- The order to send a piece. -/
def command (x : Piece) : Command :=
  ⟨.correction x.bulletin x.skipIfIdle x.deadline, some x.call⟩

/-- A piece that waits for a token until an instant. -/
def hold (x : Piece) (ready : Instant) : Hold := ⟨some x.call, x.bulletin, x.deadline, ready, true⟩

/-- What the task is at after it has had a piece in hand. -/
def activity (x : Piece) : Handling → Activity
  | .delayed ready => .holding (x.hold ready)
  | .faulty fault => .crashed fault
  | .skipped | .limited | .refused _ | .sent => .serving

end Piece

namespace Station

variable {τ : Type} [Carrier τ]

/-- What a station makes of a piece at `now`. -/
def handle (s : Station τ) (x : Piece) (now : Instant) : Handling :=
  s.handling x.bulletin x.skipIfIdle x.deadline now

/-- What the caller learns if the station has the piece in hand at `now`. -/
def answer? (s : Station τ) (x : Piece) (now : Instant) : Option Answer :=
  ((s.handle x now).result? s.id).map .corrected

end Station

namespace Service

variable {τ : Type}

/-- The call on whose order the task works in a turn. -/
def works? (s : Service τ) : Turn → Option CallId
  | .poll _ _ rung =>
      match s.activity with
      | .serving => s.commands.head?.bind (·.call)
      | .holding h => if h.ready ≤ rung then h.call else none
      | .stopped | .crashed _ => none
  | _ => none

variable [Carrier τ]

/-- The frames that are handed over on behalf of a call in turns, one after the other. -/
def framesFor (call : CallId) : Service τ → List Turn → List Sending
  | _, [] => []
  | s, t :: rest =>
      (if s.works? t = some call then (s.turn t).frames.drop s.frames.length else []) ++
        framesFor call (s.turn t) rest

/-- A poll of `s` at `now`, in which the task has had the piece in hand, has left `s'`. -/
structure Handled (x : Piece) (now : Instant) (s s' : Service τ) : Prop where
  activity : s'.activity = x.activity (s.station.handle x now)
  answers : s'.answers = s.answers ++ (s.station.answer? x now).toList.map (x.call, ·)
  frames : s'.frames =
    s.frames ++ (s.station.handle x now).frames (s.station.announcement x.bulletin)
  takes : s'.station.takesCorrection x.skipIfIdle = s.station.takesCorrection x.skipIfIdle

section Hand

variable {s s' : Service τ} {x : Piece} {host : Host} {now rung : Instant}

omit [Carrier τ] in
theorem takesCorrection_congr {t t' : Station τ} (hs : t'.settings = t.settings)
    (hw : t'.watch = t.watch) (skipIfIdle : Bool) :
    t'.takesCorrection skipIfIdle = t.takesCorrection skipIfIdle := by
  unfold Station.takesCorrection
  rw [hs, hw]

theorem handled_of_handle {handling : Handling} (hh : s.station.handle x now = handling)
    (ha : s'.activity = x.activity handling)
    (hr : s'.answers = s.answers ++
      ((handling.result? s.station.id).map Answer.corrected).toList.map (x.call, ·))
    (hf : s'.frames = s.frames ++ handling.frames (s.station.announcement x.bulletin))
    (ht : s'.station.takesCorrection x.skipIfIdle = s.station.takesCorrection x.skipIfIdle) :
    Handled x now s s' := by
  subst hh
  exact ⟨ha, hr, hf, ht⟩

theorem Handled.of_same {t : Service τ} (h : Handled x now t s') (hs : t.station = s.station)
    (ha : t.answers = s.answers) : Handled x now s s' := by
  obtain ⟨activity, answers, frames, takes⟩ := h
  unfold Service.frames at frames
  rw [hs] at activity answers frames takes
  exact ⟨activity, ha ▸ answers, frames, takes⟩

/-- An attempt at a piece that the network takes. -/
theorem handled_attempt (ht : s.station.takesCorrection x.skipIfIdle = true) :
    Handled x now s (s.attempt (some x.call) x.bulletin x.deadline true now) := by
  obtain ⟨station, htry, hs, hw, hf⟩ :=
    Station.tryBroadcast_handling x.bulletin x.deadline now ht
  have htakes := takesCorrection_congr hs hw x.skipIfIdle
  have hid : station.id = s.station.id := congrArg NetworkSettings.id hs
  change _ = (s.station.handle x now).ending station at htry
  change _ = _ ++ (s.station.handle x now).frames _ at hf
  unfold attempt act
  rw [htry]
  cases hh : s.station.handle x now with
  | skipped =>
    rw [Station.handling_eq_skipped_iff.1 hh] at ht
    cases ht
  | limited =>
    rw [hh] at hf
    refine handled_of_handle hh rfl ?_ hf htakes
    rw [← hid]
    rfl
  | refused e =>
    rw [hh] at hf
    refine handled_of_handle hh rfl ?_ hf htakes
    rw [← hid]
    rfl
  | delayed ready | faulty fault =>
    rw [hh] at hf
    exact handled_of_handle hh rfl (List.append_nil _).symm hf htakes
  | sent =>
    rw [hh] at hf
    exact handled_of_handle hh rfl rfl hf htakes

/-- Whatever of the call waits at the service is about the piece: its order, or its wait for a token
that ends at the deadline at the latest. -/
structure Bears (x : Piece) (s : Service τ) : Prop where
  orders : ∀ c ∈ s.commands, c.call = some x.call → c = x.command
  hold : ∀ h, s.activity = .holding h → h.call = some x.call →
    ∃ ready ≤ x.deadline, h = x.hold ready ∧ s.station.takesCorrection x.skipIfIdle = true

/-- In a poll in which the task works on the piece it has the piece in hand. -/
theorem handled_of_poll (hb : s.Bears x) (hw : s.works? (.poll host now rung) = some x.call) :
    ∃ s', s.poll now rung = some s' ∧ Handled x now s s' := by
  obtain ⟨station, activity, commands, closed, inbox, tickDue, sweepDue, answers⟩ := s
  cases activity with
  | stopped | crashed fault => cases hw
  | serving =>
    cases commands with
    | nil => cases hw
    | cons c rest =>
      obtain rfl := hb.orders c List.mem_cons_self hw
      refine ⟨_, rfl, ?_⟩
      unfold carryOut Piece.command
      dsimp only
      split
      · rename_i ht
        exact (handled_attempt (s := ⟨station, .serving, rest, closed, inbox, tickDue, sweepDue,
          answers⟩) ht).of_same rfl rfl
      · rename_i ht
        have hh : station.handle x now = .skipped :=
          Station.handling_eq_skipped_iff.2 (Bool.eq_false_iff.2 ht)
        exact handled_of_handle hh rfl rfl (List.append_nil _).symm rfl
  | holding h =>
    change (if h.ready ≤ rung then h.call else none) = _ at hw
    split at hw
    · rename_i hready
      obtain ⟨ready, -, rfl, ht⟩ := hb.hold h rfl hw
      refine ⟨_, if_pos hready, ?_⟩
      exact (handled_attempt (s := ⟨station, .serving, commands, closed, inbox, tickDue, sweepDue,
        answers⟩) ht).of_same rfl rfl
    · cases hw

end Hand

/-! ### Other calls -/

/-- What a poll of `s` has done that concerns callers: it has answered no call but `id`, it holds
back no broadcast of any other call, and if it has ended the service it has answered nobody. -/
structure Touches (id : Option CallId) (s s' : Service τ) : Prop where
  held : ∀ call, s'.held? = some call → id = some call
  answers : ∃ given, s'.answers = s.answers ++ given ∧ ∀ e ∈ given, id = some e.1
  silent : s'.isOver = true → s'.answers = s.answers

section Others

variable {s s' t : Service τ} {id : Option CallId} {host : Host} {now rung : Instant}

omit [Carrier τ] in
theorem held?_eq_none (h : s.activity = .serving) : s.held? = none := by
  unfold held?
  rw [h]

omit [Carrier τ] in
theorem held?_eq_none_of_over (h : s.isOver = true) : s.held? = none := by
  unfold isOver at h
  unfold held?
  cases ha : s.activity with
  | serving | stopped | crashed fault => rfl
  | holding hold =>
    rw [ha] at h
    cases h

omit [Carrier τ] in
theorem Touches.of_answers (h : Touches id t s') (ha : t.answers = s.answers) :
    Touches id s s' :=
  ⟨h.held, ha ▸ h.answers, ha ▸ h.silent⟩

omit [Carrier τ] in
theorem Touches.nothing (hh : s'.held? = none) (ha : s'.answers = s.answers) :
    Touches id s s' where
  held := fun call h => nomatch hh.symm.trans h
  answers := ⟨[], by rw [ha, List.append_nil], List.forall_mem_nil _⟩
  silent := fun _ => ha

omit [Carrier τ] in
theorem touches_reply (hs : s.activity = .serving) (answer : Answer) :
    Touches id s (s.reply id answer) where
  held := fun call h => nomatch (held?_eq_none ((activity_reply s id answer).trans hs)).symm.trans h
  answers := by
    refine ⟨_, answers_reply s id answer, fun e he => ?_⟩
    obtain ⟨call, hc, rfl⟩ := List.mem_map.1 he
    exact Option.mem_toList.1 hc
  silent := fun ho => by
    have hr : (s.reply id answer).Running := running_reply (running_of_serving hs)
    cases hr.symm.trans ho

omit [Carrier τ] in
/-- A fault ends the service, and answers nobody. -/
theorem touches_act {α : Type} {work : Act τ α} {next : α → Service τ → Service τ}
    (hnext : ∀ a station, Touches id { s with station } (next a { s with station })) :
    Touches id s (s.act work next) := by
  rcases act_cases s work next with ⟨a, station, -, he⟩ | ⟨fault, station, -, he⟩
  · rw [he]
    exact (hnext a station).of_answers rfl
  · rw [he]
    exact .nothing rfl rfl

theorem touches_attempt (s : Service τ) (id : Option CallId) (bulletin : Bulletin)
    (deadline : Instant) (isCorrection : Bool) (now : Instant) :
    Touches id s (s.attempt id bulletin deadline isCorrection now) := by
  refine touches_act fun result station => ?_
  cases result with
  | done result =>
    exact (touches_reply (s := { s with station, activity := .serving }) rfl _).of_answers rfl
  | wait ready =>
    exact ⟨fun call h => h, ⟨[], (List.append_nil _).symm, List.forall_mem_nil _⟩, fun _ => rfl⟩

theorem touches_carryOut [Walk] (hs : s.activity = .serving) (c : Command) (now : Instant) :
    Touches c.call s (s.carryOut c now) := by
  obtain ⟨order, call⟩ := c
  cases order with
  | submit | deregister | tick =>
    unfold carryOut
    exact touches_act fun result station => touches_reply (s := { s with station }) hs _
  | broadcast bulletin deadline => exact touches_attempt s call bulletin deadline false now
  | correction bulletin skipIfIdle deadline =>
    unfold carryOut
    dsimp only
    split
    · exact touches_attempt s call bulletin deadline true now
    · exact touches_reply hs _
  | adoptEpoch epoch => exact .nothing (held?_eq_none hs) rfl
  | stop =>
    unfold carryOut
    exact touches_act fun _ station => .nothing rfl rfl
  | cancel request =>
    exact (touches_reply (s := { s with station := (Station.cancel request s.station).2 }) hs
      _).of_answers rfl
  | report | snapshots | presenceOf agent | phaseOf request => exact touches_reply hs _

/-- A poll answers no call but the one on whose order the task works. -/
theorem touches_of_poll (h : s.poll now rung = some s') :
    Touches (s.works? (.poll host now rung)) s s' := by
  obtain ⟨station, activity, commands, closed, inbox, tickDue, sweepDue, answers⟩ := s
  unfold poll at h
  cases activity with
  | stopped | crashed fault => cases h
  | holding hold =>
    dsimp only at h
    split at h
    · rename_i hready
      cases h
      have hw : works? ⟨station, .holding hold, commands, closed, inbox, tickDue, sweepDue,
          answers⟩ (.poll host now rung) = hold.call := if_pos hready
      rw [hw]
      exact (touches_attempt ⟨station, .serving, commands, closed, inbox, tickDue, sweepDue,
        answers⟩ _ _ _ _ _).of_answers rfl
    · cases h
  | serving =>
    cases commands with
    | cons c rest =>
      cases h
      exact (touches_carryOut (s := ⟨station, .serving, rest, closed, inbox, tickDue, sweepDue,
        answers⟩) rfl c now).of_answers rfl
    | nil =>
      dsimp only at h
      split at h
      · cases h
        exact touches_act fun _ _ => .nothing rfl rfl
      · cases inbox with
        | cons m rest =>
          cases h
          exact (touches_act (s := ⟨station, .serving, [], closed, rest, tickDue, sweepDue,
            answers⟩) fun _ _ => .nothing rfl rfl).of_answers rfl
        | nil =>
          dsimp only at h
          split at h
          · cases h
            exact again_induction (P := Touches _ _) (fun _ _ => .nothing rfl rfl) fun tickDue =>
              (touches_act (s := ⟨station, .serving, [], closed,
              [], tickDue, sweepDue, answers⟩) fun _ _ => .nothing rfl rfl).of_answers rfl
          · split at h
            · cases h
              exact again_induction (P := Touches _ _) (fun _ _ => .nothing rfl rfl) fun _ =>
                .nothing rfl rfl
            · cases h

end Others

/-! ### The call in the course of time -/

/-- The call waits once at most, or was answered once at most, or its order comes `n` times at
most. -/
structure Tracks (x : Piece) (n : Nat) (s : Service τ) : Prop where
  bears : s.Bears x
  once : s.calls.count x.call + (s.answers.map Prod.fst).count x.call + n ≤ 1

section Tracking

variable {s s' : Service τ} {x : Piece} {n : Nat} {host : Host} {now rung : Instant}

omit [Carrier τ] in
theorem mem_calls_of_works? {t : Turn} {call : CallId} (h : s.works? t = some call) :
    call ∈ s.calls := by
  cases t with
  | order | receive | close => cases h
  | poll host now rung =>
    obtain ⟨station, activity, commands, closed, inbox, tickDue, sweepDue, answers⟩ := s
    cases activity with
    | stopped | crashed fault => cases h
    | serving =>
      cases commands with
      | nil => cases h
      | cons c rest => exact mem_calls_of_commands List.mem_cons_self h
    | holding hold =>
      change (if hold.ready ≤ rung then hold.call else none) = _ at h
      split at h
      · exact List.mem_append_left _ (Option.mem_toList.2 h)
      · cases h

theorem Bears.poll (h : s.Bears x) (hp : s.poll now rung = some s') : s'.Bears x := by
  refine ⟨fun c hc => h.orders c ((commands_of_poll hp).subset hc), fun hold ha hcall => ?_⟩
  have hheld : s'.held? = some x.call := by
    unfold held?
    rw [ha]
    exact hcall
  have hw := (touches_of_poll hp).held x.call hheld
  obtain ⟨s'', hp', hhandled⟩ := handled_of_poll h hw
  obtain rfl := Option.some.inj (hp.symm.trans hp')
  have hactivity := ha.symm.trans hhandled.activity
  cases hh : s.station.handle x now with
  | delayed ready =>
    rw [hh] at hactivity
    obtain ⟨ht, hclaim⟩ := Station.of_handling_eq_delayed hh
    exact ⟨ready, (Station.lt_of_claim_eq_wait hclaim).2, Activity.holding.inj hactivity,
      hhandled.takes.trans ht⟩
  | skipped | limited | faulty | refused | sent =>
    rw [hh] at hactivity
    cases hactivity

theorem Tracks.poll (h : s.Tracks x n) (hp : s.poll now rung = some s') : s'.Tracks x n := by
  refine ⟨h.bears.poll hp, Nat.le_trans (Nat.add_le_add_right ?_ n) h.once⟩
  have hgives : ∀ handle, Gives handle s s' →
      s'.calls.count x.call + (s'.answers.map Prod.fst).count x.call ≤
        s.calls.count x.call + (s.answers.map Prod.fst).count x.call := by
    rintro handle ⟨given, ha, hc, -⟩
    have hle := hc.count_le x.call
    rw [List.count_append] at hle
    rw [ha, List.map_append, List.count_append]
    omega
  -- a service that has ended holds nothing back, and has answered nobody on its way to the end
  have hover : s'.isOver = true →
      s'.calls.count x.call + (s'.answers.map Prod.fst).count x.call ≤
        s.calls.count x.call + (s.answers.map Prod.fst).count x.call := by
    intro ho
    have hheld : s'.held? = none := held?_eq_none_of_over ho
    have hcalls : s'.calls.Sublist s.calls := by
      unfold calls
      rw [hheld]
      exact ((commands_of_poll hp).sublist.filterMap _).trans (List.sublist_append_right _ _)
    rw [(touches_of_poll hp).silent ho]
    exact Nat.add_le_add_right (hcalls.count_le _) _
  cases polled_of_poll hp with
  | worked _ _ _ _ _ hg | aired _ _ _ _ _ hg | asked _ _ hg => exact hgives _ hg
  | stopped station hstops hs hs' => exact hover (hs' ▸ rfl)
  | crashed _ fault _ _ hs | lapsed _ _ fault _ _ _ hs | muted _ _ fault _ hs =>
    exact hover (isOver_of_crashed ⟨fault, hs⟩)

theorem Bears.turn (h : s.Bears x) {t : Turn}
    (ht : ∀ c, t = .order c → c.call = some x.call → c = x.command) : (s.turn t).Bears x := by
  cases t with
  | order c =>
    obtain ⟨ha, -⟩ := s.order_eq c
    refine ⟨fun d hd hcall => ?_, fun hold hh hcall => ?_⟩
    · rcases mem_commands_turn hd with hd | hd
      · exact h.orders d hd hcall
      · exact ht d hd hcall
    · have hstation := station_order s c
      change (s.order c).activity = _ at hh
      change ∃ ready ≤ x.deadline, _ ∧ (s.order c).station.takesCorrection _ = true
      rw [hstation]
      exact h.hold hold (ha.symm.trans hh) hcall
  | receive m =>
    have hr : s.turn (.receive m) = s ∨
        s.turn (.receive m) = { s with inbox := s.inbox ++ [m] } := by
      show s.receive m = _ ∨ s.receive m = _
      unfold receive
      split
      · exact .inl rfl
      · exact .inr rfl
    rcases hr with hr | hr
    · rwa [hr]
    · rw [hr]
      exact ⟨h.orders, h.hold⟩
  | close => exact ⟨h.orders, h.hold⟩
  | poll host now rung =>
    cases hp : s.poll now rung with
    | none => rwa [turn_poll_of_eq_none hp]
    | some s' =>
      rw [turn_poll_of_eq_some hp]
      exact h.poll hp

theorem Tracks.turn {t : Turn} (h : s.Tracks x (t.call?.toList.count x.call + n))
    (ht : ∀ c, t = .order c → c.call = some x.call → c = x.command) : (s.turn t).Tracks x n := by
  refine ⟨h.bears.turn ht, ?_⟩
  have honce := h.once
  cases t with
  | order c =>
    obtain ⟨-, ha, hc⟩ := s.order_eq c
    have hle := hc.count_le x.call
    rw [List.count_append] at hle
    change (s.order c).calls.count _ + ((s.order c).answers.map _).count _ + n ≤ 1
    change _ + (c.call.toList.count _ + n) ≤ 1 at honce
    rw [ha]
    omega
  | receive m =>
    obtain ⟨-, ha, hc⟩ := s.receive_eq m
    change (s.receive m).calls.count _ + ((s.receive m).answers.map _).count _ + n ≤ 1
    rw [ha, hc]
    exact Nat.zero_add n ▸ honce
  | close => exact Nat.zero_add n ▸ honce
  | poll host now rung =>
    have h : s.Tracks x n := ⟨h.bears, Nat.zero_add n ▸ honce⟩
    cases hp : s.poll now rung with
    | none =>
      rw [turn_poll_of_eq_none hp]
      exact h.once
    | some s' =>
      rw [turn_poll_of_eq_some hp]
      exact (h.poll hp).once

theorem answers_of_works?_ne {t : Turn} {call : CallId} (h : s.works? t ≠ some call) :
    ∃ given, (s.turn t).answers = s.answers ++ given ∧ call ∉ given.map Prod.fst := by
  cases t with
  | order c => exact ⟨[], (s.order_eq c).2.1.trans (List.append_nil _).symm, List.not_mem_nil⟩
  | receive m => exact ⟨[], (s.receive_eq m).2.1.trans (List.append_nil _).symm, List.not_mem_nil⟩
  | close => exact ⟨[], (List.append_nil _).symm, List.not_mem_nil⟩
  | poll host now rung =>
    cases hp : s.poll now rung with
    | none =>
      rw [turn_poll_of_eq_none hp]
      exact ⟨[], (List.append_nil _).symm, List.not_mem_nil⟩
    | some s' =>
      rw [turn_poll_of_eq_some hp]
      obtain ⟨given, ha, hg⟩ := (touches_of_poll hp).answers
      refine ⟨given, ha, fun hm => ?_⟩
      obtain ⟨e, he, rfl⟩ := List.mem_map.1 hm
      exact h (hg e he)

omit [Carrier τ] in
theorem lookup_eq_none_of_not_mem {l : List (CallId × Answer)} {call : CallId}
    (h : call ∉ l.map Prod.fst) : l.lookup call = none := by
  refine List.lookup_eq_none_iff.2 fun e he => ?_
  have hne : call ≠ e.1 := fun hc => h (hc ▸ List.mem_map_of_mem he)
  simpa using hne

omit [Carrier τ] in
theorem lookup_append_of_not_mem {l given : List (CallId × Answer)} {call : CallId}
    (h : call ∉ given.map Prod.fst) : (l ++ given).lookup call = l.lookup call := by
  rw [List.lookup_append, lookup_eq_none_of_not_mem h, Option.or_none]

theorem framesFor_cons_of_ne {t : Turn} {call : CallId} (h : s.works? t ≠ some call)
    (rest : List Turn) : s.framesFor call (t :: rest) = (s.turn t).framesFor call rest := by
  show (if s.works? t = some call then _ else []) ++ _ = _
  rw [if_neg h, List.nil_append]

end Tracking

/-! ### What becomes of a piece -/

/-- The task deals with the piece in a poll at `now`, and its caller gets the answer. -/
structure Settles (x : Piece) (host : Host) (now rung : Instant) (answer : Answer)
    (s : Service τ) : Prop where
  works : s.works? (.poll host now rung) = some x.call
  answer : s.station.answer? x now = some answer

/-- What has become of the piece after what has happened to the service. -/
inductive Course (x : Piece) (s : Service τ) (l : List Turn) : Prop
  /-- it waits, or it never came or has disappeared with the service -/
  | unsettled (ha : (s.turns l).answers.lookup x.call = none) (hf : s.framesFor x.call l = [])
      (hs : ∀ before host now rung after answer, l = before ++ .poll host now rung :: after →
        ¬ (s.turns before).Settles x host now rung answer)
  /-- it was dealt with in one of the polls, and in no other one -/
  | settled (before : List Turn) (host : Host) (now rung : Instant) (after : List Turn)
      (answer : Answer) (hl : l = before ++ .poll host now rung :: after)
      (hs : (s.turns before).Settles x host now rung answer)
      (ha : (s.turns l).answers.lookup x.call = some answer)
      (hf : s.framesFor x.call l = ((s.turns before).station.handle x now).frames
        ((s.turns before).station.announcement x.bulletin))
      (hone : ∀ before' host' now' rung' after' answer',
        l = before' ++ .poll host' now' rung' :: after' →
        (s.turns before').Settles x host' now' rung' answer' → before' = before ∧ now' = now)

section Courses

variable {s s' : Service τ} {x : Piece} {l : List Turn}

theorem mem_calls_turn {t : Turn} {call : CallId} (h : call ∈ (s.turn t).calls) :
    call ∈ s.calls ∨ t.call? = some call := by
  cases t with
  | order c =>
    exact (List.mem_append.1 ((s.order_eq c).2.2.subset h)).imp_right Option.mem_toList.1
  | receive m =>
    change call ∈ (s.receive m).calls at h
    exact .inl ((s.receive_eq m).2.2 ▸ h)
  | close => exact .inl h
  | poll host now rung =>
    cases hp : s.poll now rung with
    | none =>
      rw [turn_poll_of_eq_none hp] at h
      exact .inl h
    | some s' =>
      rw [turn_poll_of_eq_some hp] at h
      refine .inl ?_
      rcases List.mem_append.1 h with h | h
      · exact mem_calls_of_works? ((touches_of_poll hp).held call (Option.mem_toList.1 h))
      · have hc := (commands_of_poll hp).sublist.filterMap (·.call)
        exact List.mem_append_right _ (hc.subset h)

/-- Nothing is done on behalf of a call that does not wait and does not come. -/
theorem framesFor_of_absent {call : CallId} (h : call ∉ s.calls) (hl : call ∉ callsOf l) :
    s.framesFor call l = [] ∧ (s.turns l).answers.lookup call = s.answers.lookup call ∧
      ∀ before t after, l = before ++ t :: after → (s.turns before).works? t ≠ some call := by
  induction l generalizing s with
  | nil => exact ⟨rfl, rfl, by simp⟩
  | cons t rest ih =>
    rw [callsOf_cons, List.mem_append, not_or, Option.mem_toList] at hl
    have hw : s.works? t ≠ some call := fun hw => h (mem_calls_of_works? hw)
    obtain ⟨given, hgiven, hnot⟩ := answers_of_works?_ne hw
    obtain ⟨hf, hlookup, hworks⟩ := ih (fun hm => (mem_calls_turn hm).elim h hl.1) hl.2
    refine ⟨(framesFor_cons_of_ne hw rest).trans hf, ?_, fun before t' after hsplit => ?_⟩
    · rw [turns_cons, hlookup, hgiven, lookup_append_of_not_mem hnot]
    · cases before with
      | nil =>
        cases hsplit
        exact hw
      | cons u before =>
        cases hsplit
        exact hworks before t' after rfl

/-- A turn that does not settle the piece leaves its course to the turns that follow. -/
theorem Course.cons {t : Turn} (h : Course x (s.turn t) l)
    (hf : s.framesFor x.call (t :: l) = (s.turn t).framesFor x.call l)
    (hs : ∀ host now rung answer, t = .poll host now rung → ¬ s.Settles x host now rung answer) :
    Course x s (t :: l) := by
  cases h with
  | unsettled ha hframes hnone =>
    refine .unsettled ha (hf.trans hframes) fun before host now rung after answer hsplit => ?_
    cases before with
    | nil => exact hs host now rung answer (List.cons.inj hsplit).1
    | cons u before =>
      obtain ⟨rfl, rfl⟩ := List.cons.inj hsplit
      exact hnone before host now rung after answer rfl
  | settled before host now rung after answer hl hsettles ha hframes hone =>
    refine .settled (t :: before) host now rung after answer (by rw [hl]; rfl) hsettles ha
      (hf.trans hframes) fun before' host' now' rung' after' answer' hsplit h => ?_
    cases before' with
    | nil => exact absurd h (hs host' now' rung' answer' (List.cons.inj hsplit).1)
    | cons u before' =>
      obtain ⟨rfl, hrest⟩ := List.cons.inj hsplit
      obtain ⟨rfl, rfl⟩ := hone before' host' now' rung' after' answer' hrest h
      exact ⟨rfl, rfl⟩

/-- A poll that deals with the piece settles it. -/
theorem Handled.course {host : Host} {now rung : Instant} {answer : Answer} (h : Handled x now s s')
    (hp : s.poll now rung = some s') (hs : s.Settles x host now rung answer)
    (ht : s'.Tracks x ((callsOf l).count x.call)) (hn : x.call ∉ s.answers.map Prod.fst) :
    Course x s (.poll host now rung :: l) := by
  have hturn := turn_poll_of_eq_some hp
  have hanswers := h.answers
  rw [hs.answer] at hanswers
  have hanswers : s'.answers = s.answers ++ [(x.call, answer)] := hanswers
  have hanswered : 0 < (s'.answers.map Prod.fst).count x.call := by
    rw [hanswers]
    exact List.count_pos_iff.2 (by simp)
  -- the call is answered, so it waits no longer and does not come again
  have honce := ht.once
  have hcalls : x.call ∉ s'.calls := List.count_eq_zero.1 (by omega)
  have hrest : x.call ∉ callsOf l := List.count_eq_zero.1 (by omega)
  obtain ⟨hf, hl, hworks⟩ := framesFor_of_absent hcalls hrest
  refine .settled [] host now rung l answer rfl hs ?_ ?_
    fun before host' now' rung' after answer' hsplit h => ?_
  · rw [turns_cons, hturn, hl, hanswers, List.lookup_append, lookup_eq_none_of_not_mem hn,
      Option.none_or]
    simp
  · show (if s.works? (.poll host now rung) = some x.call then _ else []) ++ _ = _
    rw [if_pos hs.works, hturn, hf, h.frames, List.drop_left, List.append_nil]
    rfl
  · cases before with
    | nil =>
      cases hsplit
      exact ⟨rfl, rfl⟩
    | cons u before =>
      obtain ⟨rfl, hrest⟩ := List.cons.inj hsplit
      have hnot := hworks before _ after hrest
      rw [turns_cons, hturn] at h
      exact absurd h.works hnot

theorem course_of_tracks (h : s.Tracks x ((callsOf l).count x.call))
    (hm : ∀ c, .order c ∈ l → c.call = some x.call → c = x.command)
    (hn : x.call ∉ s.answers.map Prod.fst) : Course x s l := by
  induction l generalizing s with
  | nil =>
    exact .unsettled (lookup_eq_none_of_not_mem hn) rfl (by simp)
  | cons t rest ih =>
    rw [callsOf_cons, List.count_append] at h
    have hnext := h.turn fun c hc => hm c (hc ▸ List.mem_cons_self)
    have hrest := fun c hc => hm c (List.mem_cons_of_mem t hc)
    by_cases hw : s.works? t = some x.call
    · cases t with
      | order | receive | close => cases hw
      | poll host now rung =>
        obtain ⟨s', hp, hh⟩ := handled_of_poll h.bears hw
        have hturn := turn_poll_of_eq_some hp
        cases hans : s.station.answer? x now with
        | some answer => exact hh.course hp ⟨hw, hans⟩ (hturn ▸ hnext) hn
        | none =>
          -- the piece waits for a token, or the throttle has met a fault
          have hanswers := hh.answers
          rw [hans] at hanswers
          have hanswers : s'.answers = s.answers := hanswers.trans (List.append_nil _)
          refine (ih hnext hrest ?_).cons ?_ ?_
          · rw [hturn, hanswers]
            exact hn
          · show (if s.works? (.poll host now rung) = some x.call then _ else []) ++ _ = _
            rw [if_pos hw, hturn, hh.frames, List.drop_left,
              Handling.frames_of_result?_eq_none (Option.map_eq_none_iff.1 hans), List.nil_append]
          · rintro _ _ _ answer ⟨⟩ hs
            cases hans.symm.trans hs.answer
    · obtain ⟨given, hgiven, hnot⟩ := answers_of_works?_ne hw
      refine (ih hnext hrest ?_).cons (framesFor_cons_of_ne hw rest) ?_
      · rw [hgiven, List.map_append]
        exact fun hmem => (List.mem_append.1 hmem).elim hn hnot
      · rintro host now rung answer rfl hs
        exact hw hs.works

end Courses

end Service

end GroundControl
