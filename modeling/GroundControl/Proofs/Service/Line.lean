import GroundControl.Proofs.Service.Corrections

/-!
# Waiting in line

What a service has taken in hand and the orders that wait stand in a line.  Whoever stands in it
moves up with every poll, except that a broadcast at its head can wait for a token until its
deadline; so every call is settled after as many polls past the deadlines as there were orders
before it.

* `Service.line`; `Turn.isPast`, a poll past an instant;
* `Service.Moves`, what a poll makes of the line; `moves_of_poll`;
* `Service.Patient`: no wait for a token ends after its deadline; `patient_turn`;
* `Service.Within`, the invariant: a bounded number of others stand before a call; `Within.turn`,
  `settled_of_within`.
-/

namespace GroundControl

/-- A poll at an instant not before `limit`, at which all timers set for up to `limit` have rung. -/
def Turn.isPast (limit : Instant) : Turn → Bool
  | .poll _ now rung => decide (limit ≤ now) && decide (limit ≤ rung)
  | _ => false

namespace Service

variable {τ : Type}

/-- What the task has in hand and what waits: each time the call to be answered, and the deadline of
a broadcast. -/
def line (s : Service τ) : List (Option CallId × Option Instant) :=
  (match s.activity with
    | .holding h => [(h.call, some h.deadline)]
    | _ => []) ++ s.commands.map fun c => (c.call, c.order.deadline?)

/-- No wait for a token ends after its deadline. -/
def Patient (s : Service τ) : Prop := ∀ h, s.activity = .holding h → h.ready ≤ h.deadline

section Line

variable {s s' : Service τ} {host : Host} {now rung : Instant}

theorem filterMap_line (s : Service τ) : s.line.filterMap Prod.snd = s.deadlines := by
  unfold line deadlines
  rw [List.filterMap_append, List.filterMap_map]
  cases s.activity <;> rfl

theorem line_of_serving (h : s.activity = .serving) :
    s.line = s.commands.map fun c => (c.call, c.order.deadline?) := by
  unfold line
  rw [h]
  rfl

theorem line_of_holding {h : Hold} (ha : s.activity = .holding h) :
    s.line = (h.call, some h.deadline) :: s.commands.map fun c => (c.call, c.order.deadline?) := by
  unfold line
  rw [ha]
  rfl

/-- A poll of a service with the line `line` at `now` has left `s'`. -/
inductive Moves (now : Instant) (line : List (Option CallId × Option Instant)) (s' : Service τ) :
    Prop
  /-- the service has ended -/
  | ends (h : s'.isOver = true)
  /-- the head of the line, if there was one, is dealt with -/
  | up (h : s'.activity = .serving) (hl : s'.line = line.tail)
  /-- the head of the line waits for a token -/
  | stays (hold : Hold) (h : s'.activity = .holding hold) (hlt : now < hold.ready)
      (hle : hold.ready ≤ hold.deadline) (hl : s'.line = line)

theorem moves_act {α : Type} {work : Act τ α} {next : α → Service τ → Service τ}
    {line : List (Option CallId × Option Instant)}
    (hnext : ∀ a station, work s.station = .ok a station →
      Moves now line (next a { s with station })) : Moves now line (s.act work next) := by
  rcases act_cases s work next with ⟨a, station, hw, he⟩ | ⟨fault, station, -, he⟩
  · rw [he]
    exact hnext a station hw
  · rw [he]
    exact .ends rfl

theorem moves_reply (h : s.activity = .serving) (call : Option CallId) (answer : Answer)
    {line : List (Option CallId × Option Instant)} (hl : s.line = line.tail) :
    Moves now line (s.reply call answer) := by
  refine .up ((activity_reply s call answer).trans h) ?_
  rw [← hl]
  cases call <;> rfl

variable [Carrier τ]

theorem moves_attempt (s : Service τ) (call : Option CallId) (bulletin : Bulletin)
    (deadline : Instant) (isCorrection : Bool) (now : Instant)
    {line : List (Option CallId × Option Instant)}
    (hl : line = (call, some deadline) :: s.commands.map fun c => (c.call, c.order.deadline?)) :
    Moves now line (s.attempt call bulletin deadline isCorrection now) := by
  subst hl
  refine moves_act fun result station hw => ?_
  cases result with
  | done result => exact moves_reply rfl call _ rfl
  | wait ready =>
    obtain ⟨hlt, hle⟩ := Station.lt_of_tryBroadcast_eq_wait hw
    exact .stays _ rfl hlt hle rfl

theorem moves_carryOut [Walk] (hs : s.activity = .serving) (c : Command) (now : Instant) :
    Moves now ((c.call, c.order.deadline?) :: s.line) (s.carryOut c now) := by
  have hline := line_of_serving hs
  obtain ⟨order, call⟩ := c
  cases order with
  | submit | deregister | tick =>
    unfold carryOut
    exact moves_act fun result station _ => moves_reply (s := { s with station }) hs _ _ rfl
  | broadcast bulletin deadline =>
    exact moves_attempt s call bulletin deadline false now (by rw [hline]; rfl)
  | correction bulletin skipIfIdle deadline =>
    unfold carryOut
    dsimp only
    split
    · exact moves_attempt s call bulletin deadline true now (by rw [hline]; rfl)
    · exact moves_reply hs call _ rfl
  | cancel request =>
    exact moves_reply (s := { s with station := (Station.cancel request s.station).2 })
      hs call _ rfl
  | adoptEpoch epoch => exact .up hs rfl
  | stop =>
    unfold carryOut
    exact moves_act fun _ station _ => .ends rfl
  | report | snapshots | presenceOf agent | phaseOf request => exact moves_reply hs call _ rfl

theorem moves_of_poll (h : s.poll now rung = some s') : Moves now s.line s' := by
  obtain ⟨station, activity, commands, closed, inbox, tickDue, sweepDue, answers⟩ := s
  unfold poll at h
  cases activity with
  | stopped | crashed fault => cases h
  | holding hold =>
    dsimp only at h
    split at h
    · cases h
      exact moves_attempt _ _ _ _ _ _ rfl
    · cases h
  | serving =>
    cases commands with
    | cons c rest =>
      cases h
      exact moves_carryOut (s := ⟨station, .serving, rest, closed, inbox, tickDue, sweepDue,
        answers⟩) rfl c now
    | nil =>
      dsimp only at h
      split at h
      · cases h
        exact moves_act fun _ _ _ => .ends rfl
      · cases inbox with
        | cons m rest =>
          cases h
          exact moves_act fun _ _ _ => .up rfl rfl
        | nil =>
          dsimp only at h
          split at h
          · cases h
            exact again_induction (P := Moves now _) (fun _ _ => .ends rfl) fun _ =>
              moves_act fun _ _ _ => .up rfl rfl
          · split at h
            · cases h
              exact again_induction (P := Moves now _) (fun _ _ => .ends rfl) fun _ => .up rfl rfl
            · cases h

/-- The task works for the head of the line. -/
theorem works?_of_line {call : Option CallId} {deadline : Option Instant}
    {back : List (Option CallId × Option Instant)} (h : s.poll now rung = some s')
    (hl : s.line = (call, deadline) :: back) : s.works? (.poll host now rung) = call := by
  obtain ⟨station, activity, commands, closed, inbox, tickDue, sweepDue, answers⟩ := s
  unfold poll at h
  cases activity with
  | stopped | crashed fault => cases h
  | holding hold =>
    dsimp only at h
    split at h
    · rename_i hready
      cases hl
      exact if_pos hready
    · cases h
  | serving =>
    cases commands with
    | nil => cases hl
    | cons c rest =>
      cases hl
      rfl

/-- As long as somebody stands in line there is something to do, once no wait has to go on. -/
theorem exists_poll_of_line (hr : s.Running) (hl : s.line ≠ [])
    (hready : ∀ h, s.activity = .holding h → h.ready ≤ rung) :
    ∃ s', s.poll now rung = some s' := by
  obtain ⟨station, activity, commands, closed, inbox, tickDue, sweepDue, answers⟩ := s
  cases activity with
  | stopped | crashed fault => cases hr
  | holding hold => exact ⟨_, if_pos (hready hold rfl)⟩
  | serving =>
    cases commands with
    | nil => exact absurd rfl hl
    | cons c rest => exact ⟨_, rfl⟩

/-! ### Patience -/

omit [Carrier τ] in
theorem Moves.patient {line : List (Option CallId × Option Instant)} (h : Moves now line s') :
    s'.Patient := by
  intro hold ha
  cases h with
  | ends ho =>
    unfold isOver at ho
    rw [ha] at ho
    cases ho
  | up hs => cases ha.symm.trans hs
  | stays hold' hs _ hle =>
    cases ha.symm.trans hs
    exact hle

omit [Carrier τ] in
theorem patient_of_activity (h : s.Patient) (ha : s'.activity = s.activity) : s'.Patient :=
  fun hold hh => h hold (ha.symm.trans hh)

theorem patient_turn (h : s.Patient) (t : Turn) : (s.turn t).Patient := by
  cases t with
  | order c => exact patient_of_activity h (s.order_eq c).1
  | receive m => exact patient_of_activity h (s.receive_eq m).1
  | close => exact h
  | poll host now rung =>
    cases hp : s.poll now rung with
    | none => rwa [turn_poll_of_eq_none hp]
    | some s' =>
      rw [turn_poll_of_eq_some hp]
      exact (moves_of_poll hp).patient

end Line

/-! ### Calls that stand in line -/

/-- The service runs, and fewer than `n` others stand before the piece in line, with no deadline
after `limit`. -/
structure Within (x : Piece) (limit : Instant) (n : Nat) (s : Service τ) : Prop where
  running : s.Running
  bears : s.Bears x
  patient : s.Patient
  place : ∃ front back, s.line = front ++ (some x.call, some x.deadline) :: back ∧
    front.length < n ∧ ∀ deadline ∈ front.filterMap Prod.snd, deadline ≤ limit

section Within

variable [Carrier τ] {s s' : Service τ} {x : Piece} {host : Host} {limit now rung : Instant}
  {n : Nat}

omit [Carrier τ] in
/-- A call is settled if it was answered, or the service has ended. -/
theorem callEnd?_ne_none_iff {call : CallId} :
    s.callEnd? call ≠ none ↔ call ∈ s.answers.map Prod.fst ∨ s.isOver = true := by
  unfold callEnd?
  cases hl : s.answers.lookup call with
  | some answer =>
    have hm : call ∈ s.answers.map Prod.fst := by
      by_contra hnot
      cases (lookup_eq_none_of_not_mem hnot).symm.trans hl
    exact ⟨fun _ => .inl hm, fun _ => Option.some_ne_none _⟩
  | none =>
    have hnot : call ∉ s.answers.map Prod.fst := by
      intro h
      obtain ⟨e, he, rfl⟩ := List.mem_map.1 h
      have hne := List.lookup_eq_none_iff.1 hl e he
      simp at hne
    dsimp only
    split
    · rename_i ho
      exact ⟨fun _ => .inr ho, fun _ => Option.some_ne_none _⟩
    · rename_i ho
      exact ⟨fun h => absurd rfl h, fun h => absurd (h.resolve_left hnot) ho⟩

theorem prefix_answers_turn (s : Service τ) (t : Turn) : s.answers <+: (s.turn t).answers := by
  cases t with
  | order c => exact (s.order_eq c).2.1 ▸ List.prefix_refl _
  | receive m => exact (s.receive_eq m).2.1 ▸ List.prefix_refl _
  | close => exact List.prefix_refl _
  | poll host now rung =>
    cases hp : s.poll now rung with
    | none => exact (turn_poll_of_eq_none hp).symm ▸ List.prefix_refl _
    | some s' =>
      rw [turn_poll_of_eq_some hp]
      obtain ⟨given, ha, -⟩ := (touches_of_poll hp).answers
      exact ⟨given, ha.symm⟩

omit [Carrier τ] in
/-- A call to a service that has ended is settled. -/
theorem settled_of_not_running (h : ¬ s.Running) (call : CallId) : s.callEnd? call ≠ none :=
  callEnd?_ne_none_iff.2 (.inr (by unfold Running at h; rwa [Bool.not_eq_false] at h))

/-- A call that is settled stays settled. -/
theorem settled_turns {call : CallId} (h : s.callEnd? call ≠ none) (l : List Turn) :
    (s.turns l).callEnd? call ≠ none := by
  refine turns_induction (P := fun s => s.callEnd? call ≠ none) (fun s t h => ?_) h l
  refine callEnd?_ne_none_iff.2 ((callEnd?_ne_none_iff.1 h).imp (fun hm => ?_) fun ho => ?_)
  · exact ((prefix_answers_turn s t).map Prod.fst).subset hm
  · unfold isOver at ho ⊢
    rwa [(turn_of_over ho t).1]

/-- Whoever stands at the head of the line when it moves up is answered. -/
theorem answered_of_up (h : s.Bears x) (hp : s.poll now rung = some s')
    {back : List (Option CallId × Option Instant)}
    (hl : s.line = (some x.call, some x.deadline) :: back) (hs : s'.activity = .serving) :
    x.call ∈ s'.answers.map Prod.fst := by
  obtain ⟨s'', hp', hh⟩ := handled_of_poll h (works?_of_line hp hl)
  obtain rfl := Option.some.inj (hp.symm.trans hp')
  have hactivity := hs.symm.trans hh.activity
  rw [hh.answers, List.map_append]
  refine List.mem_append_right _ ?_
  unfold Station.answer?
  cases hhandle : s.station.handle x now with
  | delayed | faulty =>
    rw [hhandle] at hactivity
    cases hactivity
  | skipped | limited | refused | sent => exact List.mem_singleton_self _

omit [Carrier τ] in
/-- The deadline of a wait is that of the head of the line. -/
theorem head_le_of_line {hold : Hold} {call : Option CallId} {deadline : Instant}
    {front back : List (Option CallId × Option Instant)} (ha : s.activity = .holding hold)
    (hl : s.line = front ++ (call, some deadline) :: back) (hd : deadline ≤ limit)
    (hfront : ∀ deadline ∈ front.filterMap Prod.snd, deadline ≤ limit) :
    hold.deadline ≤ limit := by
  have hline := (line_of_holding ha).symm.trans hl
  cases front with
  | nil =>
    have hdeadline := congrArg Prod.snd (List.cons.inj hline).1
    exact Option.some.inj hdeadline ▸ hd
  | cons e front =>
    obtain ⟨rfl, -⟩ := List.cons.inj hline
    exact hfront hold.deadline List.mem_cons_self

/-- With a poll the call is settled, or it does not move back; past the limit it moves up. -/
theorem Within.poll (h : s.Within x limit n) (hx : x.deadline ≤ limit)
    (hp : s.poll now rung = some s') : s'.callEnd? x.call ≠ none ∨
      ∃ m ≤ n, s'.Within x limit m ∧ (limit ≤ now → m < n) := by
  obtain ⟨front, back, hl, hn, hfront⟩ := h.place
  have hbears := h.bears.poll hp
  cases moves_of_poll hp with
  | ends ho => exact .inl (callEnd?_ne_none_iff.2 (.inr ho))
  | up hs hl' =>
    cases front with
    | nil => exact .inl (callEnd?_ne_none_iff.2 (.inl (answered_of_up h.bears hp hl hs)))
    | cons e front =>
      rw [hl] at hl'
      refine .inr ⟨n - 1, Nat.sub_le n 1, ⟨running_of_serving hs, hbears,
        (moves_of_poll hp).patient, front, back, hl', ?_, fun deadline hd => ?_⟩, fun _ => ?_⟩
      · exact Nat.lt_sub_of_add_lt hn
      · refine hfront deadline ?_
        rw [List.filterMap_cons]
        split
        · exact hd
        · exact List.mem_cons_of_mem _ hd
      · omega
  | stays hold hs hlt hle hl' =>
    have hrunning : s'.Running := by
      unfold Running isOver
      rw [hs]
    refine .inr ⟨n, Nat.le_refl n, ⟨hrunning, hbears, (moves_of_poll hp).patient, front, back,
      hl'.trans hl, hn, hfront⟩, fun hpast => ?_⟩
    have hhead := head_le_of_line hs (hl'.trans hl) hx hfront
    exact absurd (Nat.lt_of_lt_of_le hlt (Nat.le_trans hle hhead)) (Nat.not_lt.2 hpast)

omit [Carrier τ] in
/-- Whatever comes in stands behind the piece. -/
theorem Within.of_line {back : List (Option CallId × Option Instant)} (h : s.Within x limit n)
    (ha : s'.activity = s.activity) (hb : s'.Bears x) (hl : s'.line = s.line ++ back) :
    s'.Within x limit n := by
  obtain ⟨front, rest, hline, hn, hfront⟩ := h.place
  refine ⟨?_, hb, patient_of_activity h.patient ha, front, rest ++ back, ?_, hn, hfront⟩
  · have hr := h.running
    unfold Running isOver at hr ⊢
    rwa [ha]
  · rw [hl, hline, List.append_assoc]
    rfl

omit [Carrier τ] in
theorem line_order (hr : s.Running) (c : Command) :
    (s.order c).line = s.line ++ [(c.call, c.order.deadline?)] := by
  have hrunning : s.isOver ≠ true := by
    rw [hr]
    exact Bool.false_ne_true
  unfold order
  rw [if_neg hrunning]
  unfold line
  rw [List.map_append, ← List.append_assoc]
  rfl

omit [Carrier τ] in
theorem line_receive (s : Service τ) (m : Message) : (s.receive m).line = s.line := by
  unfold receive
  split <;> rfl

theorem Within.turn (h : s.Within x limit n) (hx : x.deadline ≤ limit) {t : Turn}
    (ht : ∀ c, t = .order c → c.call = some x.call → c = x.command) :
    (s.turn t).callEnd? x.call ≠ none ∨
      ∃ m ≤ n, (s.turn t).Within x limit m ∧ (t.isPast limit = true → m < n) := by
  have hb := h.bears.turn ht
  cases t with
  | order c =>
    exact .inr ⟨n, Nat.le_refl n, h.of_line (s.order_eq c).1 hb (line_order h.running c), nofun⟩
  | receive m =>
    exact .inr ⟨n, Nat.le_refl n, h.of_line (s.receive_eq m).1 hb
      ((line_receive s m).trans (List.append_nil _).symm), nofun⟩
  | close =>
    exact .inr ⟨n, Nat.le_refl n, h.of_line rfl hb (List.append_nil _).symm, nofun⟩
  | poll host now rung =>
    have hpast : Turn.isPast limit (.poll host now rung) = true → limit ≤ now ∧ limit ≤ rung := by
      intro hp
      obtain ⟨hnow, hrung⟩ := Bool.and_eq_true _ _ ▸ hp
      exact ⟨of_decide_eq_true hnow, of_decide_eq_true hrung⟩
    cases hp : s.poll now rung with
    | some s' =>
      rw [turn_poll_of_eq_some hp]
      refine (h.poll hx hp).imp_right fun ⟨m, hm, hw, hlt⟩ => ⟨m, hm, hw, fun hpoll => ?_⟩
      exact hlt (hpast hpoll).1
    | none =>
      rw [turn_poll_of_eq_none hp]
      refine .inr ⟨n, Nat.le_refl n, h, fun hpoll => ?_⟩
      -- past the limit there is something to do, for every wait is over
      obtain ⟨front, back, hl, -, hfront⟩ := h.place
      have hready : ∀ hold, s.activity = .holding hold → hold.ready ≤ rung := by
        intro hold hh
        have hle := Nat.le_trans (h.patient hold hh) (head_le_of_line hh hl hx hfront)
        exact Nat.le_trans hle (hpast hpoll).2
      have hne : s.line ≠ [] := by
        rw [hl]
        exact List.append_ne_nil_of_right_ne_nil _ (List.cons_ne_nil _ _)
      obtain ⟨s', hp'⟩ := exists_poll_of_line h.running hne hready
      cases hp.symm.trans hp'

/-- Whoever comes stands at the end of the line. -/
theorem within_order (hr : s.Running) (hb : s.Bears x) (hp : s.Patient)
    (hd : ∀ deadline ∈ s.deadlines, deadline ≤ limit) :
    (s.turn (.order x.command)).Within x limit (s.line.length + 1) where
  running := by
    show (s.order x.command).isOver = false
    unfold Running isOver at hr
    unfold isOver
    rwa [(s.order_eq x.command).1]
  bears := hb.turn fun c hc _ => (Turn.order.inj hc).symm
  patient := patient_turn hp _
  place := ⟨s.line, [], line_order hr x.command, Nat.lt_succ_self _, s.filterMap_line ▸ hd⟩

/-- A call is settled after as many polls past the limit as stand in line up to it. -/
theorem settled_of_within {l : List Turn} (h : s.Within x limit n) (hx : x.deadline ≤ limit)
    (hm : ∀ c, .order c ∈ l → c.call = some x.call → c = x.command)
    (hl : n ≤ l.countP (Turn.isPast limit)) : (s.turns l).callEnd? x.call ≠ none := by
  induction l generalizing s n with
  | nil =>
    obtain ⟨front, back, -, hn, -⟩ := h.place
    exact absurd (Nat.lt_of_lt_of_le hn hl) (Nat.not_lt_zero _)
  | cons t rest ih =>
    rw [turns_cons]
    rcases h.turn hx (fun c hc => hm c (hc ▸ List.mem_cons_self)) with hs | ⟨m, hle, hw, hlt⟩
    · exact settled_turns hs rest
    · refine ih hw (fun c hc => hm c (List.mem_cons_of_mem t hc)) ?_
      rw [List.countP_cons] at hl
      split at hl
      · rename_i hpast
        exact Nat.le_of_lt_succ (Nat.lt_of_lt_of_le (hlt hpast) hl)
      · exact Nat.le_trans hle hl

end Within

end Service

end GroundControl
