import GroundControl.Proofs.Control.FanOut
import GroundControl.Simulation.Turn

/-!
# What happens to the services of the simulated world

A service of the simulated world takes turns like any other service: orders and messages come in,
and its task is polled.  Besides, what it has done is taken over after each of its turns in the
world, and frames are read at the other end of its link.  Nothing else happens to it.

* `polls_eq_turns`, `drain_eq_turns`: a service that does all there is to do is polled so often;
* `Deed`, what happens to a service of the world, and `Deed.turns`, the turns in it;
  `Service.deed`, what becomes of the service, and `Service.given`, the answers that are taken over;
* `Control.deeds` and `Control.given`, the same for a control centre;
* `World.Leads`, from one world to another by deeds; `World.Goes`, by deeds other than orders;
* `goes_turn`, `goes_settle`, `goes_jump`: whatever the tasks of the world do.
-/

namespace GroundControl

namespace Service

variable {τ : Type} [Carrier τ] {host : Host}

theorem turns_replicate_of_eq_none {s : Service τ} {now rung : Instant}
    (h : s.poll now rung = none) (n : Nat) :
    s.turns (.replicate n (.poll host now rung)) = s := by
  induction n with
  | zero => rfl
  | succ n ih => rw [List.replicate_succ, turns_cons, turn_poll_of_eq_none h, ih]

/-- To do the next `n` things there are to do is to be polled `n` times. -/
theorem polls_eq_turns (now rung : Instant) (n : Nat) (s : Service τ) :
    polls now rung n s = s.turns (.replicate n (.poll host now rung)) := by
  induction n generalizing s with
  | zero => rfl
  | succ n ih =>
    rw [polls, List.replicate_succ, turns_cons]
    cases h : s.poll now rung with
    | none => rw [turn_poll_of_eq_none h, turns_replicate_of_eq_none h]
    | some s' => rw [turn_poll_of_eq_some h, ← ih]

theorem drain_eq_turns (s : Service τ) (now rung : Instant) :
    s.drain now rung = s.turns (.replicate (s.potential rung) (.poll host now rung)) :=
  polls_eq_turns now rung _ s

end Service

/-! ### Deeds -/

/-- What can happen to a service of the simulated world. -/
inductive Deed
  /-- an order comes in -/
  | order (c : Command)
  /-- a message comes in -/
  | receive (m : Message)
  /-- the task is polled `n` times, and what the service has done is taken over -/
  | work (n : Nat) (now rung : Instant)
  /-- up to `n` frames are read at the other end of the link -/
  | read (n : Nat)
  /-- the other end of the link is given up -/
  | close

/-- The turns of the service in a deed. -/
def Deed.turns : Deed → List Turn
  | .order c => [.order c]
  | .receive m => [.receive m]
  | .work n now rung => .replicate n (.poll .plain now rung)
  | .read _ | .close => []

/-- The order that comes in, if one does. -/
def Deed.command? : Deed → Option Command
  | .order c => some c
  | _ => none

/-- The orders that come in, each with the number of the service. -/
def commandsOf (l : List (Nat × Deed)) : List (Nat × Command) :=
  l.filterMap fun e => e.2.command?.map (e.1, ·)

@[simp] theorem commandsOf_append (l m : List (Nat × Deed)) :
    commandsOf (l ++ m) = commandsOf l ++ commandsOf m :=
  List.filterMap_append

namespace Service

/-- A service of which others know what it has done. -/
def heard {τ : Type} (s : Service τ) : Service τ :=
  { s with station := s.station.takeLog.2, answers := [] }

/-- A service with another link. -/
def moor (s : Service Pipe) (carrier : Pipe) : Service Pipe :=
  { s with station := { s.station with carrier } }

/-- What becomes of a service in a deed. -/
def deed (s : Service Pipe) : Deed → Service Pipe
  | .order c => s.order c
  | .receive m => s.receive m
  | .work n now rung => (s.turns (Deed.work n now rung).turns).heard
  | .read n => s.moor (s.station.carrier.read n).2
  | .close => s.moor s.station.carrier.close

/-- The answers that are taken over in a deed. -/
def given (s : Service Pipe) : Deed → List (CallId × Answer)
  | .work n now rung => (s.turns (Deed.work n now rung).turns).answers
  | _ => []

/-- No answer is left. -/
theorem answers_deed {s : Service Pipe} (h : s.answers = []) (d : Deed) :
    (s.deed d).answers = [] := by
  cases d with
  | order c => exact (s.order_eq c).2.1.trans h
  | receive m => exact (s.receive_eq m).2.1.trans h
  | work n now rung => rfl
  | read | close => exact h

end Service

namespace Control

/-- A control centre after what has happened to its services. -/
def deeds (c : Control Pipe) (l : List (Nat × Deed)) : Control Pipe :=
  l.foldl (fun c e => c.modifyService e.1 (·.deed e.2)) c

/-- The answers that are taken over meanwhile, each with the number of the service. -/
def given (c : Control Pipe) : List (Nat × Deed) → List (Nat × CallId × Answer)
  | [] => []
  | (k, d) :: rest =>
      (((c.service? k).map (·.given d)).getD []).map (k, ·) ++
        (c.modifyService k (·.deed d)).given rest

variable (c : Control Pipe)

theorem deeds_append (l m : List (Nat × Deed)) : c.deeds (l ++ m) = (c.deeds l).deeds m :=
  List.foldl_append

theorem given_append (l m : List (Nat × Deed)) :
    c.given (l ++ m) = c.given l ++ (c.deeds l).given m := by
  induction l generalizing c with
  | nil => rfl
  | cons e rest ih =>
    show _ ++ (c.modifyService e.1 (·.deed e.2)).given (rest ++ m) = _
    rw [ih, ← List.append_assoc]
    rfl

theorem modifyService_congr {τ : Type} {c : Control τ} {k : Nat} {s : Service τ}
    (h : c.service? k = some s) {f g : Service τ → Service τ} (he : f s = g s) :
    c.modifyService k f = c.modifyService k g := by
  have hservices : c.services.modify k f = c.services.modify k g := by
    refine List.ext_getElem? fun j => ?_
    rw [List.getElem?_modify, List.getElem?_modify]
    by_cases hj : k = j
    · subst hj
      rw [show c.services[k]? = some s from h]
      show some (if k = k then f s else s) = some (if k = k then g s else s)
      rw [he]
    · congr 1
      funext service
      rw [if_neg hj, if_neg hj]
  unfold modifyService
  rw [hservices]

end Control

/-! ### From one world to another -/

namespace World

/-- Deeds lead from one world to another: the services go their ways, and their answers are there
for whoever has called. -/
structure Leads (w : World) (l : List (Nat × Deed)) (w' : World) : Prop where
  control : w'.control = w.control.deeds l
  answers : w'.answers = w.answers ++ (w.control.given l).map Prod.snd
  calls : w'.calls = w.calls

/-- Deeds lead from one world to another, and no order comes in meanwhile. -/
def Goes (w w' : World) : Prop := ∃ l, w.Leads l w' ∧ commandsOf l = []

/-- Nothing happens to the services. -/
structure Rests (w w' : World) : Prop where
  control : w'.control = w.control
  answers : w'.answers = w.answers
  calls : w'.calls = w.calls

variable {w w' w'' : World} {k : Nat}

theorem Leads.trans {l m : List (Nat × Deed)} (h : w.Leads l w') (h' : w'.Leads m w'') :
    w.Leads (l ++ m) w'' where
  control := by rw [h'.control, h.control, Control.deeds_append]
  answers := by
    rw [h'.answers, h.answers, h.control, Control.given_append, List.map_append,
      List.append_assoc]
  calls := h'.calls.trans h.calls

theorem Rests.leads (h : w.Rests w') : w.Leads [] w' :=
  ⟨h.control, h.answers.trans (List.append_nil _).symm, h.calls⟩

/-- One deed. -/
theorem leads_deed {s : Service Pipe} {d : Deed} (hs : w.service? k = some s)
    (hcontrol : w'.control = w.control.modifyService k (·.deed d))
    (hanswers : w'.answers = w.answers ++ s.given d) (hcalls : w'.calls = w.calls) :
    w.Leads [(k, d)] w' := by
  refine ⟨hcontrol, ?_, hcalls⟩
  have hs : w.control.service? k = some s := hs
  rw [hanswers, Control.given, Control.given, hs, List.append_nil, List.map_map]
  exact congrArg _ (List.map_id _).symm

theorem Leads.goes {l : List (Nat × Deed)} (h : w.Leads l w') (hl : commandsOf l = []) :
    w.Goes w' :=
  ⟨l, h, hl⟩

theorem Rests.goes (h : w.Rests w') : w.Goes w' := h.leads.goes rfl

theorem Goes.trans (h : w.Goes w') (h' : w'.Goes w'') : w.Goes w'' := by
  obtain ⟨l, hl, hc⟩ := h
  obtain ⟨m, hm, hc'⟩ := h'
  exact ⟨l ++ m, hl.trans hm, by rw [commandsOf_append, hc, hc', List.append_nil]⟩

theorem Rests.refl (w : World) : w.Rests w := ⟨rfl, rfl, rfl⟩

theorem Goes.refl (w : World) : w.Goes w := (Rests.refl w).goes

theorem Rests.trans (h : w.Rests w') (h' : w'.Rests w'') : w.Rests w'' :=
  ⟨h'.control.trans h.control, h'.answers.trans h.answers, h'.calls.trans h.calls⟩

theorem rests_foldl {α : Type} {f : World → α → World}
    (hf : ∀ (w : World) a, w.Rests (f w a)) (l : List α) (w : World) : w.Rests (l.foldl f w) := by
  induction l generalizing w with
  | nil => exact .refl w
  | cons a rest ih => exact (hf w a).trans (ih (f w a))

/-! ### Turns and alarms -/

theorem rests_wake (w : World) (t : Task) : w.Rests (w.wake t) := by
  unfold wake
  split <;> exact ⟨rfl, rfl, rfl⟩

theorem rests_setAlarm (w : World) (t : Task) (due : Instant) : w.Rests (w.setAlarm t due) := by
  unfold setAlarm
  dsimp only
  split <;> exact ⟨rfl, rfl, rfl⟩

theorem rests_block (w : World) (k : Nat) (t : Task) : w.Rests (w.block k t) := by
  unfold block
  split <;> exact ⟨rfl, rfl, rfl⟩

theorem rests_unblock (w : World) (k n : Nat) : w.Rests (w.unblock k n) := by
  unfold unblock
  dsimp only
  generalize (w.blocked.filter (·.1 = k)).take n = lucky
  have hblocked : w.Rests { w with blocked := lucky.foldl (fun l e => l.erase e) w.blocked } :=
    ⟨rfl, rfl, rfl⟩
  exact hblocked.trans (rests_foldl (fun w e => rests_wake w e.2) lucky _)

/-! ### The turns of the tasks -/

/-- A message that is offered comes in or does not. -/
theorem goes_offer (w : World) (k : Nat) (m : Message) : w.Goes (w.offer k m).2 := by
  unfold offer
  cases hs : w.service? k with
  | none => exact .refl w
  | some s =>
    dsimp only
    split
    · exact .refl w
    · split
      · exact .refl w
      · have hreceive : w.Leads [(k, .receive m)] (w.modifyService k (·.receive m)) :=
          leads_deed hs rfl (List.append_nil _).symm rfl
        exact (hreceive.goes rfl).trans (rests_wake _ _).goes

/-- All frames of a service are read at the other end of its link. -/
theorem goes_readAll {s : Service Pipe} (hs : w.service? k = some s)
    (hcontrol : w'.control = w.control.modifyService k (·.moor s.station.carrier.readAll.2))
    (hanswers : w'.answers = w.answers) (hcalls : w'.calls = w.calls) : w.Goes w' := by
  refine Leads.goes (l := [(k, .read s.station.carrier.frames.length)]) ?_ rfl
  refine leads_deed hs ?_ (hanswers.trans (List.append_nil _).symm) hcalls
  refine hcontrol.trans (Control.modifyService_congr hs ?_)
  show _ = s.moor (s.station.carrier.read _).2
  unfold Pipe.read
  rw [List.drop_length]
  rfl

/-- Frames are read where somebody reads them at once. -/
theorem goes_takeFrames {s s' : Service Pipe} (hs : w.service? k = some s')
    (hc : s'.station.carrier = s.station.carrier) : w.Goes (w.takeFrames k s) := by
  unfold takeFrames
  split
  · split
    · exact (rests_wake _ _).goes
    · exact .refl w
  · rw [← hc]
    exact goes_readAll hs rfl rfl rfl
  · exact .refl w

/-- A service takes its turn in the world. -/
theorem goes_hearService {s : Service Pipe} {now rung : Instant} {n : Nat}
    (hs : w.service? k = some s) :
    w.Goes (w.hearService k (s.turns (Deed.work n now rung).turns)) := by
  unfold hearService
  generalize he : s.turns (Deed.work n now rung).turns = s'
  dsimp only
  have hwork : w.Leads [(k, .work n now rung)]
      ({ w with answers := w.answers ++ s'.answers }.modifyService k fun _ => s'.heard) := by
    subst he
    exact leads_deed hs (Control.modifyService_congr hs rfl) rfl rfl
  generalize hu : { w with answers := w.answers ++ s'.answers }.modifyService k (fun _ => s'.heard)
    = u at hwork
  have hk : u.service? k = some s'.heard := by
    subst hu
    refine (Control.service?_modifyService w.control k k fun _ => s'.heard).trans ?_
    rw [show w.control.service? k = some s from hs]
    exact congrArg some (if_pos rfl)
  have hlog : u.Rests (u.takeLog k s'.station.takeLog.1) := ⟨rfl, rfl, rfl⟩
  have hframes : (u.takeLog k s'.station.takeLog.1).Goes
      ((u.takeLog k s'.station.takeLog.1).takeFrames k s') := goes_takeFrames hk rfl
  have halarms := rests_foldl (fun w due => rests_setAlarm w (.service k) due) s'.alarms
  subst hu
  exact (((hwork.goes rfl).trans hlog.goes).trans hframes).trans
    ((rests_unblock _ k _).trans (halarms _)).goes

/-- In its turn in the world, the task of a service is polled as often as there can be something to
do. -/
theorem serviceTurn_eq {s : Service Pipe} (hs : w.service? k = some s) (ho : s.isOver = false) :
    w.serviceTurn k = w.hearService k (s.turns
      (.replicate (s.potential w.rung.lastAlarm) (.poll .plain w.now w.rung.lastAlarm))) := by
  unfold serviceTurn
  rw [hs]
  dsimp only
  rw [if_neg (Bool.not_eq_true _ ▸ ho), Service.drain_eq_turns]
  rfl

theorem goes_serviceTurn (w : World) (k : Nat) : w.Goes (w.serviceTurn k) := by
  cases hs : w.service? k with
  | none =>
    unfold serviceTurn
    rw [hs]
    exact .refl w
  | some s =>
    cases ho : s.isOver with
    | true =>
      have hrests : w.serviceTurn k = w := by
        unfold serviceTurn
        rw [hs]
        exact if_pos ho
      rw [hrests]
      exact .refl w
    | false =>
      rw [serviceTurn_eq hs ho]
      exact goes_hearService hs

theorem goes_courierTurn (w : World) (c : Nat) : w.Goes (w.courierTurn c) := by
  unfold courierTurn
  split
  · exact .refl w
  · rename_i courier hc
    split
    · exact .refl w
    · split
      · have hoffer := goes_offer w courier.service courier.message
        split
        · rename_i h
          rw [h] at hoffer
          exact hoffer.trans (rests_block _ _ _).goes
        · rename_i h
          rw [h] at hoffer
          exact hoffer.trans (Rests.goes ⟨rfl, rfl, rfl⟩)
      · exact (rests_setAlarm _ _ _).goes

theorem rests_dispatch (due : Instant) (k : Nat) (w : World) (m : Message) :
    w.Rests (dispatch due k w m) := by
  let courier : Courier := { service := k, message := m, due, isDone := false }
  have hcourier : w.Rests { w with couriers := w.couriers ++ [courier] } := ⟨rfl, rfl, rfl⟩
  exact hcourier.trans (rests_wake _ _)

theorem exists_of_pipe? {pipe : Pipe} (h : w.pipe? k = some pipe) :
    ∃ s, w.service? k = some s ∧ s.station.carrier = pipe :=
  Option.map_eq_some_iff.1 h

theorem goes_lower (w : World) (l k : Nat) (t : Transceiver) : w.Goes (w.lower l k t) := by
  unfold lower
  have hset : w.Rests (w.setTransceiver l k t.shutDown) := ⟨rfl, rfl, rfl⟩
  refine hset.goes.trans ?_
  generalize w.setTransceiver l k t.shutDown = u
  dsimp only
  cases hp : u.pipe? k with
  | none => exact .refl u
  | some pipe =>
    obtain ⟨s, hs, rfl⟩ := exists_of_pipe? hp
    refine Leads.goes (l := [(k, .close)]) ?_ rfl
    exact leads_deed hs (Control.modifyService_congr hs rfl) (List.append_nil _).symm rfl

/-- Whatever a transceiver does next. -/
theorem goes_transceiverStep (w : World) (l k : Nat) (t : Transceiver) :
    w.Goes (w.transceiverStep l k t).2 := by
  unfold transceiverStep
  split
  · exact goes_lower w l k t
  · split
    · rename_i m rest _
      have hoffer := goes_offer w k m
      split
      · rename_i h
        rw [h] at hoffer
        exact hoffer.trans (Rests.goes ⟨rfl, rfl, rfl⟩)
      · rename_i h
        rw [h] at hoffer
        exact hoffer.trans (rests_block _ _ _).goes
      · rename_i h
        rw [h] at hoffer
        exact hoffer.trans (goes_lower _ l k t)
    · split
      · exact .refl w
      · rename_i pipe hp
        obtain ⟨s, hs, rfl⟩ := exists_of_pipe? hp
        split
        · have hread : w.Goes (w.setPipe k s.station.carrier.readAll.2) :=
            goes_readAll hs rfl rfl rfl
          have hset : ∀ t', (w.setPipe k s.station.carrier.readAll.2).Rests
              ((w.setPipe k s.station.carrier.readAll.2).setTransceiver l k t') :=
            fun _ => ⟨rfl, rfl, rfl⟩
          exact hread.trans ((hset _).trans (rests_foldl (rests_dispatch _ k) _ _)).goes
        · split
          · exact goes_lower w l k t
          · split
            · split
              · exact goes_lower w l k t
              · exact Rests.goes ⟨rfl, rfl, rfl⟩
            · exact (rests_setAlarm _ _ _).goes

theorem goes_transceiverSteps (l n : Nat) (w : World) : w.Goes (transceiverSteps l n w) := by
  induction n generalizing w with
  | zero => exact .refl w
  | succ n ih =>
    rw [transceiverSteps]
    split
    · exact .refl w
    · rename_i k t _
      split
      · have hstep := goes_transceiverStep w l k t
        split
        · rename_i h
          rw [h] at hstep
          exact hstep.trans (ih _)
        · rename_i h
          rw [h] at hstep
          exact hstep
      · exact .refl w

/-- Whatever a task does in its turn. -/
theorem goes_turn (w : World) (t : Task) : w.Goes (w.turn t) := by
  cases t with
  | service k => exact goes_serviceTurn w k
  | transceiver l =>
    show w.Goes (w.transceiverTurn l)
    unfold transceiverTurn
    split
    · exact .refl w
    · exact goes_transceiverSteps l _ w
  | courier c => exact goes_courierTurn w c

theorem goes_turns (n : Nat) (w : World) : w.Goes (turns n w) := by
  induction n generalizing w with
  | zero => exact .refl w
  | succ n ih =>
    rw [turns]
    split
    · exact .refl w
    · rename_i t rest _
      have hready : w.Rests { w with ready := rest } := ⟨rfl, rfl, rfl⟩
      exact (hready.goes.trans (goes_turn _ t)).trans (ih _)

theorem goes_settle (w : World) : w.Goes w.settle := goes_turns _ w

/-! ### The clock -/

theorem rests_ring (w : World) (t : Instant) : w.Rests (w.ring t) := by
  unfold ring
  generalize w.alarms.partition (fun e => e.1 ≤ t) = parts
  have hnow : w.Rests { w with now := t, rung := t, alarms := parts.2 } := ⟨rfl, rfl, rfl⟩
  exact hnow.trans (rests_foldl (fun w (e : Instant × Task) => rests_wake w e.2) _ _)

theorem goes_jump (w : World) (by_ : Span) : w.Goes (w.jump by_) := by
  have hnow : w.Rests { w with now := w.now + by_ } := ⟨rfl, rfl, rfl⟩
  exact (hnow.goes.trans (goes_settle _)).trans (rests_ring _ _).goes

end World

end GroundControl
