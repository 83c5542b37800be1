import Mathlib.Data.List.Perm.Subperm
import GroundControl.Proofs.Simulation.Deeds
import GroundControl.Simulation.Console

/-!
# Callers in the simulated world

While a caller gives orders and waits for answers, nothing comes in at a service but messages and
the caller's own orders, each of them once at most.

* `Caller.runs`, how a caller ends and the world it leaves behind, with
  `runs_bind_of_ok` and `runs_bind_of_error`;
* `goes_waitUntil`: a caller who waits gives no orders;
* `Caller.Posts`, which of its orders a caller has given; `posts_postAll`;
* `Looked`, an answer as the caller has found it; `leads_callAll`, orders to several services and
  their answers;
* `leads_fanOut`: a fan-out of the correction stream gives the orders that the control centre has
  made for it, and names the networks whose answers say that they have got the piece.
-/

namespace GroundControl

theorem World.goes_goOn (done : World → Bool) (limit : Option Instant) (n : Nat) (w : World) :
    w.Goes (w.goOn done limit n).2 := by
  induction n generalizing w with
  | zero => exact goes_settle w
  | succ n ih =>
    unfold goOn
    refine (goes_settle w).trans ?_
    generalize w.settle = u
    dsimp only
    split
    · exact .refl u
    · split
      · split
        · exact (rests_ring u _).goes.trans (ih _)
        · exact (rests_ring u _).goes
      · exact (rests_ring u _).goes.trans (ih _)
      · exact (rests_ring u _).goes
      · exact .refl u

namespace Caller

variable {α β : Type}

/-! ### How a caller ends -/

/-- How a caller ends, and the world it leaves behind. -/
def runs (p : Caller α) (w : World) : Except Stop α × World := Id.run (p.run.run w)

theorem runs_pure (a : α) (w : World) : (pure a : Caller α).runs w = (.ok a, w) := rfl

theorem runs_get (w : World) : (get : Caller World).runs w = (.ok w, w) := rfl

theorem runs_modify (f : World → World) (w : World) :
    (modify f : Caller Unit).runs w = (.ok (), f w) := rfl

theorem runs_bind_of_ok {p : Caller α} {f : α → Caller β} {w u : World} {a : α}
    (h : p.runs w = (.ok a, u)) : (p >>= f).runs w = (f a).runs u := by
  show Id.run (ExceptT.bindCont f (p.runs w).1 (p.runs w).2) = _
  rw [h]
  rfl

theorem runs_bind_of_error {p : Caller α} {f : α → Caller β} {w u : World} {e : Stop}
    (h : p.runs w = (.error e, u)) : (p >>= f).runs w = (.error e, u) := by
  show Id.run (ExceptT.bindCont f (p.runs w).1 (p.runs w).2) = _
  rw [h]
  rfl

/-! ### Waiting -/

theorem goes_waitUntil (done : World → Bool) (w : World) :
    w.Goes ((waitUntil done).runs w).2 := by
  unfold waitUntil
  rw [runs_bind_of_ok (runs_get w)]
  split
  · exact .refl w
  · cases w.leaving with
    | none => exact w.goes_goOn done none _
    | some t =>
      dsimp only
      split
      · exact .refl w
      · have hgo := w.goes_goOn done (some t) (w.ringsUntil t)
        generalize w.goOn done (some t) (w.ringsUntil t) = reached at hgo
        obtain ⟨_ | _, u⟩ := reached <;> exact hgo

/-! ### Orders -/

/-- The orders that are left when a caller has ended; one who stops early gives no more. -/
def ending (left : α → List (Nat × Command)) : Except Stop α → List (Nat × Command)
  | .ok a => left a
  | .error _ => []

/-- Of the orders it has, a caller gives none twice, and none of those that are left. -/
def Posts (p : Caller α) (orders : List (Nat × Command)) (left : α → List (Nat × Command)) :
    Prop :=
  ∀ w, ∃ l, w.Leads l (p.runs w).2 ∧
    (commandsOf l ++ ending left (p.runs w).1).Subperm orders

section Orders

variable {orders orders' : List (Nat × Command)} {left left' : α → List (Nat × Command)}

theorem Posts.mono {p : Caller α} (h : Posts p orders left) (ho : orders.Subperm orders')
    (hl : ∀ a, (left' a).Subperm (left a)) : Posts p orders' left' := by
  intro w
  obtain ⟨l, hleads, hs⟩ := h w
  refine ⟨l, hleads, .trans ?_ (hs.trans ho)⟩
  refine (List.subperm_append_left _).2 ?_
  cases (p.runs w).1 with
  | error e => exact List.nil_subperm
  | ok a => exact hl a

theorem posts_pure (a : α) (left : α → List (Nat × Command)) : Posts (pure a) (left a) left :=
  fun w => ⟨[], (World.Rests.refl w).leads, .refl _⟩

/-- A caller who gives no orders keeps all of them. -/
theorem posts_of_goes {p : Caller α} (h : ∀ w : World, w.Goes (p.runs w).2)
    (orders : List (Nat × Command)) : Posts p orders fun _ => orders := by
  intro w
  obtain ⟨l, hleads, hl⟩ := h w
  refine ⟨l, hleads, ?_⟩
  rw [hl]
  cases (p.runs w).1 with
  | error e => exact List.nil_subperm
  | ok a => exact .refl _

theorem posts_get (orders : List (Nat × Command)) :
    Posts (get : Caller World) orders fun _ => orders :=
  fun w => ⟨[], (World.Rests.refl w).leads, .refl _⟩

theorem Posts.bind {p : Caller α} {f : α → Caller β} {left' : β → List (Nat × Command)}
    (h : Posts p orders left) (hf : ∀ a, Posts (f a) (left a) left') :
    Posts (p >>= f) orders left' := by
  intro w
  obtain ⟨l, hleads, hs⟩ := h w
  cases hp : p.runs w with
  | mk r u =>
  rw [hp] at hleads hs
  cases r with
  | error e =>
    rw [runs_bind_of_error hp]
    exact ⟨l, hleads, hs⟩
  | ok a =>
    rw [runs_bind_of_ok hp]
    obtain ⟨m, hleads', hs'⟩ := hf a u
    refine ⟨l ++ m, hleads.trans hleads', ?_⟩
    rw [commandsOf_append, List.append_assoc]
    exact ((List.subperm_append_left _).2 hs').trans hs

/-- An order that can be queued comes in, unless the service has ended. -/
theorem posts_enqueue (k : Nat) (c : Command) (orders : List (Nat × Command)) :
    Posts (enqueue k c) ((k, c) :: orders) fun _ => orders := by
  intro w
  show ∃ l, w.Leads l (if w.isOver k then w else (w.modifyService k (·.order c)).wake (.service k))
    ∧ (commandsOf l ++ orders).Subperm ((k, c) :: orders)
  split
  · exact ⟨[], (World.Rests.refl w).leads, (List.sublist_cons_self _ _).subperm⟩
  · rename_i hover
    cases hs : w.service? k with
    | none => exact absurd (show (w.service? k).all (·.isOver) = true by rw [hs]; rfl) hover
    | some s =>
      have horder : w.Leads [(k, .order c)] (w.modifyService k (·.order c)) :=
        World.leads_deed hs rfl (List.append_nil _).symm rfl
      refine ⟨[(k, .order c)] ++ [], horder.trans (World.rests_wake _ _).leads, .refl _⟩

/-- Of several orders those are given that can be queued, and the others are left. -/
theorem posts_filterM {f : Nat × Command → Caller Bool}
    (hf : ∀ e orders, Posts (f e) (e :: orders) fun kept => if kept then e :: orders else orders)
    (l : List (Nat × Command)) : Posts (l.filterM f) l id := by
  have haux : ∀ acc, Posts (l.filterAuxM f acc) (l ++ acc) id := by
    induction l with
    | nil => exact fun acc => posts_pure acc id
    | cons e rest ih =>
      refine fun acc => (hf e (rest ++ acc)).bind fun kept => ?_
      cases kept with
      | false => exact ih acc
      | true => exact (ih (e :: acc)).mono List.perm_middle.subperm fun _ => .refl _
  have hall := (haux []).bind fun acc =>
    (posts_pure acc.reverse id).mono (List.reverse_perm acc).subperm fun _ => .refl _
  rw [List.append_nil] at hall
  exact hall

/-- Nobody gives an order twice. -/
theorem posts_postAll (n : Nat) (orders : List (Nat × Command)) :
    Posts (postAll n orders) orders fun _ => [] := by
  induction n generalizing orders with
  | zero => exact (posts_pure () fun _ => orders).mono (.refl _) fun _ => List.nil_subperm
  | succ n ih =>
    unfold postAll
    split
    · exact (posts_pure () fun _ => orders).mono (.refl _) fun _ => List.nil_subperm
    · refine (posts_of_goes (goes_waitUntil _) orders).bind fun _ => ?_
      refine (posts_filterM (fun e orders => ?_) orders).bind ih
      refine (posts_get (e :: orders)).bind fun w => ?_
      split
      · exact (posts_enqueue e.1 e.2 orders).bind fun _ => posts_pure false _
      · exact posts_pure true _

end Orders

/-! ### Answers -/

/-- What a caller has found at a time when `before` had happened since `w`: the answer to an
errand, if it was there. -/
structure Looked (w : World) (l : List (Nat × Deed)) (e : Errand)
    (found : NetworkId × Option Answer) : Prop where
  network : found.1 = e.network
  answer : ∃ before u, before <+: l ∧ w.Leads before u ∧ found.2 = u.answers.lookup e.call

theorem Looked.mono {w u : World} {l m : List (Nat × Deed)} {e : Errand}
    {found : NetworkId × Option Answer} (hl : w.Leads l u) (h : Looked u m e found) :
    Looked w (l ++ m) e found := by
  obtain ⟨before, v, ⟨after, rfl⟩, hv, ha⟩ := h.answer
  exact ⟨h.network, l ++ before, v, ⟨after, List.append_assoc ..⟩, hl.trans hv, ha⟩

/-- The answers to errands, one after the other. -/
def answers (list : List Errand) : Caller (List (NetworkId × Option Answer)) :=
  list.mapM fun e => do return (e.network, ← answer e.service e.call)

/-- A caller who waits for the answer to an errand. -/
theorem goes_answer (e : Errand) (w : World) :
    w.Goes ((answer e.service e.call).runs w).2 ∧
      ∀ a, ((answer e.service e.call).runs w).1 = .ok a →
        a = ((answer e.service e.call).runs w).2.answers.lookup e.call := by
  have hwait := goes_waitUntil (settlesCall e.service e.call) w
  unfold answer
  cases hp : (waitUntil (settlesCall e.service e.call)).runs w with
  | mk r u =>
  rw [hp] at hwait
  cases r with
  | error s =>
    rw [runs_bind_of_error hp]
    exact ⟨hwait, nofun⟩
  | ok a =>
    rw [runs_bind_of_ok hp, runs_bind_of_ok (runs_get u), runs_pure]
    exact ⟨hwait, fun a ha => (Except.ok.inj ha).symm⟩

theorem answers_cons (e : Errand) (rest : List Errand) :
    answers (e :: rest) = (do
      let a ← answer e.service e.call
      let found ← answers rest
      return (e.network, a) :: found) := by
  unfold answers
  rw [List.mapM_cons, bind_assoc]
  simp only [pure_bind]

/-- The answers a caller finds are those that are there at the time. -/
theorem leads_answers (list : List Errand) (w : World) :
    ∃ l, w.Leads l ((answers list).runs w).2 ∧ commandsOf l = [] ∧
      ∀ found, ((answers list).runs w).1 = .ok found → List.Forall₂ (Looked w l) list found := by
  induction list generalizing w with
  | nil => exact ⟨[], (World.Rests.refl w).leads, rfl, fun found h => Except.ok.inj h ▸ .nil⟩
  | cons e rest ih =>
    rw [answers_cons]
    obtain ⟨⟨l, hl, hc⟩, ha⟩ := goes_answer e w
    cases hp : (answer e.service e.call).runs w with
    | mk r u =>
    rw [hp] at hl ha
    cases r with
    | error s =>
      rw [runs_bind_of_error hp]
      exact ⟨l, hl, hc, nofun⟩
    | ok a =>
      rw [runs_bind_of_ok hp]
      obtain ⟨m, hm, hc', hfound⟩ := ih u
      have hlm : commandsOf (l ++ m) = [] := by rw [commandsOf_append, hc, hc', List.append_nil]
      cases hq : (answers rest).runs u with
      | mk r v =>
      rw [hq] at hm hfound
      cases r with
      | error s =>
        rw [runs_bind_of_error hq]
        exact ⟨l ++ m, hl.trans hm, hlm, nofun⟩
      | ok found =>
        rw [runs_bind_of_ok hq, runs_pure]
        refine ⟨l ++ m, hl.trans hm, hlm, ?_⟩
        rintro _ ⟨⟩
        have hfirst : Looked w (l ++ m) e (e.network, a) :=
          ⟨rfl, l, u, List.prefix_append l m, hl, ha a rfl⟩
        exact .cons hfirst ((hfound found rfl).imp fun _ _ h => h.mono hl)

/-- Orders to services, and their answers.  The calls that wait for them are numbered from the
number of calls made so far. -/
theorem leads_callAll (orders : List (NetworkId × Nat × Order)) (w : World) :
    let list := errands w.calls orders
    let w₀ := { w with calls := w.calls + orders.length }
    ∃ l, w₀.Leads l ((callAll orders).runs w).2 ∧
      (commandsOf l).Subperm (list.map fun e => (e.service, e.command)) ∧
        ∀ found, ((callAll orders).runs w).1 = .ok found →
          List.Forall₂ (Looked w₀ l) list found := by
  intro list w₀
  have hruns : (callAll orders).runs w =
      (do postAll list.length (list.map fun e => (e.service, e.command))
          answers list : Caller _).runs w₀ := rfl
  rw [hruns]
  obtain ⟨l, hl, hs⟩ := posts_postAll list.length (list.map fun e => (e.service, e.command)) w₀
  cases hp : (postAll list.length (list.map fun e => (e.service, e.command))).runs w₀ with
  | mk r u =>
  rw [hp] at hl hs
  cases r with
  | error s =>
    rw [runs_bind_of_error hp]
    exact ⟨l, hl, by simpa [ending] using hs, nofun⟩
  | ok a =>
    rw [runs_bind_of_ok hp]
    obtain ⟨m, hm, hc, hfound⟩ := leads_answers list u
    refine ⟨l ++ m, hl.trans hm, ?_, fun found h => (hfound found h).imp fun _ _ h => h.mono hl⟩
    rw [commandsOf_append, hc]
    exact hs

/-! ### The correction stream -/

/-- A fan-out that meets a fault does nothing. -/
theorem runs_fanOut_of_error {bulletin : Bulletin} {skipIdle : Bool} {w : World} {fault : Fault}
    (h : w.control.corrections bulletin skipIdle w.now = .error fault) :
    (fanOut bulletin skipIdle).runs w = (.error (.fault fault), w) := by
  unfold fanOut
  rw [runs_bind_of_ok (runs_get w), h]
  rfl

/-- Any other fan-out gives the orders that the control centre has made, and names the networks
whose answers say that they have got the piece. -/
theorem leads_fanOut {bulletin : Bulletin} {skipIdle : Bool} {w : World}
    {orders : List (NetworkId × Nat × Order)}
    (h : w.control.corrections bulletin skipIdle w.now = .ok orders) :
    let list := errands w.calls orders
    let w₀ := { w with calls := w.calls + orders.length }
    ∃ l, w₀.Leads l ((fanOut bulletin skipIdle).runs w).2 ∧
      (commandsOf l).Subperm (list.map fun e => (e.service, e.command)) ∧
        ∀ networks, ((fanOut bulletin skipIdle).runs w).1 = .ok networks →
          ∃ found, networks = recipients found ∧ List.Forall₂ (Looked w₀ l) list found := by
  intro list w₀
  have hruns : (fanOut bulletin skipIdle).runs w =
      (do return recipients (← callAll orders) : Caller _).runs w := by
    unfold fanOut
    rw [runs_bind_of_ok (runs_get w), h]
  rw [hruns]
  obtain ⟨l, hl, hs, hfound⟩ := leads_callAll orders w
  cases hp : (callAll orders).runs w with
  | mk r u =>
  rw [hp] at hl hfound
  cases r with
  | error s =>
    rw [runs_bind_of_error hp]
    exact ⟨l, hl, hs, nofun⟩
  | ok found =>
    rw [runs_bind_of_ok hp]
    refine ⟨l, hl, hs, ?_⟩
    rintro _ ⟨⟩
    exact ⟨found, rfl, hfound found rfl⟩

end Caller

end GroundControl
