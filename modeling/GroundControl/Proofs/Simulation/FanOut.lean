import GroundControl.Proofs.Simulation.Regular
import GroundControl.Proofs.Simulation.Tapes

/-!
# The correction stream in the simulated world

A fan-out in the simulated world gives its orders to the services while their tasks take turns,
messages come in and frames are read.  On tape this is a fan-out as it can happen to any control
centre, and its caller names the networks that had got the piece when their answers were looked for.

* `commandsOf_eq`, `private_of_subperm`: the orders that come in during deeds are those of their
  turns, and the calls of a fan-out are its own;
* `Regular.fansOut_onTape`, `Regular.lookup_answers`: what happens on tape, and what a caller finds;
* `fansOut_fanOut`, `regular_fanOut`.
-/

namespace GroundControl

/-! ### The calls of a fan-out -/

/-- The order that comes in, if one does. -/
def Turn.command? : Turn → Option Command
  | .order c => some c
  | _ => none

theorem commandsOf_eq (l : List (Nat × Deed)) :
    commandsOf l = (turnsIn l).filterMap fun e => e.2.command?.map (e.1, ·) := by
  induction l with
  | nil => rfl
  | cons e rest ih =>
    obtain ⟨k, d⟩ := e
    have hturns : d.turns.filterMap (fun t => t.command?.map (k, ·)) =
        (d.command?.map (k, ·)).toList := by
      cases d with
      | work n now rung => exact List.filterMap_replicate_of_none rfl
      | order | receive | read | close => rfl
    unfold turnsIn commandsOf at ih ⊢
    rw [List.flatMap_cons, List.filterMap_append, List.filterMap_map, ← ih]
    show _ = d.turns.filterMap (fun t => t.command?.map (k, ·)) ++ _
    rw [hturns, List.filterMap_cons]
    cases d.command? <;> rfl

theorem callsOf_turnsIn (l : List (Nat × Deed)) :
    callsOf ((turnsIn l).map Prod.snd) = (commandsOf l).filterMap (·.2.call) := by
  unfold callsOf
  rw [commandsOf_eq, List.filterMap_filterMap, List.filterMap_map]
  congr 1
  funext e
  obtain ⟨k, t⟩ := e
  cases t <;> rfl

/-- A fan-out whose orders come in once each at most, and whose calls are new. -/
theorem private_of_subperm {τ : Type} {c : Control τ} {list : List Errand} {l : List (Nat × Deed)}
    (hcalls : (list.map (·.call)).Nodup)
    (hnew : ∀ e ∈ list, ∀ k service, c.service? k = some service →
      e.call ∉ service.calls ∧ e.call ∉ service.answers.map Prod.fst)
    (hl : (commandsOf l).Subperm (list.map fun e => (e.service, e.command))) :
    Private c list (turnsIn l) where
  unheard := hnew
  own := by
    intro e he k command hm hcall
    have hcommand : (k, command) ∈ commandsOf l := by
      rw [commandsOf_eq]
      exact List.mem_filterMap.2 ⟨_, hm, rfl⟩
    obtain ⟨e', he', heq⟩ := List.mem_map.1 (hl.subset hcommand)
    cases heq
    obtain rfl := List.inj_on_of_nodup_map hcalls he' he (Option.some.inj hcall)
    exact ⟨rfl, rfl⟩
  once := by
    intro e he
    obtain ⟨posted, hperm, hsub⟩ := hl
    have hposted : (list.map fun e => (e.service, e.command)).filterMap (·.2.call) =
        list.map (·.call) := by
      rw [List.filterMap_map]
      exact congrFun List.filterMap_eq_map list
    rw [callsOf_turnsIn, ← (hperm.filterMap _).count_eq]
    refine Nat.le_trans ((hsub.filterMap _).count_le _) ?_
    rw [hposted]
    exact List.nodup_iff_count_le_one.1 hcalls e.call

theorem call_errands (first : CallId) (orders : List (NetworkId × Nat × Order)) :
    (errands first orders).map (·.call) = List.range' first orders.length := by
  refine List.ext_getElem (by simp [errands]) fun i _ _ => ?_
  simp [errands]

theorem call_of_mem_errands {first : CallId} {orders : List (NetworkId × Nat × Order)} {e : Errand}
    (h : e ∈ errands first orders) : first ≤ e.call ∧ e.call < first + orders.length := by
  have hm : e.call ∈ (errands first orders).map (·.call) := List.mem_map_of_mem h
  rw [call_errands] at hm
  exact List.mem_range'_1.1 hm

/-! ### The fan-out on tape -/

namespace World.Regular

variable {w : World} {bulletin : Bulletin} {skipIfIdle : Bool}
  {orders : List (NetworkId × Nat × Order)} {scripts : Nat → List (Except LinkError Unit)}
  {l before : List (Nat × Deed)} {e : Errand}

theorem exists_of_onTape {k : Nat} {service : Service Tape}
    (h : (w.control.onTape scripts).service? k = some service) :
    ∃ s ∈ w.control.services, s.onTape [] [] (scripts k) = service := by
  rw [Control.service?_onTape] at h
  obtain ⟨s, hs, he⟩ := Option.map_eq_some_iff.1 h
  exact ⟨s, List.mem_of_getElem? hs, he⟩

theorem staffed_onTape (hw : w.Regular) : (w.control.onTape scripts).Staffed := by
  intro network k hk
  obtain ⟨s, hs, hid, hsettings⟩ := hw.staffed network k hk
  refine ⟨s.onTape [] [] (scripts k), ?_, hid, hsettings⟩
  rw [Control.service?_onTape, hs]
  rfl

/-- The calls of a fan-out are its own, whatever else happens. -/
theorem private_onTape (hw : w.Regular) (scripts : Nat → List (Except LinkError Unit))
    (hl : (commandsOf l).Subperm ((errands w.calls orders).map fun e => (e.service, e.command))) :
    Private (w.control.onTape scripts) (errands w.calls orders) (turnsIn l) := by
  refine private_of_subperm (call_errands w.calls orders ▸ List.nodup_range' _) ?_ hl
  intro e he k service hservice
  obtain ⟨s, hs, rfl⟩ := exists_of_onTape hservice
  have htidy := hw.tidy s hs
  have hcall := Nat.not_lt.2 (call_of_mem_errands he).1
  refine ⟨fun hm => absurd (htidy.calls e.call hm) hcall, fun hm => ?_⟩
  have hanswers : (s.onTape [] [] (scripts k)).answers = [] := htidy.heard
  rw [hanswers] at hm
  cases hm

theorem fansOut_onTape (hw : w.Regular) (scripts : Nat → List (Except LinkError Unit))
    (ho : w.control.corrections bulletin skipIfIdle w.now = .ok orders)
    (hl : (commandsOf l).Subperm ((errands w.calls orders).map fun e => (e.service, e.command))) :
    FansOut (w.control.onTape scripts) bulletin skipIfIdle w.now (errands w.calls orders)
      (turnsIn l) := by
  refine fansOut_of_private hw.staffed_onTape (fun k service hservice => ?_) ho
    (hw.private_onTape scripts hl)
  obtain ⟨s, hs, rfl⟩ := exists_of_onTape hservice
  exact (hw.tidy s hs).patient

/-- The answer that a caller finds is the one that is there on tape. -/
theorem lookup_answers (hw : w.Regular) (hr : w.control.Retold scripts l) (hb : before <+: l)
    (hp : Private (w.control.onTape scripts) (errands w.calls orders) (turnsIn before))
    (he : e ∈ errands w.calls orders) :
    (w.answers ++ (w.control.given before).map Prod.snd).lookup e.call =
      ((w.control.onTape scripts).during (turnsIn before)).answerTo e := by
  have hfound := hr.lookup (fun s hs => (hw.tidy s hs).heard) hb
  have hold : w.answers.lookup e.call = none := by
    refine Service.lookup_eq_none_of_not_mem fun hm => ?_
    obtain ⟨x, hx, heq⟩ := List.mem_map.1 hm
    exact absurd (heq ▸ hw.answers x hx) (Nat.not_lt.2 (call_of_mem_errands he).1)
  have helsewhere : ∀ j ≠ e.service, w.control.found before j e.call = none := fun j hj =>
    (hfound j e.call).symm.trans (lookup_elsewhere hp he hj)
  rw [List.lookup_append, hold, Option.none_or, Control.lookup_given _ helsewhere]
  exact (hfound e.service e.call).symm

end World.Regular

/-! ### The fan-out in the world -/

theorem network_of_looked {w : World} {l : List (Nat × Deed)} {list : List Errand}
    {found : List (NetworkId × Option Answer)} (h : List.Forall₂ (Caller.Looked w l) list found) :
    found.map Prod.fst = list.map (·.network) := by
  induction h with
  | nil => rfl
  | cons ha _ ih => rw [List.map_cons, List.map_cons, ih, ha.network]

theorem exists_of_looked {w : World} {l : List (Nat × Deed)} {list : List Errand}
    {found : List (NetworkId × Option Answer)} (h : List.Forall₂ (Caller.Looked w l) list found)
    {e : Errand} (he : e ∈ list) : ∃ a ∈ found, Caller.Looked w l e a := by
  induction h with
  | nil => cases he
  | @cons e' a _ _ ha _ ih =>
    obtain rfl | he := List.mem_cons.1 he
    · exact ⟨a, List.mem_cons_self, ha⟩
    · obtain ⟨b, hm, hb⟩ := ih he
      exact ⟨b, List.mem_cons_of_mem _ hm, hb⟩

/-- On tape, a fan-out in the simulated world is a fan-out from its control centre, at any time
until it has ended.  Then the services are what they are on tape, and the caller names exactly those
networks that had got the piece by the time at which their answers were looked for. -/
theorem fansOut_fanOut {w : World} (hw : w.Regular) {bulletin : Bulletin} {skipIfIdle : Bool}
    {orders : List (NetworkId × Nat × Order)}
    (ho : w.control.corrections bulletin skipIfIdle w.now = .ok orders) :
    let list := errands w.calls orders
    let ended := (Caller.fanOut bulletin skipIfIdle).runs w
    ∃ l scripts,
      (∀ k s, ended.2.service? k = some s → ∃ log given rest,
        ((w.control.onTape scripts).during (turnsIn l)).service? k =
          some (s.onTape log given rest)) ∧
      (∀ before, before <+: l → FansOut (w.control.onTape scripts) bulletin skipIfIdle w.now list
        (turnsIn before)) ∧
      ∀ networks, ended.1 = .ok networks → networks.Sublist w.control.networks ∧
        ∀ e ∈ list, ∃ before, before <+: l ∧ (e.network ∈ networks ↔
          e.network ∈ ((w.control.onTape scripts).during (turnsIn before)).received list) := by
  intro list ended
  obtain ⟨l, hleads, hl, hfound⟩ := Caller.leads_fanOut ho
  obtain ⟨scripts, hr⟩ := w.control.exists_tapes l
  have hcommands : ∀ before, before <+: l →
      (commandsOf before).Subperm (list.map fun e => (e.service, e.command)) := fun before hb =>
    (hb.sublist.filterMap _).subperm.trans hl
  refine ⟨l, scripts, fun k s hs => ?_, fun before hb =>
    hw.fansOut_onTape scripts ho (hcommands before hb), fun networks hn => ?_⟩
  · have hs : ended.2.control.service? k = some s := hs
    rw [hleads.control] at hs
    exact hr.service? List.prefix_rfl hs
  obtain ⟨found, rfl, hfound⟩ := hfound networks hn
  have hasked : found.map Prod.fst = w.control.networks :=
    (network_of_looked hfound).trans (hw.fansOut_onTape scripts ho hl).asked
  refine ⟨hasked ▸ sublist_recipients found, fun e he => ?_⟩
  obtain ⟨a, hm, ha⟩ := exists_of_looked hfound he
  obtain ⟨before, u, hb, hu, hlookup⟩ := ha.answer
  refine ⟨before, hb, ?_⟩
  have hp := hw.private_onTape scripts (hcommands before hb)
  have hanswer : a.2 = ((w.control.onTape scripts).during (turnsIn before)).answerTo e := by
    rw [hlookup, hu.answers]
    exact hw.lookup_answers hr hb hp he
  have hnodup := w.control.nodup_networks
  rw [mem_received_iff (network_of_looked hfound ▸ hasked ▸ hnodup) he, ← ha.network, ← hanswer]
  exact mem_recipients_iff (hasked ▸ hnodup) hm

/-- A fan-out leaves the world in order. -/
theorem regular_fanOut {w : World} (hw : w.Regular) (bulletin : Bulletin) (skipIfIdle : Bool) :
    ((Caller.fanOut bulletin skipIfIdle).runs w).2.Regular := by
  cases ho : w.control.corrections bulletin skipIfIdle w.now with
  | error fault =>
    rw [Caller.runs_fanOut_of_error ho]
    exact hw
  | ok orders =>
    obtain ⟨l, hleads, hl, -⟩ := Caller.leads_fanOut ho
    refine (hw.mono (Nat.le_add_right _ orders.length)).leads hleads fun x hx call hcall => ?_
    obtain ⟨e, he, rfl⟩ := List.mem_map.1 (hl.subset hx)
    cases hcall
    exact (call_of_mem_errands he).2

end GroundControl
