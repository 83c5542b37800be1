import GroundControl.Proofs.Control.Switchboard
import GroundControl.Proofs.Service.Faultless
import GroundControl.Proofs.Service.Line

/-!
# A fan-out of the correction stream

A fan-out gives an order to the service of each attached network and waits for all answers.  The
services go their own ways meanwhile: the orders reach them at any time, other orders and messages
come in between, and each network is reached or not for reasons of its own.

* `Service.Sends`, a poll that sends a piece; `Service.Accounts`, all about one network;
  `accounts_of_new`;
* `Control.during`, the control centre after what has happened to its services; `turnsOf`, what has
  happened to one of them; `service?_during`;
* `Control.answerTo`, `Control.framesOf`, `Control.received`: what has become of a fan-out;
* `Control.Staffed`, every attached network has its service; `exists_corrections_iff`,
  `goesTo_of_mem_errands`;
* `Private`, the calls of a fan-out are its own; `FansOut`, `fansOut_of_private`;
  `fan_out_reaches`.
-/

namespace GroundControl

/-! ### One network -/

theorem gotCorrection_iff {answer : Option Answer} :
    gotCorrection answer = true ↔ answer = some (.corrected (.ok true)) := by
  constructor
  · intro h
    cases answer with
    | none => cases h
    | some answer =>
      cases answer with
      | corrected result =>
        cases result with
        | error e => cases h
        | ok sent =>
          have h : sent = true := h
          rw [h]
      | submitted | broadcast | cancelled | deregistered | done | report | snapshots | presence
      | phase => cases h
  · rintro rfl
    rfl

theorem sublist_recipients (found : List (NetworkId × Option Answer)) :
    (recipients found).Sublist (found.map Prod.fst) :=
  List.filter_sublist.map _

/-- A network is named if its answer says that it has got the piece. -/
theorem mem_recipients_iff {found : List (NetworkId × Option Answer)}
    (hn : (found.map Prod.fst).Nodup) {a : NetworkId × Option Answer} (ha : a ∈ found) :
    a.1 ∈ recipients found ↔ gotCorrection a.2 = true := by
  unfold recipients
  rw [List.mem_map]
  constructor
  · rintro ⟨b, hb, hnetwork⟩
    obtain ⟨hm, hgot⟩ := List.mem_filter.1 hb
    obtain rfl := List.inj_on_of_nodup_map hn hm ha hnetwork
    exact hgot
  · exact fun hgot => ⟨a, List.mem_filter.2 ⟨ha, hgot⟩, rfl⟩

namespace Service

variable {τ : Type} [Carrier τ]

/-- A poll of `s` at `now` sends the piece. -/
structure Sends (x : Piece) (host : Host) (now rung : Instant) (s : Service τ) : Prop where
  /-- the task takes the order up, or tries again -/
  works : s.works? (.poll host now rung) = some x.call
  /-- the network uses the correction stream -/
  subscribed : s.station.settings.corrections = true
  /-- somebody is online, if idle networks are skipped -/
  attended : x.skipIfIdle = true → ∃ agent, s.station.presenceOf agent = .online
  /-- the throttle grants a token, -/
  granted : (s.station.claim x.deadline now).1 = .ok .granted
  /-- the wait for which, if there was one, was to end at the deadline at the latest -/
  inTime : ∀ hold, s.activity = .holding hold → hold.ready ≤ x.deadline
  /-- the link takes the frame -/
  accepted : s.station.offer x.bulletin = .ok ()

/-- What is to be said about the piece at a service, after what has happened to it. -/
structure Accounts (x : Piece) (s : Service τ) (l : List Turn) : Prop where
  /-- the caller learns that the piece was sent exactly if a poll has sent it -/
  sent_iff : gotCorrection ((s.turns l).answers.lookup x.call) = true ↔
    ∃ before host now rung after, l = before ++ .poll host now rung :: after ∧
      (s.turns before).Sends x host now rung
  /-- the link has then got one frame, under the epoch of that time -/
  frames : ∀ before host now rung after, l = before ++ .poll host now rung :: after →
    (s.turns before).Sends x host now rung → s.framesFor x.call l =
      [(⟨s.station.id, .everyone, x.bulletin.body, none, (s.turns before).station.epoch⟩, .ok ())]
  /-- and otherwise it has taken none -/
  untaken : gotCorrection ((s.turns l).answers.lookup x.call) = false →
    ∀ f ∈ s.framesFor x.call l, f.2 ≠ .ok ()
  /-- every answer was given for what the station made of the piece at a poll -/
  answered : ∀ answer, (s.turns l).answers.lookup x.call = some answer →
    ∃ before host now rung after, l = before ++ .poll host now rung :: after ∧
      (s.turns before).Settles x host now rung answer ∧
        s.framesFor x.call l = ((s.turns before).station.handle x now).frames
          ((s.turns before).station.announcement x.bulletin)
  /-- the call is settled after as many polls past the deadlines as stand in line up to it -/
  settled : ∀ before after limit, l = before ++ .order x.command :: after → x.deadline ≤ limit →
    (∀ deadline ∈ (s.turns before).deadlines, deadline ≤ limit) →
      (s.turns before).line.length < after.countP (Turn.isPast limit) →
        (s.turns l).callEnd? x.call ≠ none

section Account

variable {s : Service τ} {x : Piece} {l : List Turn} {host : Host} {now rung : Instant}

omit [Carrier τ] in
theorem bears_of_absent (h : x.call ∉ s.calls) : s.Bears x where
  orders := fun c hc hcall => absurd (mem_calls_of_commands hc hcall) h
  hold := fun hold ha hcall => by
    have hheld : s.held? = some x.call := by
      unfold held?
      rw [ha]
      exact hcall
    exact absurd (List.mem_append_left _ (Option.mem_toList.2 hheld)) h

theorem Bears.turns (h : s.Bears x)
    (hm : ∀ c, .order c ∈ l → c.call = some x.call → c = x.command) : (s.turns l).Bears x := by
  induction l generalizing s with
  | nil => exact h
  | cons t rest ih =>
    exact ih (h.turn fun c hc => hm c (hc ▸ List.mem_cons_self))
      fun c hc => hm c (List.mem_cons_of_mem t hc)

theorem settings_turns (s : Service τ) (l : List Turn) :
    (s.turns l).station.settings = s.station.settings :=
  turns_induction (P := fun t => t.station.settings = s.station.settings)
    (fun t u h => (t.settings_turn u).trans h) rfl l

theorem patient_turns (h : s.Patient) (l : List Turn) : (s.turns l).Patient :=
  turns_induction (P := Patient) (fun _ t hs => patient_turn hs t) h l

/-- A piece is sent if the caller is to learn so. -/
theorem answer?_eq_sent_iff {station : Station τ} :
    station.answer? x now = some (.corrected (.ok true)) ↔ station.handle x now = .sent := by
  unfold Station.answer?
  cases station.handle x now with
  | sent => exact ⟨fun _ => rfl, fun _ => rfl⟩
  | skipped | limited | delayed | faulty | refused => exact ⟨nofun, nofun⟩

/-- If the piece is settled in a poll, its answer and its frames are those of that poll. -/
theorem Course.of_settles (h : Course x s l) {before after : List Turn} {answer : Answer}
    (hl : l = before ++ .poll host now rung :: after)
    (hs : (s.turns before).Settles x host now rung answer) :
    (s.turns l).answers.lookup x.call = some answer ∧
      s.framesFor x.call l = ((s.turns before).station.handle x now).frames
        ((s.turns before).station.announcement x.bulletin) := by
  cases h with
  | unsettled _ _ hnone => exact absurd hs (hnone before host now rung after answer hl)
  | settled before' host' now' rung' after' answer' _ hs' ha hf hone =>
    obtain ⟨rfl, rfl⟩ := hone before host now rung after answer hl hs
    rw [Option.some.inj (hs.answer.symm.trans hs'.answer)]
    exact ⟨ha, hf⟩

/-- The caller learns that the piece was sent exactly from a poll that sends it. -/
theorem Bears.settles_iff (h : s.Bears x) :
    s.Settles x host now rung (.corrected (.ok true)) ↔ s.Sends x host now rung := by
  constructor
  · rintro ⟨hw, ha⟩
    have hsent := answer?_eq_sent_iff.1 ha
    obtain ⟨ht, hg, ho⟩ := Station.handling_eq_sent_iff.1 hsent
    obtain ⟨hs, hattended⟩ := Station.takesCorrection_iff.1 ht
    refine ⟨hw, hs, hattended, hg, fun hold hh => ?_, ho⟩
    have hcall : hold.call = some x.call := by
      unfold works? at hw
      dsimp only at hw
      rw [hh] at hw
      dsimp only at hw
      split at hw
      · exact hw
      · cases hw
    obtain ⟨ready, hle, rfl, -⟩ := h.hold hold hh hcall
    exact hle
  · rintro ⟨hw, hs, hattended, hg, -, ho⟩
    have hsent : s.station.handle x now = .sent :=
      Station.handling_eq_sent_iff.2 ⟨Station.takesCorrection_iff.2 ⟨hs, hattended⟩, hg, ho⟩
    exact ⟨hw, answer?_eq_sent_iff.2 hsent⟩

/-- The account of a piece with a call of which nobody has heard before. -/
theorem accounts_of_new (hp : s.Patient) (hc : x.call ∉ s.calls)
    (ha : x.call ∉ s.answers.map Prod.fst)
    (hm : ∀ c, .order c ∈ l → c.call = some x.call → c = x.command)
    (ho : (callsOf l).count x.call ≤ 1) : Accounts x s l := by
  have hbears := bears_of_absent hc
  have htracks : s.Tracks x ((callsOf l).count x.call) := by
    refine ⟨hbears, ?_⟩
    rw [List.count_eq_zero.2 hc, List.count_eq_zero.2 ha]
    omega
  have hcourse := course_of_tracks htracks hm ha
  have hsettles : ∀ {before host now rung after}, l = before ++ .poll host now rung :: after →
      ((s.turns before).Settles x host now rung (.corrected (.ok true)) ↔
        (s.turns before).Sends x host now rung) := fun hl =>
    (hbears.turns fun c hc' => hm c (hl ▸ List.mem_append_left _ hc')).settles_iff
  constructor
  case sent_iff =>
    rw [gotCorrection_iff]
    constructor
    · intro h
      cases hcourse with
      | unsettled hl => cases hl.symm.trans h
      | settled before host now rung after answer hl hs hlookup =>
        obtain rfl := Option.some.inj (hlookup.symm.trans h)
        exact ⟨before, host, now, rung, after, hl, (hsettles hl).1 hs⟩
    · rintro ⟨before, host, now, rung, after, hl, hsends⟩
      exact (hcourse.of_settles hl ((hsettles hl).2 hsends)).1
  case frames =>
    intro before host now rung after hl hsends
    have hs := (hsettles hl).2 hsends
    have hid : (s.turns before).station.id = s.station.id :=
      congrArg NetworkSettings.id (settings_turns s before)
    rw [(hcourse.of_settles hl hs).2, answer?_eq_sent_iff.1 hs.answer, ← hid]
    rfl
  case untaken =>
    intro h f hf hf'
    cases hcourse with
    | unsettled _ hframes =>
      rw [hframes] at hf
      cases hf
    | settled before host now rung after answer hl hs hlookup hframes =>
      rw [hframes] at hf
      have hsent := answer?_eq_sent_iff.2 (Handling.eq_sent_of_mem_frames hf hf')
      rw [hlookup, Option.some.inj (hs.answer.symm.trans hsent)] at h
      cases h
  case answered =>
    intro answer h
    cases hcourse with
    | unsettled hl => cases hl.symm.trans h
    | settled before host now rung after answer' hl hs hlookup hframes =>
      obtain rfl := Option.some.inj (hlookup.symm.trans h)
      exact ⟨before, host, now, rung, after, hl, hs, hframes⟩
  case settled =>
    rintro before after limit rfl hx hlimit hpolls
    rw [turns_append, turns_cons]
    by_cases hr : (s.turns before).Running
    · have hb := hbears.turns fun c hc' => hm c (List.mem_append_left _ hc')
      exact settled_of_within (within_order hr hb (patient_turns hp before) hlimit) hx
        (fun c hc' => hm c (List.mem_append_right _ (List.mem_cons_of_mem _ hc'))) hpolls
    · exact settled_turns (settled_of_not_running hr x.call) (.order x.command :: after)

end Account

end Service

/-! ### All networks -/

/-- What has happened to the service with a number. -/
def turnsOf (k : Nat) (l : List (Nat × Turn)) : List Turn :=
  l.filterMap fun e => if e.1 = k then some e.2 else none

namespace Control

variable {τ : Type} [Carrier τ]

/-- The control centre after what has happened to its services. -/
def during (c : Control τ) (l : List (Nat × Turn)) : Control τ :=
  l.foldl (fun c e => c.modifyService e.1 (·.turn e.2)) c

omit [Carrier τ] in
/-- Of all that happens to the services, each one takes its own part. -/
theorem service?_foldl {α : Type} (f : Service τ → α → Service τ) (c : Control τ)
    (l : List (Nat × α)) (k : Nat) :
    (l.foldl (fun c e => c.modifyService e.1 (f · e.2)) c).service? k =
      (c.service? k).map fun service =>
        (l.filterMap fun e => if e.1 = k then some e.2 else none).foldl f service := by
  induction l generalizing c with
  | nil =>
    show c.service? k = (c.service? k).map fun service => service
    rw [Option.map_id']
  | cons e rest ih =>
    rw [List.foldl_cons, ih, service?_modifyService, Option.map_map, List.filterMap_cons]
    by_cases hk : e.1 = k
    · rw [if_pos hk]
      congr 1
      funext service
      rw [Function.comp_apply, if_pos hk]
      rfl
    · rw [if_neg hk]
      congr 1
      funext service
      rw [Function.comp_apply, if_neg hk]

/-- Each service becomes what its own turns make of it. -/
theorem service?_during (c : Control τ) (l : List (Nat × Turn)) (k : Nat) :
    (c.during l).service? k = (c.service? k).map (·.turns (turnsOf k l)) :=
  service?_foldl Service.turn c l k

omit [Carrier τ] in
/-- The answer to an errand, if it was given. -/
def answerTo (c : Control τ) (e : Errand) : Option Answer :=
  (c.service? e.service).bind (·.answers.lookup e.call)

/-- The frames that the service with a number has handed over on behalf of an errand. -/
def framesOf (c : Control τ) (l : List (Nat × Turn)) (e : Errand) (k : Nat) : List Sending :=
  ((c.service? k).map (·.framesFor e.call (turnsOf k l))).getD []

omit [Carrier τ] in
/-- The answer to a fan-out of the correction stream, once all errands are settled. -/
def received (c : Control τ) (errands : List Errand) : List NetworkId :=
  recipients (errands.map fun e => (e.network, c.answerTo e))

end Control

section FanOut

variable {τ : Type} [Carrier τ]

/-- The piece that goes to a service in a fan-out at `now`. -/
def Service.piece (s : Service τ) (bulletin : Bulletin) (skipIfIdle : Bool) (now : Instant)
    (call : CallId) : Piece :=
  ⟨bulletin, skipIfIdle, now + s.station.settings.broadcastGrace, call⟩

/-- The calls of a fan-out are its own. -/
structure Private (c : Control τ) (errands : List Errand) (l : List (Nat × Turn)) : Prop where
  /-- nobody has heard of them before -/
  unheard : ∀ e ∈ errands, ∀ k service, c.service? k = some service →
    e.call ∉ service.calls ∧ e.call ∉ service.answers.map Prod.fst
  /-- no order of anybody else bears their numbers, -/
  own : ∀ e ∈ errands, ∀ k command, (k, .order command) ∈ l → command.call = some e.call →
    k = e.service ∧ command = e.command
  /-- and none of their orders comes twice -/
  once : ∀ e ∈ errands, (callsOf (l.map Prod.snd)).count e.call ≤ 1

omit [Carrier τ] in
/-- An errand of a fan-out from the control centre `c` at `now`, to a service. -/
structure Errand.GoesTo (c : Control τ) (bulletin : Bulletin) (skipIfIdle : Bool) (now : Instant)
    (e : Errand) (service : Service τ) : Prop where
  attached : c.attached.get? e.network = some e.service
  serves : c.service? e.service = some service
  network : service.station.id = e.network
  /-- the piece can wait for a token as long as the network allows -/
  command : e.command = (service.piece bulletin skipIfIdle now e.call).command

/-- A fan-out of the correction stream from the control centre `c` at `now`, while `l` happens to
the services. -/
structure FansOut (c : Control τ) (bulletin : Bulletin) (skipIfIdle : Bool) (now : Instant)
    (errands : List Errand) (l : List (Nat × Turn)) : Prop where
  /-- every attached network is asked once, in the order of the names -/
  asked : errands.map (·.network) = c.networks
  goes : ∀ e ∈ errands, ∃ service, e.GoesTo c bulletin skipIfIdle now service
  /-- the answer names the networks in ascending order and none of them twice -/
  ascending : ((c.during l).received errands).Pairwise (· < ·)
  /-- it names exactly the networks to which some poll has sent the piece: those that use the
  correction stream, have somebody online if idle networks are skipped, have got a token and have a
  link that has taken the frame -/
  received_iff : ∀ e ∈ errands, ∀ service, e.GoesTo c bulletin skipIfIdle now service →
    (e.network ∈ (c.during l).received errands ↔ ∃ before host time rung after,
      turnsOf e.service l = before ++ .poll host time rung :: after ∧
        (service.turns before).Sends (service.piece bulletin skipIfIdle now e.call) host time rung)
  /-- the link of such a network has got one frame, under the epoch of the network -/
  frames : ∀ e ∈ errands, ∀ service, e.GoesTo c bulletin skipIfIdle now service →
    ∀ before host time rung after, turnsOf e.service l = before ++ .poll host time rung :: after →
      (service.turns before).Sends (service.piece bulletin skipIfIdle now e.call) host time rung →
        c.framesOf l e e.service = [(⟨e.network, .everyone, bulletin.body, none,
          (service.turns before).station.epoch⟩, .ok ())]
  /-- no link of another network has taken one -/
  untaken : ∀ e ∈ errands, e.network ∉ (c.during l).received errands →
    ∀ f ∈ c.framesOf l e e.service, f.2 ≠ .ok ()
  elsewhere : ∀ e ∈ errands, ∀ k ≠ e.service, c.framesOf l e k = []
  /-- every answer was given for what the station made of the piece at a poll -/
  answered : ∀ e ∈ errands, ∀ service, e.GoesTo c bulletin skipIfIdle now service →
    ∀ answer, (c.during l).answerTo e = some answer → ∃ before host time rung after,
      turnsOf e.service l = before ++ .poll host time rung :: after ∧ (service.turns before).Settles
        (service.piece bulletin skipIfIdle now e.call) host time rung answer
  /-- what comes of one network depends on nothing that happens to the others -/
  alone : ∀ e ∈ errands, ∀ (c' : Control τ) l', c'.service? e.service = c.service? e.service →
    turnsOf e.service l' = turnsOf e.service l →
      (c'.during l').answerTo e = (c.during l).answerTo e ∧
        c'.framesOf l' e e.service = c.framesOf l e e.service
  /-- an errand is settled once its order has come and the task was polled past all deadlines more
  often than others stood in line before -/
  settled : ∀ e ∈ errands, ∀ service, e.GoesTo c bulletin skipIfIdle now service →
    ∀ before after limit, turnsOf e.service l = before ++ .order e.command :: after →
      now + service.station.settings.broadcastGrace ≤ limit →
        (∀ deadline ∈ (service.turns before).deadlines, deadline ≤ limit) →
          (service.turns before).line.length < after.countP (Turn.isPast limit) →
            ((c.during l).service? e.service).bind (·.callEnd? e.call) ≠ none

/-! #### The errands -/

omit [Carrier τ] in
theorem eq_map_of_mapM {α β : Type} {f : α → Except Fault β} {g : α → β}
    (hf : ∀ a b, f a = .ok b → b = g a) {l : List α} {l' : List β} (h : l.mapM f = .ok l') :
    l' = l.map g := by
  induction l generalizing l' with
  | nil =>
    cases h
    rfl
  | cons a rest ih =>
    rw [List.mapM_cons] at h
    cases ha : f a with
    | error fault =>
      rw [ha] at h
      cases h
    | ok b =>
      cases hrest : rest.mapM f with
      | error fault =>
        rw [ha, hrest] at h
        cases h
      | ok bs =>
        rw [ha, hrest] at h
        cases h
        rw [List.map_cons, ← hf a b ha, ← ih hrest]

omit [Carrier τ] in
theorem network_errands (first : CallId) (orders : List (NetworkId × Nat × Order)) :
    (errands first orders).map (·.network) = orders.map (·.1) := by
  refine List.ext_getElem? fun i => ?_
  unfold errands
  rw [List.getElem?_map, List.getElem?_mapIdx, List.getElem?_map, Option.map_map]
  rfl

omit [Carrier τ] in
theorem mem_errands {first : CallId} {orders : List (NetworkId × Nat × Order)} {e : Errand}
    (h : e ∈ errands first orders) : (e.network, e.service, e.order) ∈ orders := by
  unfold errands at h
  obtain ⟨i, hi, rfl⟩ := List.mem_mapIdx.1 h
  exact List.getElem_mem hi

omit [Carrier τ] in
/-- The orders of a fan-out that begins: one for each attached network, with its own deadline. -/
theorem corrections_eq_ok {c : Control τ} {bulletin : Bulletin} {skipIfIdle : Bool} {now : Instant}
    {orders : List (NetworkId × Nat × Order)}
    (h : c.corrections bulletin skipIfIdle now = .ok orders) :
    orders = c.attached.entries.map fun (network, k) =>
      (network, k, .correction bulletin skipIfIdle (now + c.graceOf network)) := by
  unfold Control.corrections at h
  cases hd : c.correctionDeadlines now with
  | error fault =>
    rw [hd] at h
    cases h
  | ok deadlines =>
    rw [hd] at h
    cases h
    have hdeadlines : deadlines =
        c.attached.entries.map fun (network, k) => (network, k, now + c.graceOf network) := by
      refine eq_map_of_mapM (fun (network, k) deadline he => ?_) hd
      dsimp only at he
      cases ha : now.after (c.graceOf network) with
      | error fault =>
        rw [ha] at he
        cases he
      | ok t =>
        rw [ha] at he
        cases he
        rw [Instant.eq_of_after_eq_ok ha]
    rw [hdeadlines, List.map_map]
    rfl

omit [Carrier τ] in
theorem Control.networks_increasing (c : Control τ) : c.networks.Pairwise (· < ·) :=
  c.attached.sorted.map _ fun _ _ hlt => hlt

omit [Carrier τ] in
theorem Control.nodup_networks (c : Control τ) : c.networks.Nodup := by
  refine c.networks_increasing.imp (S := fun a b => a ≠ b) fun hlt heq => ?_
  rw [heq] at hlt
  exact String.lt_irrefl _ hlt

/-- Every attached network has a service, which runs with the settings that declare it. -/
def Control.Staffed (c : Control τ) : Prop :=
  ∀ network k, c.attached.get? network = some k → ∃ service, c.service? k = some service ∧
    service.station.id = network ∧ c.settingsOf network = .ok service.station.settings

theorem Switchboard.Consistent.staffed {s : Switchboard τ} (h : s.Consistent) :
    s.control.Staffed := by
  intro network k hk
  obtain ⟨service, hs, hf, hsettings⟩ := h.attached network k hk
  refine ⟨service, hs, ?_, hsettings⟩
  have hm : service.station.settings ∈ [service.station.settings] := List.mem_singleton_self _
  rw [← hf, List.mem_filter] at hm
  exact of_decide_eq_true hm.2

section Staffed

variable {c : Control τ} {bulletin : Bulletin} {skipIfIdle : Bool} {now : Instant}

omit [Carrier τ] in
theorem Control.Staffed.graceOf (h : c.Staffed) {network : NetworkId} {k : Nat}
    (hk : c.attached.get? network = some k) :
    ∃ service, c.service? k = some service ∧ service.station.id = network ∧
      c.graceOf network = service.station.settings.broadcastGrace := by
  obtain ⟨service, hs, hid, hsettings⟩ := h network k hk
  refine ⟨service, hs, hid, ?_⟩
  unfold Control.graceOf
  rw [hsettings]

omit [Carrier τ] in
/-- Every errand of a fan-out goes to the service of its network. -/
theorem goesTo_of_mem_errands (h : c.Staffed) {orders : List (NetworkId × Nat × Order)}
    (ho : c.corrections bulletin skipIfIdle now = .ok orders) {first : CallId} {e : Errand}
    (he : e ∈ errands first orders) : ∃ service, e.GoesTo c bulletin skipIfIdle now service := by
  obtain ⟨network, k, order, call⟩ := e
  have hm : (network, k, order) ∈ orders := mem_errands he
  rw [corrections_eq_ok ho] at hm
  obtain ⟨⟨network', k'⟩, hentry, heq⟩ := List.mem_map.1 hm
  cases heq
  have hk := Table.mem_entries_iff.1 hentry
  obtain ⟨service, hs, hid, hgrace⟩ := h.graceOf hk
  refine ⟨service, hk, hs, hid, ?_⟩
  rw [hgrace]
  rfl

end Staffed

/-! #### What becomes of the errands -/

section Errands

variable {c : Control τ} {bulletin : Bulletin} {skipIfIdle : Bool} {now : Instant}
  {list : List Errand} {l : List (Nat × Turn)} {e : Errand} {service : Service τ}

omit [Carrier τ] in
theorem mem_turnsOf {k : Nat} {t : Turn} (h : t ∈ turnsOf k l) : (k, t) ∈ l := by
  obtain ⟨⟨j, u⟩, hm, hu⟩ := List.mem_filterMap.1 h
  dsimp only at hu
  split at hu
  · rename_i hj
    cases hu
    exact hj ▸ hm
  · cases hu

omit [Carrier τ] in
theorem sublist_turnsOf (k : Nat) (l : List (Nat × Turn)) :
    (turnsOf k l).Sublist (l.map Prod.snd) := by
  induction l with
  | nil => exact .slnil
  | cons e rest ih =>
    unfold turnsOf at ih ⊢
    rw [List.filterMap_cons, List.map_cons]
    by_cases hk : e.1 = k
    · rw [if_pos hk]
      exact ih.cons_cons e.2
    · rw [if_neg hk]
      exact ih.cons e.2

/-- The account of an errand at its service. -/
theorem accounts_of_private (hp : ∀ k service, c.service? k = some service → service.Patient)
    (h : Private c list l) (he : e ∈ list) (hg : e.GoesTo c bulletin skipIfIdle now service) :
    service.Accounts (service.piece bulletin skipIfIdle now e.call) (turnsOf e.service l) := by
  obtain ⟨hcalls, hanswers⟩ := h.unheard e he e.service service hg.serves
  refine Service.accounts_of_new (hp _ _ hg.serves) hcalls hanswers (fun command hc hcall => ?_) ?_
  · rw [← hg.command]
    exact (h.own e he e.service command (mem_turnsOf hc) hcall).2
  · have hsub := (sublist_turnsOf e.service l).filterMap Turn.call?
    exact Nat.le_trans (hsub.count_le _) (h.once e he)

omit [Carrier τ] in
/-- No other service hears of an errand. -/
theorem not_mem_callsOf (h : Private c list l) (he : e ∈ list) {k : Nat} (hk : k ≠ e.service) :
    e.call ∉ callsOf (turnsOf k l) := by
  intro hm
  obtain ⟨t, ht, hcall⟩ := List.mem_filterMap.1 hm
  cases t with
  | order command => exact hk (h.own e he k command (mem_turnsOf ht) hcall).1
  | receive | close | poll => cases hcall

/-- Nothing is done for an errand at any other service. -/
theorem framesOf_elsewhere (h : Private c list l) (he : e ∈ list) {k : Nat} (hk : k ≠ e.service) :
    c.framesOf l e k = [] := by
  unfold Control.framesOf
  cases hs : c.service? k with
  | none => rfl
  | some service =>
    exact (Service.framesFor_of_absent (h.unheard e he k service hs).1
      (not_mem_callsOf h he hk)).1

/-- No other service answers it. -/
theorem lookup_elsewhere (h : Private c list l) (he : e ∈ list) {k : Nat} (hk : k ≠ e.service) :
    ((c.during l).service? k).bind (·.answers.lookup e.call) = none := by
  rw [Control.service?_during]
  cases hs : c.service? k with
  | none => rfl
  | some service =>
    obtain ⟨hcalls, hanswers⟩ := h.unheard e he k service hs
    exact (Service.framesFor_of_absent hcalls (not_mem_callsOf h he hk)).2.1.trans
      (Service.lookup_eq_none_of_not_mem hanswers)

theorem answerTo_of_goesTo (hg : e.GoesTo c bulletin skipIfIdle now service) :
    (c.during l).answerTo e = (service.turns (turnsOf e.service l)).answers.lookup e.call := by
  unfold Control.answerTo
  rw [Control.service?_during, hg.serves]
  rfl

theorem framesOf_of_goesTo (hg : e.GoesTo c bulletin skipIfIdle now service) :
    c.framesOf l e e.service = service.framesFor e.call (turnsOf e.service l) := by
  unfold Control.framesOf
  rw [hg.serves]
  rfl

omit [Carrier τ] in
theorem mem_received_iff (hn : (list.map (·.network)).Nodup) (he : e ∈ list) :
    e.network ∈ c.received list ↔ gotCorrection (c.answerTo e) = true := by
  refine mem_recipients_iff (a := (e.network, c.answerTo e)) ?_ (List.mem_map.2 ⟨e, he, rfl⟩)
  rw [List.map_map]
  exact hn

omit [Carrier τ] in
theorem sublist_received (c : Control τ) (list : List Errand) :
    (c.received list).Sublist (list.map (·.network)) := by
  have h := sublist_recipients (list.map fun e => (e.network, c.answerTo e))
  rwa [List.map_map] at h

end Errands

/-! #### The services of a control centre -/

omit [Carrier τ] in
/-- What holds of new services and of those there are holds after an attempt to start one. -/
theorem forall_services_start {P : Service τ → Prop} (hnew : ∀ station now, P (.new station now))
    {c : Control τ} (h : ∀ service ∈ c.services, P service) (settings : NetworkSettings)
    (carrier : τ) (now : Instant) :
    ∀ service ∈ (c.start settings carrier now).2.services, P service := by
  unfold Control.start
  split
  · exact h
  · exact List.forall_mem_append.2 ⟨h, List.forall_mem_singleton.2 (hnew _ now)⟩

omit [Carrier τ] in
theorem forall_services_attach {P : Service τ → Prop} (hnew : ∀ station now, P (.new station now))
    {c : Control τ} (h : ∀ service ∈ c.services, P service) (network : NetworkId) (carrier : τ)
    (now : Instant) : ∀ service ∈ (c.attach network carrier now).2.services, P service := by
  unfold Control.attach
  cases c.settingsOf network with
  | error e => exact h
  | ok settings => exact forall_services_start hnew h settings carrier now

omit [Carrier τ] in
theorem forall_services_addNetwork {P : Service τ → Prop}
    (hnew : ∀ station now, P (.new station now)) {c : Control τ}
    (h : ∀ service ∈ c.services, P service) (settings : NetworkSettings) (carrier : τ)
    (now : Instant) : ∀ service ∈ (c.addNetwork settings carrier now).2.services, P service := by
  have hstart := forall_services_start hnew h settings carrier now
  unfold Control.addNetwork
  cases settings.validate with
  | error e => exact h
  | ok u =>
    dsimp only
    generalize c.start settings carrier now = started at hstart ⊢
    obtain ⟨_ | k, c'⟩ := started <;> exact hstart

omit [Carrier τ] in
/-- What holds of the services holds after a change to one of them that preserves it. -/
theorem forall_services_modify {P : Service τ → Prop} {f : Service τ → Service τ}
    (hf : ∀ s, P s → P (f s)) {c : Control τ} (h : ∀ service ∈ c.services, P service) (k : Nat) :
    ∀ service ∈ (c.modifyService k f).services, P service := by
  intro service hm
  obtain ⟨j, hj⟩ := List.mem_iff_getElem?.1 hm
  have hj : (c.modifyService k f).service? j = some service := hj
  rw [Control.service?_modifyService] at hj
  obtain ⟨old, ho, rfl⟩ := Option.map_eq_some_iff.1 hj
  have hold := h old (List.mem_of_getElem? ho)
  split
  · exact hf old hold
  · exact hold

/-- A fan-out that begins, and whose calls are its own. -/
theorem fansOut_of_private {c : Control τ} (h : c.Staffed)
    (hp : ∀ k service, c.service? k = some service → service.Patient) {bulletin : Bulletin}
    {skipIfIdle : Bool} {now : Instant} {orders : List (NetworkId × Nat × Order)}
    (ho : c.corrections bulletin skipIfIdle now = .ok orders) {first : CallId}
    {l : List (Nat × Turn)} (hl : Private c (errands first orders) l) :
    FansOut c bulletin skipIfIdle now (errands first orders) l := by
  have hasked : (errands first orders).map (·.network) = c.networks := by
    rw [network_errands, corrections_eq_ok ho, List.map_map]
    rfl
  have hnodup : ((errands first orders).map (·.network)).Nodup := hasked ▸ c.nodup_networks
  have haccounts := fun {e} {service} (he : e ∈ errands first orders)
    (hg : e.GoesTo c bulletin skipIfIdle now service) =>
      accounts_of_private hp hl he hg
  constructor
  case asked => exact hasked
  case goes => exact fun e he => goesTo_of_mem_errands h ho he
  case ascending => exact (hasked ▸ c.networks_increasing).sublist (sublist_received _ _)
  case received_iff =>
    intro e he service hg
    rw [mem_received_iff hnodup he, answerTo_of_goesTo hg]
    exact (haccounts he hg).sent_iff
  case frames =>
    intro e he service hg before host time rung after hsplit hsends
    rw [framesOf_of_goesTo hg, ← hg.network]
    exact (haccounts he hg).frames before host time rung after hsplit hsends
  case untaken =>
    intro e he hnot f hf
    obtain ⟨service, hg⟩ := goesTo_of_mem_errands h ho he
    rw [mem_received_iff hnodup he, answerTo_of_goesTo hg, Bool.not_eq_true] at hnot
    rw [framesOf_of_goesTo hg] at hf
    exact (haccounts he hg).untaken hnot f hf
  case elsewhere => exact fun e he k hk => framesOf_elsewhere hl he hk
  case answered =>
    intro e he service hg answer ha
    rw [answerTo_of_goesTo hg] at ha
    obtain ⟨before, host, time, rung, after, hsplit, hsettles, -⟩ :=
      (haccounts he hg).answered answer ha
    exact ⟨before, host, time, rung, after, hsplit, hsettles⟩
  case alone =>
    intro e he c' l' hservice hturns
    unfold Control.answerTo Control.framesOf
    rw [Control.service?_during, Control.service?_during, hservice, hturns]
    exact ⟨rfl, rfl⟩
  case settled =>
    intro e he service hg before after limit hsplit hgrace hlimit hpolls
    rw [Control.service?_during, hg.serves]
    exact (haccounts he hg).settled before after limit (hg.command ▸ hsplit) hgrace hlimit hpolls

/-- A message comes to a service, which attends to it. -/
def heard (k : Nat) (m : Message) (now : Instant) : List (Switchboard.Call Pipe) :=
  [.turn k (.receive m) rfl, .turn k (.poll .plain now now) rfl]

end FanOut

end GroundControl
