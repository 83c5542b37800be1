import GroundControl.Proofs.Station.Course

/-!
# What becomes of a broadcast

An attempt at a broadcast asks the throttle and then the link, and it changes nothing else that
anybody looks at.

* `Handling`, what becomes of a piece of the correction stream;
* `Station.claim`, what the throttle says; `Station.announcement`, the frame of a broadcast;
  `Station.offer`, what the link says to it;
* `Station.proceed`, how a broadcast goes on as the throttle says; `tryBroadcast_eq`;
* `Station.handling`, what a station makes of a piece; `handling_eq_sent_iff`;
  `tryBroadcast_handling`.
-/

namespace GroundControl

/-- What becomes of a piece of the correction stream that a station has in hand. -/
inductive Handling
  /-- the network does not take it -/
  | skipped
  /-- the throttle does not let it through before the deadline -/
  | limited
  /-- it waits for a token until an instant -/
  | delayed (ready : Instant)
  /-- the throttle has met a fault -/
  | faulty (fault : Fault)
  /-- the link refuses it -/
  | refused (e : LinkError)
  /-- the link takes it -/
  | sent
  deriving DecidableEq

namespace Handling

/-- What the caller is told. -/
def result? (network : NetworkId) : Handling → Option (Except DispatchError Bool)
  | skipped => some (.ok false)
  | limited => some (.error (.rateLimited network))
  | refused e => some (.error (.transport network e))
  | sent => some (.ok true)
  | delayed _ | faulty _ => none

/-- The frames that are handed over. -/
def frames (frame : Frame) : Handling → List Sending
  | refused e => [(frame, .error e)]
  | sent => [(frame, .ok ())]
  | skipped | limited | delayed _ | faulty _ => []

/-- What becomes of a piece that the network takes, by the answers of the throttle and the link. -/
def of : Except Fault Claim → Except LinkError Unit → Handling
  | .error fault, _ => faulty fault
  | .ok .denied, _ => limited
  | .ok (.wait ready), _ => delayed ready
  | .ok .granted, .error e => refused e
  | .ok .granted, .ok () => sent

/-- How an attempt to send a piece that the network takes ends, with the station it leaves. -/
def ending {τ : Type} (station : Station τ) :
    Handling → EStateM.Result Fault (Station τ) (Attempt Unit)
  | skipped | sent => .ok (.done (.ok ())) station
  | limited => .ok (.done (.error (.rateLimited station.id))) station
  | refused e => .ok (.done (.error (.transport station.id e))) station
  | delayed ready => .ok (.wait ready) station
  | faulty fault => .error fault station

/-- No frame is handed over as long as the caller is told nothing. -/
theorem frames_of_result?_eq_none {network : NetworkId} {x : Handling}
    (h : x.result? network = none) (frame : Frame) : x.frames frame = [] := by
  cases x with
  | skipped | limited | refused | sent => cases h
  | delayed | faulty => rfl

/-- Only a frame of a piece that counts as sent is accepted. -/
theorem eq_sent_of_mem_frames {frame : Frame} {x : Handling} {f : Sending}
    (h : f ∈ x.frames frame) (ha : f.2 = .ok ()) : x = .sent := by
  cases x with
  | sent => rfl
  | refused e =>
    rw [List.mem_singleton.1 h] at ha
    cases ha
  | skipped | limited | delayed | faulty => cases h

variable {claim : Except Fault Claim} {offer : Except LinkError Unit}

theorem of_ne_skipped : of claim offer ≠ skipped := by
  obtain fault | _ | _ | ready := claim <;> obtain e | _ := offer <;> exact nofun

theorem of_eq_delayed {ready : Instant} (h : of claim offer = delayed ready) :
    claim = .ok (.wait ready) := by
  obtain fault | _ | _ | until_ := claim <;> obtain e | _ := offer <;> cases h <;> rfl

theorem of_eq_sent_iff : of claim offer = sent ↔ claim = .ok .granted ∧ offer = .ok () := by
  constructor
  · intro h
    obtain fault | _ | _ | ready := claim <;> obtain e | _ := offer <;> cases h
    exact ⟨rfl, rfl⟩
  · rintro ⟨rfl, rfl⟩
    rfl

end Handling

namespace Station

variable {τ : Type}

/-- What the throttle says to a broadcast that can wait until `deadline`, and what becomes of it;
without a throttle every broadcast is let through. -/
def claim (s : Station τ) (deadline now : Instant) : Except Fault Claim × Option (Bucket Float) :=
  match s.throttle with
  | none => (.ok .granted, none)
  | some bucket =>
      let (claim, bucket) := bucket.claim 1 deadline now
      (claim, some bucket)

/-- The frame of a broadcast. -/
def announcement (s : Station τ) (bulletin : Bulletin) : Frame :=
  ⟨s.id, .everyone, bulletin.body, none, s.epoch⟩

/-- The station after its throttle was asked. -/
def claimed (s : Station τ) (deadline now : Instant) : Station τ :=
  { s with throttle := (s.claim deadline now).2 }

/-- A wait begins later and ends at the deadline at the latest. -/
theorem lt_of_claim_eq_wait {s : Station τ} {deadline now ready : Instant}
    (h : (s.claim deadline now).1 = .ok (.wait ready)) : now < ready ∧ ready ≤ deadline := by
  unfold claim at h
  cases ht : s.throttle with
  | none =>
    rw [ht] at h
    cases h
  | some bucket =>
    rw [ht] at h
    have hclaim : bucket.claim 1 deadline now =
        (.ok (.wait ready), (bucket.claim 1 deadline now).2) := Prod.ext h rfl
    exact (Bucket.dealt_claim hclaim).2

variable [Carrier τ]

/-- What the link says to a broadcast. -/
def offer (s : Station τ) (bulletin : Bulletin) : Except LinkError Unit :=
  (Carrier.send s.carrier (s.announcement bulletin)).1

/-! ### Attempts -/

/-- Go on with a broadcast as the throttle says. -/
def proceed (bulletin : Bulletin) : Except Fault Claim → Act τ (Attempt Unit)
  | .error fault => throw fault
  | .ok .granted => do return .done (← modifyGet (transmitAll bulletin))
  | .ok .denied => do return .done (← modifyGet rateLimited)
  | .ok (.wait ready) => return .wait ready

/-- An attempt asks the throttle, and goes on as it says. -/
theorem tryBroadcast_eq (bulletin : Bulletin) (deadline now : Instant) (s : Station τ) :
    tryBroadcast bulletin deadline now s =
      proceed bulletin (s.claim deadline now).1 (s.claimed deadline now) := by
  unfold tryBroadcast claimed claim
  rw [Act.get_bind]
  cases ht : s.throttle with
  | none =>
    have hs : { s with throttle := none } = s := by rw [← ht]
    dsimp only
    rw [hs]
    rfl
  | some bucket =>
    dsimp only
    cases (bucket.claim 1 deadline now).1 with
    | error fault => rfl
    | ok claim => cases claim <;> rfl

section Attempts

variable {s : Station τ} {bulletin : Bulletin}

/-- An attempt that has to wait is to be repeated later, at the deadline at the latest. -/
theorem lt_of_tryBroadcast_eq_wait {s' : Station τ} {deadline now ready : Instant}
    (h : tryBroadcast bulletin deadline now s = .ok (.wait ready) s') :
    now < ready ∧ ready ≤ deadline := by
  rw [tryBroadcast_eq] at h
  cases hc : (s.claim deadline now).1 with
  | error fault =>
    rw [hc] at h
    cases h
  | ok claim =>
    rw [hc] at h
    cases claim with
    | granted | denied => cases h
    | wait until_ =>
      cases h
      exact lt_of_claim_eq_wait hc

theorem transmitAll_of_ok (h : s.offer bulletin = .ok ()) :
    ∃ s', transmitAll bulletin s = (.ok (), s') ∧ s'.settings = s.settings ∧ s'.watch = s.watch ∧
      sendings s'.log = sendings s.log ++ [(s.announcement bulletin, .ok ())] := by
  unfold offer announcement at h
  unfold transmitAll
  dsimp only
  rw [h]
  refine ⟨_, rfl, rfl, rfl, ?_⟩
  show sendings ((s.log ++ _) ++ _) = _
  rw [sendings_append, sendings_append, List.append_assoc]
  rfl

theorem transmitAll_of_error {e : LinkError} (h : s.offer bulletin = .error e) :
    ∃ s', transmitAll bulletin s = (.error (.transport s.id e), s') ∧
      s'.settings = s.settings ∧ s'.watch = s.watch ∧
        sendings s'.log = sendings s.log ++ [(s.announcement bulletin, .error e)] := by
  unfold offer announcement at h
  unfold transmitAll
  dsimp only
  rw [h]
  refine ⟨_, rfl, rfl, rfl, ?_⟩
  show sendings (s.log ++ _) = _
  rw [sendings_append]
  rfl

end Attempts

/-! ### Pieces of the correction stream -/

/-- What a station makes at `now` of a piece of the correction stream that can wait until
`deadline`. -/
def handling (s : Station τ) (bulletin : Bulletin) (skipIfIdle : Bool) (deadline now : Instant) :
    Handling :=
  if s.takesCorrection skipIfIdle then .of (s.claim deadline now).1 (s.offer bulletin) else .skipped

section Handlings

variable {s : Station τ} {bulletin : Bulletin} {skipIfIdle : Bool} {deadline now : Instant}

omit [Carrier τ] in
/-- A network takes the correction stream if it is to get it, and has somebody online if idle
networks are skipped. -/
theorem takesCorrection_iff : s.takesCorrection skipIfIdle = true ↔
    s.settings.corrections = true ∧
      (skipIfIdle = true → ∃ agent, s.presenceOf agent = .online) := by
  unfold takesCorrection presenceOf
  rw [← Watch.anyOnline_iff, Bool.and_eq_true]
  cases skipIfIdle <;> cases s.watch.anyOnline <;> simp

theorem handling_of_taken (ht : s.takesCorrection skipIfIdle = true) :
    s.handling bulletin skipIfIdle deadline now =
      .of (s.claim deadline now).1 (s.offer bulletin) := if_pos ht

theorem handling_eq_skipped_iff : s.handling bulletin skipIfIdle deadline now = .skipped ↔
    s.takesCorrection skipIfIdle = false := by
  constructor
  · intro h
    refine Bool.eq_false_iff.2 fun ht => ?_
    rw [handling_of_taken ht] at h
    exact Handling.of_ne_skipped h
  · exact fun ht => if_neg (Bool.eq_false_iff.1 ht)

theorem taken_of_handling_ne_skipped (h : s.handling bulletin skipIfIdle deadline now ≠ .skipped) :
    s.takesCorrection skipIfIdle = true :=
  Bool.not_eq_false _ ▸ mt handling_eq_skipped_iff.2 h

theorem of_handling_eq_delayed {ready : Instant}
    (h : s.handling bulletin skipIfIdle deadline now = .delayed ready) :
    s.takesCorrection skipIfIdle = true ∧ (s.claim deadline now).1 = .ok (.wait ready) := by
  have ht : s.takesCorrection skipIfIdle = true := taken_of_handling_ne_skipped (h.trans_ne nofun)
  rw [handling_of_taken ht] at h
  exact ⟨ht, Handling.of_eq_delayed h⟩

/-- A piece is sent if the network takes it, the throttle lets it through and the link accepts it,
and otherwise it is not. -/
theorem handling_eq_sent_iff : s.handling bulletin skipIfIdle deadline now = .sent ↔
    s.takesCorrection skipIfIdle = true ∧ (s.claim deadline now).1 = .ok .granted ∧
      s.offer bulletin = .ok () := by
  constructor
  · intro h
    have ht : s.takesCorrection skipIfIdle = true := taken_of_handling_ne_skipped (h.trans_ne nofun)
    rw [handling_of_taken ht] at h
    exact ⟨ht, Handling.of_eq_sent_iff.1 h⟩
  · rintro ⟨ht, hsent⟩
    rw [handling_of_taken ht]
    exact Handling.of_eq_sent_iff.2 hsent

/-- An attempt to send a piece that the network takes. -/
theorem tryBroadcast_handling (bulletin : Bulletin) (deadline now : Instant)
    (ht : s.takesCorrection skipIfIdle = true) :
    ∃ s' : Station τ, tryBroadcast bulletin deadline now s =
        (s.handling bulletin skipIfIdle deadline now).ending s' ∧
      s'.settings = s.settings ∧ s'.watch = s.watch ∧
        sendings s'.log = sendings s.log ++
          (s.handling bulletin skipIfIdle deadline now).frames (s.announcement bulletin) := by
  rw [tryBroadcast_eq, handling_of_taken ht]
  cases (s.claim deadline now).1 with
  | error fault => exact ⟨s.claimed deadline now, rfl, rfl, rfl, (List.append_nil _).symm⟩
  | ok claim =>
    cases claim with
    | denied =>
      exact ⟨(rateLimited (s.claimed deadline now)).2, rfl, rfl, rfl, (List.append_nil _).symm⟩
    | wait ready => exact ⟨s.claimed deadline now, rfl, rfl, rfl, (List.append_nil _).symm⟩
    | granted =>
      have hoffer : (s.claimed deadline now).offer bulletin = s.offer bulletin := rfl
      have hgo : ∀ answer s', transmitAll bulletin (s.claimed deadline now) = (answer, s') →
          proceed bulletin (.ok .granted) (s.claimed deadline now) = .ok (.done answer) s' := by
        intro answer s' h
        show EStateM.Result.ok (Attempt.done (transmitAll bulletin (s.claimed deadline now)).1)
          (transmitAll bulletin (s.claimed deadline now)).2 = _
        rw [h]
      cases ho : s.offer bulletin with
      | error e =>
        obtain ⟨s', h, hs, hw, hf⟩ := transmitAll_of_error (hoffer.trans ho)
        refine ⟨s', ?_, hs, hw, hf⟩
        rw [hgo _ _ h]
        show _ = EStateM.Result.ok (Attempt.done (.error (.transport s'.settings.id e))) s'
        rw [hs]
        rfl
      | ok u =>
        obtain ⟨s', h, hs, hw, hf⟩ := transmitAll_of_ok (hoffer.trans ho)
        exact ⟨s', hgo _ _ h, hs, hw, hf⟩

end Handlings

end Station

end GroundControl
