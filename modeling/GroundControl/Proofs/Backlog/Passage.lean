import Mathlib.Data.List.Forall2
import GroundControl.Desk
import GroundControl.Proofs.Backlog.Lifecycle

/-!
# What calls make of a backlog

Calls in a senseless order leave requests in odd places: one that waits for its reply may stand
among the waiting ones, or be handed out again as it is.  Every request can still end, and every
call that takes none in and hands none out is made of three things: it changes nothing that matters,
it ends some of the requests, or it puts the one in flight back.

* `Request.entry`, what stays the same of a pending request between two attempts;
* `Request.Restive`, `Request.Aloft`, `Backlog.Viable`: the phases and attempts there can be;
* `Finished.Closes`, a lawful end of a request;
* `Backlog.Passage`, what a call makes of a backlog; `passage_transmitted`, `passage_refused`,
  `passage_review`, `passage_answer`, `passage_withdraw`, `passage_dissolve`;
* `Passage.account`: the requests before it are those that end in it and those that stay;
* `Desk.Result`, what a call comes to at a desk; `Desk.result_step`.
-/

namespace GroundControl

/-- The cause of a failure. -/
def Outcome.cause? : Outcome → Option FailureCause
  | .success .. => none
  | .failure cause .. => some cause

namespace Request

/-- The request without what may change between two attempts. -/
def entry (r : Request) : Request :=
  { r with phase := .queued, deadline := none, sentAt := none, cancelRequested := false }

/-- The request as it was taken in. -/
def origin (r : Request) : Request := { r.entry with attempts := 0 }

theorem entry_advance (r : Request) (target : Phase) : (r.advance target).1.entry = r.entry := by
  unfold advance
  split <;> rfl

/-- What can be told from the entry of a request is the same for requests with one entry. -/
theorem congr_entry {α : Type} {f : Request → α} (hf : ∀ x : Request, f x.entry = f x)
    {q r : Request} (h : q.entry = r.entry) : f q = f r := by
  rw [← hf q, h, hf r]

theorem attempts_of_entry {q r : Request} (h : q.entry = r.entry) :
    q.attempts = r.attempts ∧ q.maxAttempts = r.maxAttempts :=
  ⟨congr_entry (f := attempts) (fun _ => rfl) h,
    congr_entry (f := maxAttempts) (fun _ => rfl) h⟩

/-- A request out of flight, which may be attempted again.  It may still wait for the reply to an
earlier attempt. -/
structure Restive (r : Request) : Prop where
  phase : r.phase = .queued ∨ r.phase = .awaitingAck
  attempts : r.attempts < r.maxAttempts

/-- A request in flight. -/
structure Aloft (r : Request) : Prop where
  phase : r.phase = .sent ∨ r.phase = .awaitingAck
  attempts : r.attempts ≤ r.maxAttempts

theorem Restive.canBecome {r : Request} (h : r.Restive) :
    r.phase.canBecome .cancelled = true ∧ r.phase.canBecome (.failed .agentGone) = true := by
  rcases h.phase with hp | hp
  · rw [hp]
    decide
  · rw [hp]
    decide

theorem Aloft.canBecome {r : Request} (h : r.Aloft) :
    r.phase.canBecome .cancelled = true ∧ r.phase.canBecome (.failed .agentGone) = true ∧
      r.phase.canBecome (.failed .transport) = true ∧ r.phase.canBecome .acked = true := by
  rcases h.phase with hp | hp
  · rw [hp]
    decide
  · rw [hp]
    decide

/-- A request whose attempts are used up has made all of them. -/
theorem Aloft.exhausted {r : Request} (h : r.Aloft) (ha : ¬ r.attemptsRemain = true) :
    r.attempts = r.maxAttempts := by
  have hle := h.attempts
  have hlt : ¬ r.attempts < r.maxAttempts := fun hlt => ha (decide_eq_true hlt)
  omega

end Request

/-- The record of an ended request belongs to the request: its phase goes with its outcome, its
attempts are counted, and it failed for lack of an answer or of a link only after all of them. -/
structure Finished.Closes (f : Finished) (r : Request) : Prop where
  ident : f.ident = r.ident
  trafficClass : f.trafficClass = r.trafficClass
  fits : f.Fits
  attempts : f.outcome.attempts = r.attempts
  exhausted : f.outcome.cause? = some .timeout ∨ f.outcome.cause? = some .transport →
    r.attempts = r.maxAttempts

theorem Finished.Closes.entry {f : Finished} {r : Request} (h : f.Closes r) : f.Closes r.entry :=
  ⟨h.ident, h.trafficClass, h.fits, h.attempts, h.exhausted⟩

theorem Request.closes_endCancelled (r : Request) : r.endCancelled.Closes r where
  ident := rfl
  trafficClass := rfl
  fits := rfl
  attempts := rfl
  exhausted h := by
    rcases h with h | h
    · cases h
    · cases h

theorem Request.closes_endGone (r : Request) : r.endGone.Closes r where
  ident := rfl
  trafficClass := rfl
  fits := rfl
  attempts := rfl
  exhausted h := by
    rcases h with h | h
    · cases h
    · cases h

/-- The answer to a request ends it. -/
theorem Request.closes_ended_verdict (r : Request) (roundTrip : Option Span) (verdict : Verdict) :
    (r.ended (Backlog.verdictPhase verdict)
      (Backlog.verdictOutcome r.attempts roundTrip verdict)).Closes r := by
  cases verdict with
  | accepted => exact ⟨rfl, rfl, rfl, rfl, nofun⟩
  | rejected reason =>
    refine ⟨rfl, rfl, rfl, rfl, fun h => ?_⟩
    rcases h with h | h
    · cases h
    · cases h

/-- Requests with the records that a function makes of them. -/
theorem Finished.closes_map {f : Request → Finished} {l : List Request}
    (h : ∀ r ∈ l, (f r).Closes r) : List.Forall₂ Finished.Closes (l.map f) l := by
  rw [List.forall₂_map_left_iff, List.forall₂_same]
  exact h

theorem tickets_of_closes {ended : List Finished} {gone : List Request}
    (h : List.Forall₂ Finished.Closes ended gone) :
    ended.map (·.ticket) = gone.map (·.ticket) := by
  induction h with
  | nil => rfl
  | cons hc _ ih =>
    have ht := congrArg Ident.ticket hc.ident
    rw [List.map_cons, List.map_cons, ih]
    exact congrArg (· :: _) ht

theorem exists_of_closes {ended : List Finished} {gone : List Request}
    (h : List.Forall₂ Finished.Closes ended gone) {f : Finished} (hf : f ∈ ended) :
    ∃ r ∈ gone, f.Closes r := by
  induction h with
  | nil => cases hf
  | @cons g r ended gone hc _ ih =>
    rcases List.mem_cons.1 hf with rfl | hm
    · exact ⟨r, List.mem_cons_self, hc⟩
    · obtain ⟨q, hq, hfq⟩ := ih hm
      exact ⟨q, List.mem_cons_of_mem r hq, hfq⟩

namespace Backlog

/-- Every pending request can still end, whatever was done to it. -/
structure Viable (b : Backlog) : Prop where
  waiting : ∀ r ∈ b.waiting, r.Restive
  inFlight : ∀ r, b.inFlight = some r → r.Aloft

theorem Viable.canBecome {b : Backlog} (h : b.Viable) {r : Request} (hr : r ∈ b.requests) :
    r.phase.canBecome .cancelled = true ∧ r.phase.canBecome (.failed .agentGone) = true := by
  rcases mem_requests.1 hr with hf | hw
  · have hc := (h.inFlight r hf).canBecome
    exact ⟨hc.1, hc.2.1⟩
  · exact (h.waiting r hw).canBecome

theorem viable_of_idle {b : Backlog} (hf : b.inFlight = none) (hw : ∀ r ∈ b.waiting, r.Restive) :
    b.Viable where
  waiting := hw
  inFlight r hr := by
    rw [hf] at hr
    cases hr

theorem viable_new (agent : AgentId) (depth : Nat) : (new agent depth).Viable :=
  viable_of_idle rfl (List.forall_mem_nil _)

/-- What a call makes of a backlog if it takes no request in and hands none out. -/
inductive Passage : Backlog → List Finished → Backlog → Prop
  /-- nothing that matters changes -/
  | touch {b b' : Backlog} (hd : b'.depth = b.depth)
      (hf : b'.inFlight.map Request.entry = b.inFlight.map Request.entry)
      (hw : b'.waiting.map Request.entry = b.waiting.map Request.entry) : Passage b [] b'
  /-- some of the requests end -/
  | leave {b b' : Backlog} {gone : List Request} {ended : List Finished}
      (hd : b'.depth = b.depth) (hf : ∀ r, b'.inFlight = some r → b.inFlight = some r)
      (hw : b'.waiting.Sublist b.waiting) (hp : b.requests.Perm (gone ++ b'.requests))
      (hc : List.Forall₂ Finished.Closes ended gone) : Passage b ended b'
  /-- the request in flight is put back -/
  | retry {b b' : Backlog} {r q : Request} (hd : b'.depth = b.depth) (hf : b.inFlight = some r)
      (hq : q.entry = r.entry) (hf' : b'.inFlight = none)
      (hw : b'.waiting = requeue q b.waiting) : Passage b [] b'
  | trans {b b₁ b' : Backlog} {ended ended' : List Finished} (h : Passage b ended b₁)
      (h' : Passage b₁ ended' b') : Passage b (ended ++ ended') b'

variable {b b' : Backlog} {ended : List Finished}

theorem Passage.refl (b : Backlog) : Passage b [] b := .touch rfl rfl rfl

/-- The request in flight ends. -/
theorem Passage.land {r : Request} {f : Finished} (hd : b'.depth = b.depth)
    (hf : b.inFlight = some r) (hf' : b'.inFlight = none) (hw : b'.waiting = b.waiting)
    (hc : f.Closes r) : Passage b [f] b' := by
  have hgone : List.Forall₂ Finished.Closes [f] [r] := .cons hc .nil
  refine .leave hd ?_ ?_ ?_ hgone
  · intro q hq
    rw [hf'] at hq
    cases hq
  · rw [hw]
  · refine .of_eq ?_
    unfold requests
    rw [hf, hf', hw]
    rfl

theorem Passage.depth (h : Passage b ended b') : b'.depth = b.depth := by
  induction h with
  | touch hd => exact hd
  | leave hd => exact hd
  | retry hd => exact hd
  | trans _ _ ih ih' => exact ih'.trans ih

theorem entries_of_touch (hf : b'.inFlight.map Request.entry = b.inFlight.map Request.entry)
    (hw : b'.waiting.map Request.entry = b.waiting.map Request.entry) :
    b'.requests.map Request.entry = b.requests.map Request.entry := by
  unfold requests
  rw [List.map_append, List.map_append, hw, ← Option.toList_map, ← Option.toList_map, hf]

theorem entries_of_retry {r q : Request} (hf : b.inFlight = some r) (hq : q.entry = r.entry)
    (hf' : b'.inFlight = none) (hw : b'.waiting = requeue q b.waiting) :
    (b.requests.map Request.entry).Perm (b'.requests.map Request.entry) := by
  have hp := (requeue_perm q b.waiting).map Request.entry
  rw [List.map_cons, hq] at hp
  unfold requests
  rw [hf, hf', hw]
  exact hp.symm

/-- The requests that were pending are those that ended lawfully and those that still are. -/
theorem Passage.account (h : Passage b ended b') :
    ∃ gone, List.Forall₂ Finished.Closes ended gone ∧
      (b.requests.map Request.entry).Perm (gone ++ b'.requests.map Request.entry) := by
  induction h with
  | touch _ hf hw => exact ⟨[], .nil, .of_eq (entries_of_touch hf hw).symm⟩
  | @leave b b' gone ended hd hf hw hp hc =>
    refine ⟨gone.map Request.entry, ?_, ?_⟩
    · rw [List.forall₂_map_right_iff]
      exact hc.imp fun _ _ h => h.entry
    · rw [← List.map_append]
      exact hp.map Request.entry
  | retry _ hf hq hf' hw => exact ⟨[], .nil, entries_of_retry hf hq hf' hw⟩
  | trans _ _ ih ih' =>
    obtain ⟨gone, hc, hp⟩ := ih
    obtain ⟨gone', hc', hp'⟩ := ih'
    refine ⟨gone ++ gone', List.rel_append hc hc', ?_⟩
    rw [List.append_assoc]
    exact hp.trans (hp'.append_left gone)

/-- A request stays pending or ends. -/
theorem Passage.pendingLen_le (h : Passage b ended b') : b'.pendingLen ≤ b.pendingLen := by
  obtain ⟨gone, -, hp⟩ := h.account
  have hl := hp.length_eq
  rw [List.length_append, List.length_map, List.length_map, length_requests,
    length_requests] at hl
  omega

/-! ### Putting back and ending a request -/

theorem restive_requeue {r : Request} {waiting : List Request} (hr : r.Restive)
    (hw : ∀ q ∈ waiting, q.Restive) : ∀ q ∈ requeue r waiting, q.Restive := by
  intro q hq
  rcases List.mem_cons.1 ((requeue_perm r waiting).mem_iff.1 hq) with rfl | hm
  · exact hr
  · exact hw q hm

theorem entries_markCancelled (id : RequestId) (l : List Request) :
    (markCancelled id l).map Request.entry = l.map Request.entry := by
  induction l with
  | nil => rfl
  | cons q rest ih =>
    unfold markCancelled
    split
    · rfl
    · rw [List.map_cons, ih, List.map_cons]

theorem restive_markCancelled (id : RequestId) {l : List Request} (h : ∀ r ∈ l, r.Restive) :
    ∀ r ∈ markCancelled id l, r.Restive := by
  induction l with
  | nil => exact h
  | cons q rest ih =>
    obtain ⟨hq, hrest⟩ := List.forall_mem_cons.1 h
    unfold markCancelled
    split
    · exact List.forall_mem_cons.2 ⟨⟨hq.phase, hq.attempts⟩, hrest⟩
    · exact List.forall_mem_cons.2 ⟨hq, ih hrest⟩

/-- Where a lifecycle step to the queue leads from. -/
theorem phase_advance_queued {r : Request} (h : r.phase = .sent ∨ r.phase = .awaitingAck ∨
    r.phase = .timedOut) :
    (r.advance .queued).1.phase = .queued ∨ (r.advance .queued).1.phase = .awaitingAck := by
  unfold Request.advance
  rcases h with hp | hp | hp
  · rw [hp]
    exact .inl rfl
  · rw [hp]
    exact .inr hp
  · rw [hp]
    exact .inl rfl

/-- Where a lifecycle step to the link leads from. -/
theorem phase_advance_sent {r : Request} (h : r.phase = .queued ∨ r.phase = .awaitingAck) :
    (r.advance .sent).1.phase = .sent ∨ (r.advance .sent).1.phase = .awaitingAck := by
  unfold Request.advance
  rcases h with hp | hp
  · rw [hp]
    exact .inl rfl
  · rw [hp]
    exact .inr hp

theorem viable_retry (h : b.Viable) (hf : b.inFlight = none) {r : Request}
    (hp : r.phase = .sent ∨ r.phase = .awaitingAck ∨ r.phase = .timedOut)
    (ha : r.attemptsRemain = true) : (b.retry r).Viable := by
  obtain ⟨hn, hm⟩ := Request.attempts_of_entry (r.entry_advance .queued)
  have hlt : (r.advance .queued).1.attempts < (r.advance .queued).1.maxAttempts := by
    rw [hn, hm]
    exact of_decide_eq_true ha
  exact viable_of_idle hf (restive_requeue ⟨phase_advance_queued hp, hlt⟩ h.waiting)

/-! ### The calls -/

theorem passage_transmitted (h : b.Viable) (now : Instant) (timeout : Span) :
    Passage b (Response.transmitted (b.transmitted now timeout).1).finished
        (b.transmitted now timeout).2 ∧ (b.transmitted now timeout).2.Viable := by
  unfold transmitted
  cases hf : b.inFlight with
  | none => exact ⟨.refl b, h⟩
  | some r =>
    have hr := h.inFlight r hf
    dsimp only
    split
    · exact ⟨.refl b, h⟩
    · rename_i hp
      have hp : r.phase = .sent := not_not.1 hp
      split
      · have hack : ({ r with sentAt := some now } : Request).phase.canBecome .awaitingAck =
            true := by
          show r.phase.canBecome .awaitingAck = true
          rw [hp]
          rfl
        rw [Request.advance_of_canBecome hack]
        cases now.after timeout with
        | error fault =>
          refine ⟨.touch rfl (by rw [hf]; rfl) rfl, h.waiting, fun q hq => ?_⟩
          cases hq
          exact ⟨.inr rfl, hr.attempts⟩
        | ok deadline =>
          refine ⟨.touch rfl (by rw [hf]; rfl) rfl, h.waiting, fun q hq => ?_⟩
          cases hq
          exact ⟨.inr rfl, hr.attempts⟩
      · have hacked : ({ r with sentAt := some now } : Request).phase.canBecome .acked = true :=
          hr.canBecome.2.2.2
        rw [close_of_canBecome _ hacked]
        exact ⟨.land rfl hf rfl rfl ⟨rfl, rfl, rfl, rfl, nofun⟩, viable_of_idle rfl h.waiting⟩

theorem passage_refused (h : b.Viable) (detail : String) :
    Passage b (Response.refused (b.refused detail).1).finished (b.refused detail).2 ∧
      (b.refused detail).2.Viable := by
  unfold refused
  cases hf : b.inFlight with
  | none => exact ⟨.refl b, h⟩
  | some r =>
    have hr := h.inFlight r hf
    have hb : Viable { b with inFlight := none } := viable_of_idle rfl h.waiting
    dsimp only
    split
    · rename_i ha
      refine ⟨.retry rfl hf (r.entry_advance .queued) rfl rfl, viable_retry hb rfl ?_ ha⟩
      exact hr.phase.imp_right .inl
    · rename_i ha
      rw [close_of_canBecome _ hr.canBecome.2.2.1]
      exact ⟨.land rfl hf rfl rfl ⟨rfl, rfl, rfl, rfl, fun _ => hr.exhausted ha⟩, hb⟩

/-- The withdrawn requests end. -/
theorem passage_kept (h : b.Viable) :
    Passage b (b.withdrawn.map Request.endCancelled) b.kept ∧ b.kept.Viable := by
  have hf : ∀ r, b.kept.inFlight = some r → b.inFlight = some r :=
    fun r hr => (Option.filter_eq_some_iff.1 hr).1
  have hw : b.kept.waiting.Sublist b.waiting := List.filter_sublist
  have hp : b.requests.Perm (b.withdrawn ++ b.kept.requests) := by
    rw [requests_kept]
    exact (List.filter_append_perm _ _).symm
  refine ⟨.leave rfl hf hw hp (Finished.closes_map fun r _ => r.closes_endCancelled), ?_⟩
  exact ⟨fun r hr => h.waiting r (hw.subset hr), fun r hr => h.inFlight r (hf r hr)⟩

theorem passage_expire (h : b.Viable) {r : Request} (hf : b.inFlight = some r)
    (hp : r.phase = .awaitingAck) :
    Passage b (b.expire r).1.toList (b.expire r).2 ∧ (b.expire r).2.Viable := by
  have hr := h.inFlight r hf
  rw [expire_of_canBecome (Request.canBecome_of_awaitingAck hp .accepted).2.2.1]
  split
  · rename_i ha
    have hq : r.queuedAgain.entry = r.entry := rfl
    have hw : r.queuedAgain.Restive := ⟨.inl rfl, of_decide_eq_true ha⟩
    exact ⟨.retry rfl hf hq rfl rfl, viable_of_idle rfl (restive_requeue hw h.waiting)⟩
  · rename_i ha
    refine ⟨.land rfl hf rfl rfl ⟨rfl, rfl, rfl, rfl, ?_⟩, viable_of_idle rfl h.waiting⟩
    exact fun _ => hr.exhausted ha

theorem passage_review (h : b.Viable) (now : Instant) :
    Passage b (Response.reviewed (b.review now).1).finished (b.review now).2 ∧
      (b.review now).2.Viable := by
  obtain ⟨hkept, hviable⟩ := passage_kept h
  unfold review
  rw [dropCancelled_of_canBecome fun r hr => (h.canBecome hr).1]
  dsimp only
  cases hf : b.kept.inFlight.filter (·.overdue now) with
  | none => exact ⟨hkept, hviable⟩
  | some r =>
    obtain ⟨hr, ho⟩ := Option.filter_eq_some_iff.1 hf
    obtain ⟨hexpire, hv⟩ := passage_expire hviable hr (Request.phase_of_overdue ho)
    exact ⟨hkept.trans hexpire, hv⟩

theorem passage_answer (h : b.Viable) (key : ReplyKey) (verdict : Verdict) (now : Instant) :
    Passage b (Response.answered (b.answer key verdict now).1).finished
        (b.answer key verdict now).2 ∧ (b.answer key verdict now).2.Viable := by
  cases hf : b.inFlight.filter (·.awaits key) with
  | none =>
    unfold answer
    rw [hf]
    exact ⟨.refl b, h⟩
  | some r =>
    obtain ⟨hr, ha⟩ := Option.filter_eq_some_iff.1 hf
    rw [answer_eq hr ha]
    split
    · exact ⟨.land rfl hr rfl rfl r.closes_endCancelled, viable_of_idle rfl h.waiting⟩
    · exact ⟨.land rfl hr rfl rfl (r.closes_ended_verdict _ verdict), viable_of_idle rfl h.waiting⟩

theorem passage_withdraw (h : b.Viable) (id : RequestId) :
    Passage b (Response.withdrawn (b.withdraw id).1).finished (b.withdraw id).2 ∧
      (b.withdraw id).2.Viable := by
  unfold withdraw
  cases hf : b.inFlight.filter fun r => r.id = id with
  | none =>
    exact ⟨.touch rfl rfl (entries_markCancelled id b.waiting),
      restive_markCancelled id h.waiting, h.inFlight⟩
  | some r =>
    have hr := (Option.filter_eq_some_iff.1 hf).1
    refine ⟨.touch rfl (by rw [hr]; rfl) rfl, h.waiting, ?_⟩
    intro q hq
    cases hq
    exact ⟨(h.inFlight r hr).phase, (h.inFlight r hr).attempts⟩

theorem passage_dissolve (h : b.Viable) :
    Passage b (Response.dissolved b.dissolve.1).finished b.dissolve.2 ∧ b.dissolve.2.Viable := by
  rw [dissolve_of_canBecome fun r hr => (h.canBecome hr).2]
  have hf : ∀ r, ({ b with inFlight := none, waiting := [] } : Backlog).inFlight = some r →
      b.inFlight = some r := fun r hr => by cases hr
  refine ⟨.leave rfl hf (List.nil_sublist _) (.of_eq (List.append_nil _).symm) ?_,
    viable_of_idle rfl (List.forall_mem_nil _)⟩
  exact Finished.closes_map fun r _ => r.closes_endGone

end Backlog

/-! ### What a call comes to at a desk -/

namespace Desk

open Backlog (Call Response Passage)

/-- What a call comes to: the answer to it, and the desk afterwards. -/
inductive Result (d : Desk) : Response → Desk → Prop
  /-- a request is taken in -/
  | entered {r : Request} (hroom : d.backlog.pendingLen < d.backlog.depth) (hr : r.origin = r)
      (ht : r.ticket = d.tickets) :
      Result d (.submitted (some r))
        { d with
          backlog := { d.backlog with waiting := Backlog.enqueue r d.backlog.waiting }
          tickets := d.tickets + 1 }
  /-- the first of the waiting requests is handed out -/
  | launched {r q : Request} {rest : List Request} {launch : Launch} {backlog : Backlog}
      (hf : d.backlog.inFlight = none) (hw : d.backlog.waiting = r :: rest)
      (hq : q.entry = { r.entry with attempts := r.attempts + 1 })
      (hid : launch.request = r.id) (hattempt : launch.attempt = r.attempts + 1)
      (hd : backlog.depth = d.backlog.depth) (hf' : backlog.inFlight = some q)
      (hw' : backlog.waiting = rest) : Result d (.launched (some launch)) { d with backlog }
  /-- no request is taken in or handed out, but some may end -/
  | passed {response : Response} {backlog : Backlog}
      (he : response.entered? = none) (hl : response.launched? = none)
      (h : d.backlog.Passage response.finished backlog) :
      Result d response (response.finished.foldl tell { d with backlog })

@[simp] theorem backlog_tell (d : Desk) (f : Finished) : (d.tell f).backlog = d.backlog := by
  unfold tell
  split <;> rfl

@[simp] theorem tickets_tell (d : Desk) (f : Finished) : (d.tell f).tickets = d.tickets := by
  unfold tell
  split <;> rfl

theorem foldl_tell (d : Desk) (l : List Finished) :
    (l.foldl tell d).backlog = d.backlog ∧ (l.foldl tell d).tickets = d.tickets := by
  induction l generalizing d with
  | nil => exact ⟨rfl, rfl⟩
  | cons f rest ih =>
    have h := ih (d.tell f)
    rwa [backlog_tell, tickets_tell] at h

theorem result_submit {d : Desk} (h : d.backlog.Viable) (id : RequestId) (network : NetworkId)
    (agent : AgentId) (payload : Payload) (urgency : Urgency) (maxAttempts : Nat) :
    let step := d.step (.submit id network agent payload urgency maxAttempts)
    d.Result step.response step.after ∧ step.after.backlog.Viable := by
  dsimp only [step, perform, call]
  cases hb : d.backlog.submit
      (Request.new id network agent payload urgency maxAttempts d.tickets) with
  | none => exact ⟨.passed rfl rfl (.refl _), h⟩
  | some backlog =>
    obtain ⟨hroom, rfl⟩ := Backlog.submit_eq_some_iff.1 hb
    have hnew := Request.new_waiting id network agent payload urgency maxAttempts d.tickets
    refine ⟨.entered hroom rfl rfl, ?_, h.inFlight⟩
    intro q hq
    rcases List.mem_cons.1 ((Backlog.enqueue_perm _ _).mem_iff.1 hq) with rfl | hm
    · exact ⟨.inl hnew.phase, hnew.attempts⟩
    · exact h.waiting q hm

theorem result_launch {d : Desk} (h : d.backlog.Viable) :
    d.Result (d.step .launch).response (d.step .launch).after ∧
      (d.step .launch).after.backlog.Viable := by
  dsimp only [step, perform, call]
  cases hb : d.backlog.launch with
  | none => exact ⟨.passed rfl rfl (.refl _), h⟩
  | some x =>
    obtain ⟨r, rest, hf, hw⟩ := Backlog.exists_of_launch hb
    rw [Backlog.launch_eq hf hw] at hb
    obtain rfl := Option.some.inj hb
    obtain ⟨hr, hrest⟩ := List.forall_mem_cons.1 (hw ▸ h.waiting)
    have hentry := r.entry_advance .sent
    obtain ⟨hn, hm⟩ := Request.attempts_of_entry hentry
    have hid : (r.advance .sent).1.id = r.id :=
      Request.congr_entry (f := Request.id) (fun _ => rfl) hentry
    refine ⟨.launched hf hw ?_ hid (by rw [hn]) rfl rfl rfl, hrest, ?_⟩
    · show ({ (r.advance .sent).1.entry with attempts := (r.advance .sent).1.attempts + 1 } :
        Request) = _
      rw [hentry, hn]
    · intro q hq
      obtain rfl := Option.some.inj hq
      refine ⟨Backlog.phase_advance_sent hr.phase, ?_⟩
      show (r.advance .sent).1.attempts + 1 ≤ (r.advance .sent).1.maxAttempts
      rw [hn, hm]
      exact hr.attempts

theorem result_of_passage {d : Desk} {response : Response} {backlog : Backlog}
    (he : response.entered? = none) (hl : response.launched? = none)
    (h : d.backlog.Passage response.finished backlog ∧ backlog.Viable) :
    d.Result response (response.finished.foldl tell { d with backlog }) ∧
      (response.finished.foldl tell { d with backlog }).backlog.Viable := by
  refine ⟨.passed he hl h.1, ?_⟩
  rw [(foldl_tell _ _).1]
  exact h.2

/-- Every call comes to one of the results and leaves a backlog in which every request can end. -/
theorem result_step {d : Desk} (h : d.backlog.Viable) (c : Call) :
    d.Result (d.step c).response (d.step c).after ∧ (d.step c).after.backlog.Viable := by
  cases c with
  | submit id network agent payload urgency maxAttempts =>
    exact result_submit h id network agent payload urgency maxAttempts
  | launch => exact result_launch h
  | transmitted now timeout =>
    exact result_of_passage rfl rfl (Backlog.passage_transmitted h now timeout)
  | refused detail => exact result_of_passage rfl rfl (Backlog.passage_refused h detail)
  | review now => exact result_of_passage rfl rfl (Backlog.passage_review h now)
  | answer key verdict now =>
    exact result_of_passage rfl rfl (Backlog.passage_answer h key verdict now)
  | withdraw id => exact result_of_passage rfl rfl (Backlog.passage_withdraw h id)
  | dissolve => exact result_of_passage rfl rfl (Backlog.passage_dissolve h)

end Desk

end GroundControl
