import GroundControl.Backlog

/-!
# Conservation of requests in a backlog

A backlog neither loses nor doubles a request: whatever is done to it, in whatever order, the
requests that were pending before are those that are pending afterwards and those that ended.

* `Ident`, what a request is told by, and the identities of requests, ends and handles;
* `Backlog.idents`, the identities of the pending requests;
* `idents_submit`, `idents_review`, `idents_answer`, `idents_withdraw`, `idents_dissolve`: one
  balance for each operation.

Nothing is assumed about the phases of the requests.
-/

namespace GroundControl

/-- In a list whose members are told apart by `g`, only `a` has the value of `a`. -/
theorem filter_eq_singleton {α β : Type} [DecidableEq β] {g : α → β} {l : List α}
    (h : (l.map g).Nodup) {a : α} (ha : a ∈ l) : l.filter (fun b => g b = g a) = [a] := by
  induction l with
  | nil => cases ha
  | cons b rest ih =>
    obtain ⟨hb, hrest⟩ := List.nodup_cons.1 h
    rcases List.mem_cons.1 ha with rfl | hm
    · have hn : rest.filter (fun c => g c = g a) = [] := by
        refine List.filter_eq_nil_iff.2 fun c hc hg => hb ?_
        exact of_decide_eq_true hg ▸ List.mem_map_of_mem hc
      rw [List.filter_cons_of_pos (by simp), hn]
    · have hne : g b ≠ g a := fun hg => hb (hg ▸ List.mem_map_of_mem hm)
      rw [List.filter_cons_of_neg (by simpa using hne), ih hrest hm]

theorem filterMap_concat {α β : Type} (f : α → Option β) (l : List α) (a : α) :
    (l ++ [a]).filterMap f = l.filterMap f ++ (f a).toList := by
  rw [List.filterMap_append, List.filterMap_cons]
  cases f a <;> rfl

/-- What a request is told by: its number, its agent and the ticket of its submitter. -/
structure Ident where
  request : RequestId
  agent : AgentId
  ticket : Ticket
  deriving DecidableEq, Repr

/-- The identity of a request. -/
def Request.ident (r : Request) : Ident := ⟨r.id, r.agent, r.ticket⟩

/-- The identity of a request that has ended. -/
def Finished.ident (f : Finished) : Ident := ⟨f.request, f.agent, f.ticket⟩

/-- The identity of the request a handle waits for. -/
def Handle.ident (h : Handle) : Ident := ⟨h.request, h.agent, h.ticket⟩

namespace Request

@[simp] theorem ident_advance (r : Request) (target : Phase) :
    (r.advance target).1.ident = r.ident := by
  unfold advance
  split <;> rfl

@[simp] theorem ident_finish (r : Request) (target : Phase) (outcome : Outcome) :
    (r.finish target outcome).1.ident = r.ident :=
  ident_advance r target

end Request

namespace Backlog

/-- The identities of the pending requests, the one in flight first. -/
def idents (b : Backlog) : List Ident := b.requests.map Request.ident

theorem idents_of_idle {b : Backlog} (h : b.inFlight = none) :
    b.idents = b.waiting.map Request.ident := by
  unfold idents requests
  rw [h]
  rfl

theorem idents_of_inFlight {b : Backlog} {r : Request} (h : b.inFlight = some r) :
    b.idents = r.ident :: b.waiting.map Request.ident := by
  unfold idents requests
  rw [h]
  rfl

/-! ### The places of the waiting requests -/

theorem insertBeforeNormal_perm (r : Request) (l : List Request) :
    (insertBeforeNormal r l).Perm (r :: l) := by
  induction l with
  | nil => exact .refl _
  | cons q rest ih =>
    unfold insertBeforeNormal
    split
    · exact .refl _
    · exact (ih.cons q).trans (.swap r q rest)

theorem enqueue_perm (r : Request) (l : List Request) : (enqueue r l).Perm (r :: l) := by
  unfold enqueue
  cases r.urgency with
  | urgent => exact insertBeforeNormal_perm r l
  | normal => exact List.perm_append_comm

theorem requeue_perm (r : Request) (l : List Request) : (requeue r l).Perm (r :: l) := by
  unfold requeue
  cases r.urgency with
  | urgent => exact .refl _
  | normal => exact insertBeforeNormal_perm r l

/-! ### The last step of a request -/

@[simp] theorem requests_close (b : Backlog) (r : Request) (target : Phase) (outcome : Outcome) :
    (b.close r target outcome).2.requests = b.requests := rfl

@[simp] theorem ident_close (b : Backlog) (r : Request) (target : Phase) (outcome : Outcome) :
    (b.close r target outcome).1.ident = r.ident :=
  Request.ident_finish r target outcome

/-- Ending the requests of a list one after the other leaves what is pending as it is. -/
theorem requests_closeAll {f : Backlog → Request → Finished × Backlog}
    (h : ∀ b r, (f b r).2.requests = b.requests) (b : Backlog) (l : List Request) :
    (closeAll f b l).2.requests = b.requests := by
  induction l generalizing b with
  | nil => rfl
  | cons r rest ih => exact (ih _).trans (h b r)

/-- Ending the requests of a list one after the other ends each of them. -/
theorem idents_closeAll {f : Backlog → Request → Finished × Backlog}
    (h : ∀ b r, (f b r).1.ident = r.ident) (b : Backlog) (l : List Request) :
    (closeAll f b l).1.map Finished.ident = l.map Request.ident := by
  induction l generalizing b with
  | nil => rfl
  | cons r rest ih =>
    rw [List.map_cons, ← h b r, ← ih (f b r).2]
    rfl

/-! ### The balance of each operation -/

/-- A request is taken in if there is room for it. -/
theorem submit_eq_some_iff {b b' : Backlog} {r : Request} :
    b.submit r = some b' ↔
      b.pendingLen < b.depth ∧ b' = { b with waiting := enqueue r b.waiting } := by
  unfold submit
  split
  · rename_i hfull
    exact ⟨nofun, fun h => absurd h.1 (Nat.not_lt.2 hfull)⟩
  · rename_i hroom
    rw [Option.some.injEq, eq_comm]
    exact (and_iff_right (Nat.lt_of_not_le hroom)).symm

theorem requests_enqueue_perm (b : Backlog) (r : Request) :
    ({ b with waiting := enqueue r b.waiting } : Backlog).requests.Perm (r :: b.requests) :=
  ((enqueue_perm r b.waiting).append_left _).trans List.perm_middle

theorem requests_submit_perm {b b' : Backlog} {r : Request} (h : b.submit r = some b') :
    b'.requests.Perm (r :: b.requests) := by
  obtain ⟨-, rfl⟩ := submit_eq_some_iff.1 h
  exact requests_enqueue_perm b r

theorem idents_submit {b b' : Backlog} {r : Request} (h : b.submit r = some b') :
    b'.idents.Perm (r.ident :: b.idents) :=
  (requests_submit_perm h).map Request.ident

theorem launch_eq {b : Backlog} {r : Request} {rest : List Request} (hf : b.inFlight = none)
    (hw : b.waiting = r :: rest) :
    b.launch = some
      (⟨(r.advance .sent).1.id, (r.advance .sent).1.trafficClass, (r.advance .sent).1.payload.body,
        (r.advance .sent).1.payload.key, (r.advance .sent).1.attempts + 1⟩,
      { b with
        waiting := rest
        inFlight := some { (r.advance .sent).1 with attempts := (r.advance .sent).1.attempts + 1 }
      }.note (r.advance .sent).2) := by
  unfold Backlog.launch
  rw [hf, hw]
  rfl

/-- Only the first of the waiting requests is handed out, and only if none is in flight. -/
theorem exists_of_launch {b : Backlog} {x : Launch × Backlog} (h : b.launch = some x) :
    ∃ r rest, b.inFlight = none ∧ b.waiting = r :: rest := by
  unfold Backlog.launch at h
  split at h
  · cases h
  · cases h
  · rename_i r rest hf hw
    exact ⟨r, rest, hf, hw⟩

theorem idents_retry (b : Backlog) (r : Request) (h : b.inFlight = none) :
    (b.retry r).idents.Perm (r.ident :: b.idents) := by
  have hw := (requeue_perm (r.advance .queued).1 b.waiting).map Request.ident
  rw [List.map_cons, Request.ident_advance] at hw
  simpa [idents, requests, retry, note, h] using hw

theorem idents_dropCancelled (b : Backlog) :
    b.idents.Perm (b.dropCancelled.1.map Finished.ident ++ b.dropCancelled.2.idents) := by
  unfold dropCancelled
  dsimp only
  rw [idents_closeAll (f := closeCancelled) fun b r => ident_close b r _ _]
  unfold idents
  rw [requests_closeAll (f := closeCancelled) fun b r => requests_close b r _ _,
    ← List.map_append]
  refine List.Perm.map _ ?_
  have hf : b.inFlight.toList.filter (·.cancelRequested) ++
      (b.inFlight.filter fun r => !r.cancelRequested).toList = b.inFlight.toList := by
    cases b.inFlight with
    | none => rfl
    | some r => cases hr : r.cancelRequested <;> simp [Option.filter, hr]
  have hw := List.filter_append_perm (fun r : Request => r.cancelRequested) b.waiting
  unfold requests
  dsimp only
  -- both sorts are split into withdrawn and kept requests, and the parts regrouped
  calc b.inFlight.toList ++ b.waiting
      = b.inFlight.toList.filter (·.cancelRequested) ++
          (b.inFlight.filter fun r => !r.cancelRequested).toList ++ b.waiting := by rw [hf]
    _ |>.Perm (b.inFlight.toList.filter (·.cancelRequested) ++
          (b.inFlight.filter fun r => !r.cancelRequested).toList ++
            (b.waiting.filter (·.cancelRequested) ++
              b.waiting.filter fun r => !r.cancelRequested)) := hw.symm.append_left _
    _ |>.Perm _ := by
      simp only [List.append_assoc]
      refine List.Perm.append_left _ ?_
      simp only [← List.append_assoc]
      exact List.perm_append_comm.append_right _

theorem idents_expire (b : Backlog) (r : Request) :
    (r.ident :: ({ b with inFlight := none } : Backlog).idents).Perm
      ((b.expire r).1.toList.map Finished.ident ++ (b.expire r).2.idents) := by
  have hr : ({ (r.advance .timedOut).1 with deadline := none } : Request).ident = r.ident :=
    Request.ident_advance r .timedOut
  unfold expire
  dsimp only
  split
  · rw [← hr]
    exact (idents_retry _ _ rfl).symm
  · rw [← hr]
    exact List.Perm.of_eq (congrArg (· :: _) (ident_close _ _ _ _).symm)

theorem idents_review (b : Backlog) (now : Instant) :
    b.idents.Perm ((b.review now).1.map Finished.ident ++ (b.review now).2.idents) := by
  have hd := idents_dropCancelled b
  unfold review
  dsimp only
  cases hf : b.dropCancelled.2.inFlight.filter (·.overdue now) with
  | none => exact hd
  | some r =>
    have hr : b.dropCancelled.2.inFlight = some r := (Option.filter_eq_some_iff.1 hf).1
    have hi : b.dropCancelled.2.idents =
        r.ident :: ({ b.dropCancelled.2 with inFlight := none } : Backlog).idents :=
      idents_of_inFlight hr
    dsimp only
    rw [List.map_append, List.append_assoc]
    exact hd.trans ((hi ▸ idents_expire b.dropCancelled.2 r).append_left _)

theorem idents_answer {b b' : Backlog} {key : ReplyKey} {verdict : Verdict} {now : Instant}
    {found : Match} (h : b.answer key verdict now = (some found, b')) :
    b.idents = found.finished.ident :: b'.idents := by
  unfold answer at h
  cases hf : b.inFlight.filter (·.awaits key) with
  | none =>
    rw [hf] at h
    simp at h
  | some r =>
    have hr : b.inFlight = some r := (Option.filter_eq_some_iff.1 hf).1
    rw [hf] at h
    dsimp only at h
    rw [idents_of_inFlight hr]
    split at h
    · rw [Prod.mk.injEq, Option.some.injEq] at h
      rw [← h.1, ← h.2]
      exact congrArg (· :: _)
        (ident_close { b with inFlight := none, timeouts := 0 } r .cancelled _).symm
    · rw [Prod.mk.injEq, Option.some.injEq] at h
      rw [← h.1, ← h.2]
      exact congrArg (· :: _)
        (ident_close { b with inFlight := none, timeouts := 0 } r (verdictPhase verdict) _).symm

theorem idents_markCancelled (id : RequestId) (l : List Request) :
    (markCancelled id l).map Request.ident = l.map Request.ident := by
  induction l with
  | nil => rfl
  | cons r rest ih =>
    unfold markCancelled
    split
    · rfl
    · rw [List.map_cons, ih, List.map_cons]

theorem idents_withdraw (b : Backlog) (id : RequestId) : (b.withdraw id).2.idents = b.idents := by
  unfold withdraw
  cases hf : b.inFlight.filter fun r => r.id = id with
  | none =>
    dsimp only
    rw [idents, requests, List.map_append, idents_markCancelled, ← List.map_append]
    rfl
  | some r =>
    have hr : b.inFlight = some r := (Option.filter_eq_some_iff.1 hf).1
    rw [idents, idents, requests, requests, hr]
    rfl

theorem idents_dissolve (b : Backlog) :
    b.dissolve.1.map Finished.ident = b.idents ∧ b.dissolve.2.idents = [] := by
  constructor
  · exact idents_closeAll (f := closeGone) (fun b r => ident_close b r _ _) _ _
  · unfold idents dissolve
    rw [requests_closeAll (f := closeGone) fun b r => requests_close b r _ _]
    rfl

end Backlog

end GroundControl
