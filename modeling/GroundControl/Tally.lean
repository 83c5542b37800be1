import GroundControl.Request
import GroundControl.Presence

/-!
# Tallies

The counters of one network, and the reports made from them.

* `total`, the sum of a count over a list;
* `InboundTally`, `BroadcastTally`, counts by kind;
* `Tally`, all counters of a network; `Tally.recordFinished`;
* `ThrottleReport`, `Report`, `Snapshot`: what a caller is told.
-/

namespace GroundControl

/-- The sum of a count over a list. -/
def total {α : Type} (count : α → Nat) (l : List α) : Nat := l.foldr (fun a n => count a + n) 0

@[simp] theorem total_nil {α : Type} (count : α → Nat) : total count [] = 0 := rfl

@[simp] theorem total_cons {α : Type} (count : α → Nat) (a : α) (l : List α) :
    total count (a :: l) = count a + total count l := rfl

@[simp] theorem total_append {α : Type} (count : α → Nat) (l m : List α) :
    total count (l ++ m) = total count l + total count m := by
  induction l with
  | nil => simp
  | cons a l ih => simp only [List.cons_append, total_cons, ih]; omega

theorem total_perm {α : Type} (count : α → Nat) {l m : List α} (h : l.Perm m) :
    total count l = total count m := by
  induction h with
  | nil => rfl
  | cons a _ ih => rw [total_cons, total_cons, ih]
  | swap a b l => simp only [total_cons]; omega
  | trans _ _ ih ih' => exact ih.trans ih'

theorem total_map {α β : Type} (count : β → Nat) (f : α → β) (l : List α) :
    total count (l.map f) = total (fun a => count (f a)) l := by
  induction l with
  | nil => rfl
  | cons a l ih => rw [List.map_cons, total_cons, total_cons, ih]

theorem total_congr {α : Type} {count count' : α → Nat} {l : List α}
    (h : ∀ a ∈ l, count a = count' a) : total count l = total count' l := by
  induction l with
  | nil => rfl
  | cons a l ih =>
    obtain ⟨ha, hl⟩ := List.forall_mem_cons.1 h
    rw [total_cons, total_cons, ha, ih hl]

theorem total_add {α : Type} (count count' : α → Nat) (l : List α) :
    total (fun a => count a + count' a) l = total count l + total count' l := by
  induction l with
  | nil => rfl
  | cons a l ih => simp only [total_cons, ih]; omega

theorem total_eq_zero {α : Type} {count : α → Nat} {l : List α} (h : ∀ a ∈ l, count a = 0) :
    total count l = 0 := by
  induction l with
  | nil => rfl
  | cons a l ih =>
    obtain ⟨ha, hl⟩ := List.forall_mem_cons.1 h
    rw [total_cons, ha, ih hl]

theorem total_filter_le {α : Type} (count : α → Nat) (p : α → Bool) (l : List α) :
    total count (l.filter p) ≤ total count l := by
  induction l with
  | nil => exact Nat.le_refl _
  | cons a l ih =>
    rw [List.filter_cons]
    split
    · simp only [total_cons]; omega
    · simp only [total_cons]; omega

/-- Inbound messages by kind. -/
structure InboundTally where
  heartbeat : Nat := 0
  lowPowerHeartbeat : Nat := 0
  reply : Nat := 0
  telemetry : Nat := 0
  deriving DecidableEq, Repr

namespace InboundTally

/-- The messages of one kind. -/
def of (t : InboundTally) : MessageKind → Nat
  | .heartbeat => t.heartbeat
  | .lowPowerHeartbeat => t.lowPowerHeartbeat
  | .reply => t.reply
  | .telemetry => t.telemetry

/-- Count a message. -/
def record (t : InboundTally) : MessageKind → InboundTally
  | .heartbeat => { t with heartbeat := t.heartbeat + 1 }
  | .lowPowerHeartbeat => { t with lowPowerHeartbeat := t.lowPowerHeartbeat + 1 }
  | .reply => { t with reply := t.reply + 1 }
  | .telemetry => { t with telemetry := t.telemetry + 1 }

/-- All messages. -/
def total (t : InboundTally) : Nat :=
  t.heartbeat + t.lowPowerHeartbeat + t.reply + t.telemetry

@[simp] theorem of_record (t : InboundTally) (j k : MessageKind) :
    (t.record k).of j = if j = k then t.of j + 1 else t.of j := by
  cases j <;> cases k <;> simp [of, record]

@[simp] theorem total_record (t : InboundTally) (k : MessageKind) :
    (t.record k).total = t.total + 1 := by
  cases k <;> simp only [total, record] <;> omega

end InboundTally

/-- Broadcast frames by kind. -/
structure BroadcastTally where
  heartbeat : Nat := 0
  correction : Nat := 0
  command : Nat := 0
  signing : Nat := 0
  other : Nat := 0
  deriving DecidableEq, Repr

namespace BroadcastTally

/-- The frames of one kind. -/
def of (t : BroadcastTally) : BroadcastKind → Nat
  | .heartbeat => t.heartbeat
  | .correction => t.correction
  | .command => t.command
  | .signing => t.signing
  | .other => t.other

/-- Count a frame. -/
def record (t : BroadcastTally) : BroadcastKind → BroadcastTally
  | .heartbeat => { t with heartbeat := t.heartbeat + 1 }
  | .correction => { t with correction := t.correction + 1 }
  | .command => { t with command := t.command + 1 }
  | .signing => { t with signing := t.signing + 1 }
  | .other => { t with other := t.other + 1 }

/-- All frames. -/
def total (t : BroadcastTally) : Nat :=
  t.heartbeat + t.correction + t.command + t.signing + t.other

@[simp] theorem of_record (t : BroadcastTally) (j k : BroadcastKind) :
    (t.record k).of j = if j = k then t.of j + 1 else t.of j := by
  cases j <;> cases k <;> simp [of, record]

@[simp] theorem total_record (t : BroadcastTally) (k : BroadcastKind) :
    (t.record k).total = t.total + 1 := by
  cases k <;> simp only [total, record] <;> omega

end BroadcastTally

/-- The counters of one network. -/
structure Tally where
  inbound : InboundTally := {}
  /-- replies that belong to no request -/
  unmatchedReplies : Nat := 0
  /-- messages of agents that could not register -/
  droppedAgentCap : Nat := 0
  /-- frames for one agent that the link took -/
  unicastSent : Nat := 0
  /-- frames for one agent that the link refused -/
  sendFailures : Nat := 0
  /-- attempts after the first one -/
  retries : Nat := 0
  acked : Nat := 0
  failed : Nat := 0
  cancelled : Nat := 0
  /-- broadcast frames that the link took -/
  broadcasts : BroadcastTally := {}
  /-- broadcasts that found no token in time -/
  broadcastsRateLimited : Nat := 0
  deriving DecidableEq, Repr

/-- Count a request that has reached a terminal phase. -/
def Tally.recordFinished (t : Tally) : Phase → Tally
  | .acked => { t with acked := t.acked + 1 }
  | .cancelled => { t with cancelled := t.cancelled + 1 }
  | .failed _ => { t with failed := t.failed + 1 }
  | _ => t

/-- The state of a throttle. -/
structure ThrottleReport where
  granted : Nat
  denied : Nat
  /-- the tokens left at the last refill -/
  available : Float

/-- What a caller is told about a network. -/
structure Report where
  network : NetworkId
  agents : Nat
  agentsOnline : Nat
  tally : Tally
  /-- the pending requests of all agents -/
  queueDepth : Nat
  epoch : Nat
  throttle : Option ThrottleReport

/-- What a caller is told about an agent. -/
structure Snapshot where
  agent : AgentId
  presence : Presence
  /-- the time since the agent was last heard -/
  age : Option Span
  capabilities : Capabilities
  /-- the pending requests of the agent -/
  queueDepth : Nat
  deriving DecidableEq, Repr

end GroundControl
