import GroundControl.Host

/-!
# Presence

Whether the agents of a network are there, judged from when each was last heard and from what it
said about its power.

* `Presence`, `Signal`, `PresenceChange`;
* `Watch`, with `observe`, `sweep`, `forget`;
* `Watch.presenceOf`, `Watch.lastSeen`, `Watch.onlineCount`, `Watch.anyOnline`;
* `Watch.get?_observe`, `get?_sweep`, `get?_forget`: what each of them does to one agent;
* `Watch.mem_sweep_iff`, `nodup_sweep`: whom a sweep finds silent.
-/

namespace GroundControl

/-- What is known about the presence of an agent. -/
inductive Presence
  /-- never heard -/
  | unknown
  | online
  /-- there, but powered down -/
  | sleeping
  /-- silent for too long -/
  | offline
  deriving DecidableEq, Repr

namespace Presence

instance : Inhabited Presence := ⟨.unknown⟩

/-- The name of a presence in reports. -/
def label : Presence → String
  | .unknown => "unknown"
  | .online => "online"
  | .sleeping => "sleeping"
  | .offline => "offline"

/-- Whether an agent of this presence can fall silent. -/
def isAlive : Presence → Bool
  | .online | .sleeping => true
  | _ => false

end Presence

/-- What a message says about the power of its sender. -/
inductive Signal
  | alive
  | poweredDown
  deriving DecidableEq, Repr

/-- The presence a signal shows. -/
def Signal.presence : Signal → Presence
  | .alive => .online
  | .poweredDown => .sleeping

/-- An agent's step from one presence to another. -/
structure PresenceChange where
  agent : AgentId
  source : Presence
  target : Presence
  deriving DecidableEq, Repr

/-- When an agent was last heard, and its presence. -/
structure Sighting where
  lastSeen : Instant
  presence : Presence
  deriving DecidableEq, Repr

namespace Sighting

/-- Whether an agent has been silent for longer than `limit` without being marked so. -/
def isOverdue (s : Sighting) (limit : Span) (now : Instant) : Bool :=
  s.presence.isAlive && decide (limit < now.since s.lastSeen)

end Sighting

/-- The watch over the agents of one network. -/
structure Watch where
  onlineTimeout : Span
  sightings : Table AgentId Sighting
  deriving DecidableEq

namespace Watch

/-- A watch that has heard nobody. -/
def new (onlineTimeout : Span) : Watch := ⟨onlineTimeout, ∅⟩

/-- Record a signal; an earlier time never replaces a later one. -/
def observe (w : Watch) (agent : AgentId) (time : Instant) (signal : Signal) :
    Option PresenceChange × Watch :=
  let old := (w.sightings.get? agent).getD ⟨time, .unknown⟩
  let new : Sighting := ⟨max old.lastSeen time, signal.presence⟩
  let change :=
    if old.presence = new.presence then none
    else some ⟨agent, old.presence, new.presence⟩
  (change, { w with sightings := w.sightings.insert agent new })

/-- Mark every agent that has been silent for too long as offline; the agents come up in any
order. -/
def sweep [Walk] (w : Watch) (now : Instant) : List PresenceChange × Watch :=
  let overdue := fun s : Sighting => s.isOverdue w.onlineTimeout now
  let changes := (Walk.entries w.sightings).filterMap fun (agent, s) =>
    if overdue s then some ⟨agent, s.presence, .offline⟩ else none
  let sightings := w.sightings.mapVal fun s =>
    if overdue s then { s with presence := .offline } else s
  (changes, { w with sightings })

/-- Forget an agent. -/
def forget (w : Watch) (agent : AgentId) : Watch :=
  { w with sightings := w.sightings.erase agent }

/-- The presence of an agent. -/
def presenceOf (w : Watch) (agent : AgentId) : Presence :=
  ((w.sightings.get? agent).map (·.presence)).getD .unknown

/-- When an agent was last heard. -/
def lastSeen (w : Watch) (agent : AgentId) : Option Instant :=
  (w.sightings.get? agent).map (·.lastSeen)

/-- The number of agents online. -/
def onlineCount (w : Watch) : Nat :=
  w.sightings.values.countP fun s => s.presence == .online

/-- Whether any agent is online. -/
def anyOnline (w : Watch) : Bool :=
  w.sightings.values.any fun s => s.presence == .online

theorem get?_observe (w : Watch) (agent other : AgentId) (time : Instant) (signal : Signal) :
    (w.observe agent time signal).2.sightings.get? other =
      if other = agent then
        some ⟨max ((w.lastSeen agent).getD time) time, signal.presence⟩
      else w.sightings.get? other := by
  unfold observe lastSeen
  rw [Table.get?_insert]
  cases w.sightings.get? agent <;> rfl

theorem get?_sweep [Walk] (w : Watch) (now : Instant) (agent : AgentId) :
    (w.sweep now).2.sightings.get? agent = (w.sightings.get? agent).map fun s =>
      if s.isOverdue w.onlineTimeout now then { s with presence := .offline } else s :=
  Table.get?_mapVal ..

theorem get?_forget (w : Watch) (agent other : AgentId) :
    (w.forget agent).sightings.get? other =
      if other = agent then none else w.sightings.get? other :=
  Table.get?_erase ..

/-- Who is found silent was thought to be there. -/
theorem mem_sweep_iff [Walk] {w : Watch} {now : Instant} {c : PresenceChange} :
    c ∈ (w.sweep now).1 ↔ ∃ sighting, w.sightings.get? c.agent = some sighting ∧
      sighting.isOverdue w.onlineTimeout now = true ∧ c.source = sighting.presence ∧
        c.target = .offline := by
  unfold Watch.sweep
  simp only [List.mem_filterMap, Prod.exists]
  constructor
  · rintro ⟨agent, sighting, he, hc⟩
    split at hc
    · rename_i ho
      cases hc
      exact ⟨sighting, Walk.mem_entries_iff.1 he, ho, rfl, rfl⟩
    · cases hc
  · rintro ⟨sighting, hs, ho, hsource, htarget⟩
    refine ⟨c.agent, sighting, Walk.mem_entries_iff.2 hs, ?_⟩
    rw [if_pos ho, ← hsource, ← htarget]

/-- An agent is found silent once in a sweep. -/
theorem nodup_sweep [Walk] (w : Watch) (now : Instant) :
    ((w.sweep now).1.map PresenceChange.agent).Nodup := by
  refine List.pairwise_map.2 ?_
  refine List.Pairwise.filterMap _ ?_ (List.pairwise_map.1 (Walk.nodup_entries w.sightings))
  intro e e' hne c hc c' hc'
  -- a change is about the agent of its entry
  have hagent : ∀ (e : AgentId × Sighting) (c : PresenceChange),
      (if e.2.isOverdue w.onlineTimeout now then
        some (⟨e.1, e.2.presence, .offline⟩ : PresenceChange) else none) = some c →
      c.agent = e.1 := by
    intro e c h
    split at h
    · cases h
      rfl
    · cases h
  rw [hagent e c hc, hagent e' c' hc']
  exact hne

/-- Agents that sleep, are offline or were never heard do not count. -/
theorem anyOnline_iff {w : Watch} :
    w.anyOnline = true ↔ ∃ agent, w.presenceOf agent = .online := by
  unfold anyOnline presenceOf Table.values
  rw [List.any_map, List.any_eq_true]
  constructor
  · rintro ⟨⟨agent, sighting⟩, hm, hs⟩
    refine ⟨agent, ?_⟩
    rw [Table.mem_entries_iff.1 hm]
    exact eq_of_beq hs
  · rintro ⟨agent, h⟩
    cases hs : w.sightings.get? agent with
    | none =>
      rw [hs] at h
      cases h
    | some sighting =>
      rw [hs] at h
      exact ⟨(agent, sighting), Table.mem_entries_iff.2 hs, beq_iff_eq.2 h⟩

end Watch

end GroundControl
