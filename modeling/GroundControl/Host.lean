import GroundControl.Identity
import GroundControl.Table
import GroundControl.Time

/-!
# Hosts

What the machine on which the tasks run decides, and what is known about it: in which order the
entries of a hash table come up, and when regular work is due again.

* `Walk`, an order for the agents of a table; `Walk.entries`, a table in that order;
* `Host`, a walk and the timers of regular work;
* `Walk.ascending` and `Host.plain`, one of each.
-/

namespace GroundControl

/-- An order in which the agents of a hash table come up: any order, and another one each time. -/
class Walk where
  order : List AgentId → List AgentId
  perm (agents : List AgentId) : (order agents).Perm agents

namespace Walk

variable {α : Type}

/-- The agents come up in the order of their numbers. -/
@[reducible] def ascending : Walk := ⟨id, fun agents => .refl agents⟩

variable [Walk]

/-- The entries of a table in the order in which they come up. -/
def entries (t : Table AgentId α) : List (AgentId × α) :=
  (order t.keys).filterMap fun agent => (t.get? agent).map (agent, ·)

theorem entries_perm (t : Table AgentId α) : (entries t).Perm t.entries := by
  have hfound : ∀ l : List (AgentId × α), (∀ e ∈ l, t.get? e.1 = some e.2) →
      (l.map Prod.fst).filterMap (fun agent => (t.get? agent).map (agent, ·)) = l := by
    intro l hl
    induction l with
    | nil => rfl
    | cons e rest ih =>
      obtain ⟨he, hrest⟩ := List.forall_mem_cons.1 hl
      rw [List.map_cons, List.filterMap_cons, he, ih hrest]
      rfl
  have hkeys := (perm t.keys).filterMap fun agent => (t.get? agent).map (agent, ·)
  exact hkeys.trans (.of_eq (hfound t.entries fun e he => Table.mem_entries_iff.1 he))

theorem mem_entries_iff {t : Table AgentId α} {agent : AgentId} {a : α} :
    (agent, a) ∈ entries t ↔ t.get? agent = some a :=
  (entries_perm t).mem_iff.trans Table.mem_entries_iff

/-- The agents come up once each. -/
theorem nodup_entries (t : Table AgentId α) : ((entries t).map Prod.fst).Nodup :=
  ((entries_perm t).map _).nodup_iff.2 (List.pairwise_map.2 (t.sorted.imp Nat.ne_of_lt))

end Walk

/-- A host: the order of its hash tables, and the timers of what is done regularly. -/
class Host extends Walk where
  /-- When something is due again that was due at `due` and is done at `now`. -/
  nextDue (due : Instant) (period : Span) (now : Instant) : Except Fault Instant
  /-- A period that begins at `now` can be told if it ends before the horizon. -/
  exists_nextDue (due : Instant) {period : Span} {now : Instant}
    (h : now + period < Instant.horizon) : ∃ next, nextDue due period now = .ok next

/-- The host of the simulated world. -/
@[reducible] def Host.plain : Host where
  toWalk := .ascending
  nextDue := Instant.nextDue
  exists_nextDue := Instant.exists_nextDue

end GroundControl
