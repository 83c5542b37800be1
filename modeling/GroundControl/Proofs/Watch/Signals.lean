import Mathlib.Data.List.DropRight
import Mathlib.Data.List.Induction
import Mathlib.Data.List.Nodup
import GroundControl.Presence

/-!
# Presence as a function of the signals

Whatever is asked of a watch, and however the times of the signals jump, what it says about an agent
follows from the signals of the agent since it was last forgotten, and from the sweeps since the
last of them.

* `Watch.Call`, everything a watch can be asked to do, `Watch.call`, `Watch.after`, `Watch.told`;
* `Watch.heard`, the signals in the current life of an agent, and `Watch.silence`, the calls since
  the last signal; `Watch.Late`, a sweep among them that finds the agent overdue;
* `Watch.Sees`, what is kept about one agent, with the step `sees_call` and the run `sees_after`;
* `Watch.changes_of_silent`: the one change that a silent period brings;
* `Watch.follows_signals`, all of it together.
-/

namespace GroundControl

namespace Watch

/-- What a watch can be asked to do. -/
inductive Call
  | observe (agent : AgentId) (time : Instant) (signal : Signal)
  /-- the agents come up in the order of `walk` -/
  | sweep (walk : Walk) (now : Instant)
  | forget (agent : AgentId)

instance (c : Call) (agent : AgentId) : Decidable (c = .forget agent) :=
  match c with
  | .forget other => decidable_of_iff (other = agent) ⟨congrArg Call.forget, Call.forget.inj⟩
  | .observe .. | .sweep .. => .isFalse nofun

/-- The signal of an agent that a call reports. -/
def Call.signalOf? (agent : AgentId) : Call → Option (Instant × Signal)
  | .observe other time signal => if other = agent then some (time, signal) else none
  | .sweep _ _ | .forget _ => none

/-- The changes that a call answers, and the watch after it. -/
def call (w : Watch) : Call → List PresenceChange × Watch
  | .observe agent time signal =>
      ((w.observe agent time signal).1.toList, (w.observe agent time signal).2)
  | .sweep _ now => w.sweep now
  | .forget agent => ([], w.forget agent)

/-- The watch after a list of calls. -/
def after (timeout : Span) (past : List Call) : Watch :=
  past.foldl (fun w c => (w.call c).2) (new timeout)

/-- The changes that a list of calls answers. -/
def told (w : Watch) : List Call → List PresenceChange
  | [] => []
  | c :: rest => (w.call c).1 ++ told (w.call c).2 rest

/-- The calls since an agent was last forgotten. -/
def life (agent : AgentId) (past : List Call) : List Call :=
  past.rtakeWhile fun c => decide (c ≠ .forget agent)

/-- The signals of an agent since it was last forgotten. -/
def heard (agent : AgentId) (past : List Call) : List (Instant × Signal) :=
  (life agent past).filterMap (·.signalOf? agent)

/-- The times of the signals of an agent since it was last forgotten. -/
def times (agent : AgentId) (past : List Call) : List Instant := (heard agent past).map Prod.fst

/-- The calls since the last signal of an agent. -/
def silence (agent : AgentId) (past : List Call) : List Call :=
  past.rtakeWhile fun c => (c.signalOf? agent).isNone

/-- Whether one of the calls is a sweep that comes too late for an agent last heard at `last`. -/
def Late (timeout : Span) (last : Instant) (calls : List Call) : Prop :=
  ∃ walk now, .sweep walk now ∈ calls ∧ timeout < now.since last

/-- Whether an agent was found silent for too long since its last signal. -/
def Missed (timeout : Span) (agent : AgentId) (past : List Call) : Prop :=
  ∃ last, (times agent past).max? = some last ∧ Late timeout last (silence agent past)

/-! ### One more call -/

section Calls

variable {timeout : Span} {past : List Call} {agent : AgentId} {c : Call}

theorem after_concat (timeout : Span) (past : List Call) (c : Call) :
    after timeout (past ++ [c]) = ((after timeout past).call c).2 := by
  unfold after
  rw [List.foldl_append]
  rfl

@[simp] theorem onlineTimeout_after (timeout : Span) (past : List Call) :
    (after timeout past).onlineTimeout = timeout := by
  induction past using List.reverseRecOn with
  | nil => rfl
  | append_singleton past c ih =>
    rw [after_concat]
    cases c <;> exact ih

theorem told_append (w : Watch) (calls more : List Call) :
    w.told (calls ++ more) =
      w.told calls ++ (calls.foldl (fun w c => (w.call c).2) w).told more := by
  induction calls generalizing w with
  | nil => rfl
  | cons c rest ih =>
    show (w.call c).1 ++ (w.call c).2.told (rest ++ more) = _
    rw [ih, ← List.append_assoc]
    rfl

theorem told_after_concat (timeout : Span) (past calls : List Call) (c : Call) :
    (after timeout past).told (calls ++ [c]) =
      (after timeout past).told calls ++ ((after timeout (past ++ calls)).call c).1 := by
  have hfold : calls.foldl (fun w c => (w.call c).2) (after timeout past) =
      after timeout (past ++ calls) := List.foldl_append.symm
  rw [told_append, hfold]
  exact congrArg _ (List.append_nil _)

theorem heard_forget (past : List Call) : heard agent (past ++ [.forget agent]) = [] := by
  unfold heard life
  rw [List.rtakeWhile_concat_neg _ _ _ (by simp)]
  rfl

theorem heard_signal {time : Instant} {signal : Signal} :
    heard agent (past ++ [.observe agent time signal]) = heard agent past ++ [(time, signal)] := by
  unfold heard life
  rw [List.rtakeWhile_concat_pos _ _ _ (by simp), List.filterMap_append]
  simp [Call.signalOf?]

/-- A call about somebody else adds nothing to what was heard. -/
theorem heard_other (hs : c.signalOf? agent = none) (hf : c ≠ .forget agent) :
    heard agent (past ++ [c]) = heard agent past := by
  unfold heard life
  rw [List.rtakeWhile_concat_pos _ _ _ (by simpa using hf), List.filterMap_append]
  simp [hs]

theorem silence_signal {time : Instant} {signal : Signal} :
    silence agent (past ++ [.observe agent time signal]) = [] :=
  List.rtakeWhile_concat_neg _ _ _ (by simp [Call.signalOf?])

theorem silence_other (hs : c.signalOf? agent = none) :
    silence agent (past ++ [c]) = silence agent past ++ [c] :=
  List.rtakeWhile_concat_pos _ _ _ (by simp [hs])

theorem max?_concat (l : List Instant) (t : Instant) :
    (l ++ [t]).max? = some (max (l.max?.getD t) t) := by
  cases l with
  | nil => simp
  | cons x rest =>
    rw [List.cons_append, List.max?_cons', List.max?_cons', List.foldl_append]
    rfl

theorem late_concat {last : Instant} {calls : List Call} :
    Late timeout last (calls ++ [c]) ↔
      Late timeout last calls ∨ ∃ walk now, c = .sweep walk now ∧ timeout < now.since last := by
  unfold Late
  simp only [List.mem_append, List.mem_singleton, or_and_right, exists_or, @eq_comm _ c]

theorem not_late_nil {last : Instant} : ¬ Late timeout last [] := by
  rintro ⟨walk, now, hm, -⟩
  cases hm

end Calls

/-! ### What is kept about one agent -/

/-- What is kept about an agent after a list of calls. -/
inductive Sees (timeout : Span) (agent : AgentId) (past : List Call) : Option Sighting → Prop
  | unheard (hn : heard agent past = []) : Sees timeout agent past none
  | present {last time : Instant} {signal : Signal} (hl : (times agent past).max? = some last)
      (hs : (heard agent past).getLast? = some (time, signal))
      (hp : ¬ Late timeout last (silence agent past)) :
      Sees timeout agent past (some ⟨last, signal.presence⟩)
  | absent {last time : Instant} {signal : Signal} (hl : (times agent past).max? = some last)
      (hs : (heard agent past).getLast? = some (time, signal))
      (hp : Late timeout last (silence agent past)) :
      Sees timeout agent past (some ⟨last, .offline⟩)

theorem isOverdue_present {last now : Instant} {signal : Signal} {timeout : Span} :
    (⟨last, signal.presence⟩ : Sighting).isOverdue timeout now = true ↔
      timeout < now.since last := by
  cases signal <;> exact decide_eq_true_iff

section Step

variable {timeout : Span} {past : List Call} {agent : AgentId} {c : Call}

/-- A signal starts a new silence. -/
theorem Sees.signal {old : Option Sighting} (h : Sees timeout agent past old) (time : Instant)
    (signal : Signal) :
    Sees timeout agent (past ++ [.observe agent time signal])
      (some ⟨max ((old.map (·.lastSeen)).getD time) time, signal.presence⟩) := by
  have hmax : (times agent past).max? = old.map (·.lastSeen) := by
    cases h with
    | unheard hn =>
      unfold times
      rw [hn]
      rfl
    | present hl | absent hl => exact hl
  have hlast : (heard agent (past ++ [.observe agent time signal])).getLast? =
      some (time, signal) := by
    rw [heard_signal, List.getLast?_concat]
  refine .present ?_ hlast ?_
  · unfold times at hmax ⊢
    rw [heard_signal, List.map_append, List.map_singleton, max?_concat, hmax]
  · rw [silence_signal]
    exact not_late_nil

/-- A call about somebody else that is no sweep changes nothing. -/
theorem Sees.other {old : Option Sighting} (h : Sees timeout agent past old)
    (hs : c.signalOf? agent = none) (hf : c ≠ .forget agent)
    (hw : ∀ walk now, c ≠ .sweep walk now) : Sees timeout agent (past ++ [c]) old := by
  have hheard : heard agent (past ++ [c]) = heard agent past := heard_other hs hf
  have htimes : times agent (past ++ [c]) = times agent past := congrArg (·.map Prod.fst) hheard
  have hlate : ∀ last, Late timeout last (silence agent (past ++ [c])) ↔
      Late timeout last (silence agent past) := by
    intro last
    rw [silence_other hs, late_concat, or_iff_left]
    rintro ⟨walk, now, hc, -⟩
    exact hw walk now hc
  cases h with
  | unheard hn => exact .unheard (hheard.trans hn)
  | present hl hsig hp =>
    exact .present (htimes ▸ hl) (hheard ▸ hsig) fun hp' => hp ((hlate _).1 hp')
  | absent hl hsig hp => exact .absent (htimes ▸ hl) (hheard ▸ hsig) ((hlate _).2 hp)

/-- A sweep marks an agent whose last signal is too old. -/
theorem Sees.sweep {old : Option Sighting} (h : Sees timeout agent past old) (walk : Walk)
    (now : Instant) :
    Sees timeout agent (past ++ [.sweep walk now]) (old.map fun s =>
      if s.isOverdue timeout now then { s with presence := .offline } else s) := by
  have hheard : heard agent (past ++ [.sweep walk now]) = heard agent past :=
    heard_other rfl nofun
  have htimes : times agent (past ++ [.sweep walk now]) = times agent past :=
    congrArg (·.map Prod.fst) hheard
  have hlate : ∀ last, Late timeout last (silence agent (past ++ [.sweep walk now])) ↔
      Late timeout last (silence agent past) ∨ timeout < now.since last := by
    intro last
    rw [silence_other rfl, late_concat]
    simp only [Call.sweep.injEq, and_assoc, exists_and_left, exists_eq_left']
  cases h with
  | unheard hn => exact .unheard (hheard.trans hn)
  | @present last time signal hl hsig hp =>
    rw [Option.map_some]
    split
    · rename_i ho
      exact .absent (htimes ▸ hl) (hheard ▸ hsig) ((hlate last).2 (.inr (isOverdue_present.1 ho)))
    · rename_i ho
      refine .present (htimes ▸ hl) (hheard ▸ hsig) fun hp' => ?_
      rcases (hlate last).1 hp' with hp' | hp'
      · exact hp hp'
      · exact ho (isOverdue_present.2 hp')
  | @absent last time signal hl hsig hp =>
    rw [Option.map_some, if_neg]
    · exact .absent (htimes ▸ hl) (hheard ▸ hsig) ((hlate last).2 (.inl hp))
    · exact Bool.noConfusion

theorem sees_call (h : ∀ agent, Sees timeout agent past
      ((after timeout past).sightings.get? agent)) (c : Call) (agent : AgentId) :
    Sees timeout agent (past ++ [c]) ((after timeout (past ++ [c])).sightings.get? agent) := by
  rw [after_concat]
  cases c with
  | observe other time signal =>
    dsimp only [call]
    rw [get?_observe]
    by_cases ha : agent = other
    · subst ha
      rw [if_pos rfl]
      exact (h agent).signal time signal
    · rw [if_neg ha]
      exact (h agent).other (if_neg (Ne.symm ha)) nofun nofun
  | sweep walk now =>
    dsimp only [call]
    rw [get?_sweep, onlineTimeout_after]
    exact (h agent).sweep walk now
  | forget other =>
    dsimp only [call]
    rw [get?_forget]
    by_cases ha : agent = other
    · subst ha
      rw [if_pos rfl]
      exact .unheard (heard_forget past)
    · rw [if_neg ha]
      refine (h agent).other rfl (fun hc => ha ?_) nofun
      exact (Call.forget.inj hc).symm

end Step

theorem sees_after (timeout : Span) (past : List Call) (agent : AgentId) :
    Sees timeout agent past ((after timeout past).sightings.get? agent) := by
  induction past using List.reverseRecOn generalizing agent with
  | nil => exact .unheard rfl
  | append_singleton past c ih => exact sees_call ih c agent

/-! ### Changes -/

section Changes

variable {timeout : Span} {past : List Call} {agent : AgentId} {c : Call}

/-- A signal is answered with the change of presence it brings. -/
theorem mem_observe_iff {w : Watch} {time : Instant} {signal : Signal} {change : PresenceChange} :
    change ∈ (w.observe agent time signal).1.toList ↔
      w.presenceOf agent ≠ signal.presence ∧
        change = ⟨agent, w.presenceOf agent, signal.presence⟩ := by
  have h : (w.observe agent time signal).1 = if w.presenceOf agent = signal.presence then none
      else some ⟨agent, w.presenceOf agent, signal.presence⟩ := by
    unfold presenceOf observe
    cases w.sightings.get? agent <;> rfl
  rw [h, Option.mem_toList]
  split
  · rename_i hp
    simp [hp]
  · rename_i hp
    simp [hp, eq_comm]

theorem presenceOf_observe (w : Watch) (other : AgentId) (time : Instant) (signal : Signal) :
    (w.observe agent time signal).2.presenceOf other =
      if other = agent then signal.presence else w.presenceOf other := by
  unfold presenceOf
  rw [get?_observe]
  split <;> rfl

/-- The changes that a call answers are the changes it makes, except that nothing is said of an
agent that is forgotten. -/
theorem mem_call_iff (w : Watch) {change : PresenceChange} (hc : c ≠ .forget change.agent) :
    change ∈ (w.call c).1 ↔ change.source = w.presenceOf change.agent ∧
      change.target = (w.call c).2.presenceOf change.agent ∧ change.source ≠ change.target := by
  obtain ⟨other, source, target⟩ := change
  cases c with
  | observe agent time signal =>
    dsimp only [call]
    rw [mem_observe_iff, presenceOf_observe]
    by_cases ha : other = agent
    · subst ha
      rw [if_pos rfl, PresenceChange.mk.injEq]
      constructor
      · rintro ⟨hne, -, rfl, rfl⟩
        exact ⟨rfl, rfl, hne⟩
      · rintro ⟨rfl, rfl, hne⟩
        exact ⟨hne, rfl, rfl, rfl⟩
    · rw [if_neg ha]
      constructor
      · rintro ⟨-, he⟩
        exact absurd (congrArg PresenceChange.agent he) ha
      · rintro ⟨rfl, rfl, hne⟩
        exact absurd rfl hne
  | sweep walk now =>
    dsimp only [call]
    rw [mem_sweep_iff]
    unfold presenceOf
    rw [get?_sweep]
    cases w.sightings.get? other with
    | none =>
      constructor
      · rintro ⟨sighting, hs, -⟩
        cases hs
      · rintro ⟨rfl, rfl, hne⟩
        exact absurd rfl hne
    | some s =>
      rw [Option.map_some, Option.map_some, Option.map_some, Option.getD_some, Option.getD_some]
      constructor
      · rintro ⟨sighting, hs, ho, rfl, rfl⟩
        cases hs
        rw [if_pos ho]
        refine ⟨rfl, rfl, fun hp => ?_⟩
        -- who is marked already is not overdue
        unfold Sighting.isOverdue at ho
        rw [hp] at ho
        cases ho
      · rintro ⟨rfl, rfl, hne⟩
        split at hne
        · rename_i ho
          exact ⟨s, rfl, ho, rfl, by rw [if_pos ho]⟩
        · exact absurd rfl hne
  | forget agent =>
    have ha : other ≠ agent := fun ha => hc (congrArg Call.forget ha.symm)
    constructor
    · intro hm
      cases hm
    · dsimp only [call]
      unfold presenceOf
      rw [get?_forget, if_neg ha]
      rintro ⟨rfl, rfl, hne⟩
      exact absurd rfl hne

theorem nodup_call (w : Watch) (c : Call) :
    ((w.call c).1.map PresenceChange.agent).Nodup := by
  cases c with
  | observe agent time signal =>
    dsimp only [call]
    cases (w.observe agent time signal).1 with
    | none => exact .nil
    | some change => exact List.nodup_singleton _
  | sweep walk now => exact w.nodup_sweep now
  | forget agent => exact .nil

/-- The changes of one agent among those a call answers. -/
theorem filter_call (w : Watch) (hc : c ≠ .forget agent) :
    (w.call c).1.filter (·.agent = agent) =
      if w.presenceOf agent = (w.call c).2.presenceOf agent then []
      else [⟨agent, w.presenceOf agent, (w.call c).2.presenceOf agent⟩] := by
  split
  · rename_i hp
    refine List.filter_eq_nil_iff.2 fun change hm ha => ?_
    have ha : change.agent = agent := of_decide_eq_true ha
    subst ha
    obtain ⟨hs, ht, hne⟩ := (mem_call_iff w hc).1 hm
    exact hne (hs.trans (hp.trans ht.symm))
  · rename_i hp
    have hnodup : ((w.call c).1.filter (·.agent = agent)).Nodup :=
      (List.Nodup.of_map _ (nodup_call w c)).filter _
    refine List.perm_singleton.1
      ((List.perm_ext_iff_of_nodup hnodup (List.nodup_singleton _)).2 fun change => ?_)
    rw [List.mem_filter, List.mem_singleton, decide_eq_true_iff]
    constructor
    · rintro ⟨hm, rfl⟩
      obtain ⟨hs, ht, -⟩ := (mem_call_iff w hc).1 hm
      rw [← hs, ← ht]
    · rintro rfl
      exact ⟨(mem_call_iff w hc).2 ⟨rfl, rfl, hp⟩, rfl⟩

end Changes

/-! ### Presence, and silent periods -/

section Silent

variable {timeout : Span} {past : List Call} {agent : AgentId} {last time : Instant}
  {signal : Signal}

theorem lastSeen_after (timeout : Span) (past : List Call) (agent : AgentId) :
    (after timeout past).lastSeen agent = (times agent past).max? := by
  have h := sees_after timeout past agent
  unfold lastSeen
  cases hs : (after timeout past).sightings.get? agent with
  | none =>
    rw [hs] at h
    cases h with
    | unheard hn =>
      unfold times
      rw [hn]
      rfl
  | some sighting =>
    rw [hs] at h
    cases h with
    | present hl | absent hl => exact hl.symm

theorem presenceOf_of_unheard (hn : heard agent past = []) :
    (after timeout past).presenceOf agent = .unknown := by
  have h := lastSeen_after timeout past agent
  unfold times at h
  rw [hn] at h
  unfold presenceOf
  rw [Option.map_eq_none_iff.1 h]
  rfl

/-- The presence of an agent that was heard. -/
theorem presenceOf_of_heard (timeout : Span) (hl : (times agent past).max? = some last)
    (hs : (heard agent past).getLast? = some (time, signal)) :
    (Late timeout last (silence agent past) ∧
        (after timeout past).presenceOf agent = .offline) ∨
      (¬ Late timeout last (silence agent past) ∧
        (after timeout past).presenceOf agent = signal.presence) := by
  have h := sees_after timeout past agent
  unfold presenceOf
  generalize (after timeout past).sightings.get? agent = sighting at h
  cases h with
  | unheard hn =>
    rw [hn] at hs
    cases hs
  | present hl' hs' hp =>
    rw [hl] at hl'
    rw [hs] at hs'
    cases hl'
    cases hs'
    exact .inr ⟨hp, rfl⟩
  | absent hl' hs' hp =>
    rw [hl] at hl'
    cases hl'
    exact .inl ⟨hp, rfl⟩

/-- Whether a list of calls neither reports a signal of an agent nor forgets it. -/
def Silent (agent : AgentId) (calls : List Call) : Prop :=
  ∀ c ∈ calls, c.signalOf? agent = none ∧ c ≠ .forget agent

theorem heard_silent {calls : List Call} (h : Silent agent calls) :
    heard agent (past ++ calls) = heard agent past := by
  induction calls using List.reverseRecOn with
  | nil => rw [List.append_nil]
  | append_singleton calls c ih =>
    obtain ⟨hs, hf⟩ := h c (List.mem_append_right _ (List.mem_singleton_self c))
    rw [← List.append_assoc, heard_other hs hf]
    exact ih fun c' hc' => h c' (List.mem_append_left _ hc')

theorem silence_silent {calls : List Call} (h : Silent agent calls) :
    silence agent (past ++ calls) = silence agent past ++ calls := by
  induction calls using List.reverseRecOn with
  | nil => rw [List.append_nil, List.append_nil]
  | append_singleton calls c ih =>
    obtain ⟨hs, -⟩ := h c (List.mem_append_right _ (List.mem_singleton_self c))
    rw [← List.append_assoc, silence_other hs, ← List.append_assoc]
    exact congrArg (· ++ [c]) (ih fun c' hc' => h c' (List.mem_append_left _ hc'))

theorem times_silent {calls : List Call} (h : Silent agent calls) :
    times agent (past ++ calls) = times agent past :=
  congrArg (·.map Prod.fst) (heard_silent h)

theorem silence_since_signal {calls : List Call} (h : Silent agent calls) :
    silence agent (past ++ [.observe agent time signal] ++ calls) = calls := by
  rw [silence_silent h, silence_signal, List.nil_append]

/-- The presence of an agent since its last signal. -/
theorem presenceOf_of_silent (timeout : Span) {calls : List Call} (h : Silent agent calls)
    (hl : (times agent (past ++ [.observe agent time signal])).max? = some last) :
    (Late timeout last calls ∧
        (after timeout (past ++ [.observe agent time signal] ++ calls)).presenceOf agent =
          .offline) ∨
      (¬ Late timeout last calls ∧
        (after timeout (past ++ [.observe agent time signal] ++ calls)).presenceOf agent =
          signal.presence) := by
  have hs : (heard agent (past ++ [.observe agent time signal] ++ calls)).getLast? =
      some (time, signal) := by
    rw [heard_silent h, heard_signal, List.getLast?_concat]
  have hp := presenceOf_of_heard timeout ((times_silent h).symm ▸ hl) hs
  rwa [silence_since_signal h] at hp

/-- What is told about an agent between two of its signals: that it went silent, if a sweep found
it so, and then once. -/
theorem changes_of_silent {calls : List Call} (h : Silent agent calls)
    (hl : (times agent (past ++ [.observe agent time signal])).max? = some last) :
    (Late timeout last calls ∧
        ((after timeout (past ++ [.observe agent time signal])).told calls).filter
          (·.agent = agent) = [⟨agent, signal.presence, .offline⟩]) ∨
      (¬ Late timeout last calls ∧
        ((after timeout (past ++ [.observe agent time signal])).told calls).filter
          (·.agent = agent) = []) := by
  induction calls using List.reverseRecOn with
  | nil => exact .inr ⟨not_late_nil, rfl⟩
  | append_singleton calls c ih =>
    have hcalls : Silent agent calls := fun c' hc' => h c' (List.mem_append_left _ hc')
    obtain ⟨-, hf⟩ := h c (List.mem_append_right _ (List.mem_singleton_self c))
    have hnow := presenceOf_of_silent timeout hcalls hl
    have hnext := presenceOf_of_silent timeout h hl
    rw [← List.append_assoc, after_concat] at hnext
    rw [told_after_concat, List.filter_append, filter_call _ hf]
    rcases ih hcalls with ⟨hlate, htold⟩ | ⟨hlate, htold⟩
    · -- it is silent already, and stays so
      have hlate' : Late timeout last (calls ++ [c]) := late_concat.2 (.inl hlate)
      obtain ⟨-, hp⟩ := hnow.resolve_right fun hn => hn.1 hlate
      obtain ⟨-, hp'⟩ := hnext.resolve_right fun hn => hn.1 hlate'
      rw [if_pos (hp.trans hp'.symm), List.append_nil]
      exact .inl ⟨hlate', htold⟩
    · obtain ⟨-, hp⟩ := hnow.resolve_left fun hy => hlate hy.1
      rw [hp, htold, List.nil_append]
      rcases hnext with ⟨hlate', hp'⟩ | ⟨hlate', hp'⟩
      · have hne : signal.presence ≠ .offline := by cases signal <;> exact Presence.noConfusion
        rw [hp', if_neg hne]
        exact .inl ⟨hlate', rfl⟩
      · rw [hp', if_pos rfl]
        exact .inr ⟨hlate', rfl⟩

/-- The latest time of an agent that was heard. -/
theorem exists_latest (hs : (heard agent past).getLast? = some (time, signal)) :
    ∃ last, (times agent past).max? = some last := by
  cases hl : (times agent past).max? with
  | none =>
    rw [List.map_eq_nil_iff.1 (List.max?_eq_none_iff.1 hl)] at hs
    cases hs
  | some last => exact ⟨last, rfl⟩

theorem missed_iff (hl : (times agent past).max? = some last) :
    Missed timeout agent past ↔ Late timeout last (silence agent past) := by
  unfold Missed
  rw [hl]
  simp only [Option.some.injEq, exists_eq_left']

/-- Whether an agent is missed is decided by the calls since its last signal. -/
theorem missed_silent_iff {calls : List Call} (h : Silent agent calls)
    (hl : (times agent (past ++ [.observe agent time signal])).max? = some last) :
    Missed timeout agent (past ++ [.observe agent time signal] ++ calls) ↔
      Late timeout last calls := by
  rw [missed_iff ((times_silent h).symm ▸ hl), silence_since_signal h]

theorem offline_iff :
    (after timeout past).presenceOf agent = .offline ↔ Missed timeout agent past := by
  cases hs : (heard agent past).getLast? with
  | none =>
    have hn : heard agent past = [] := List.getLast?_eq_none_iff.1 hs
    rw [presenceOf_of_unheard hn]
    refine ⟨Presence.noConfusion, ?_⟩
    rintro ⟨last, hl, -⟩
    unfold times at hl
    rw [hn] at hl
    cases hl
  | some heard =>
    obtain ⟨time, signal⟩ := heard
    obtain ⟨last, hl⟩ := exists_latest hs
    rw [missed_iff hl]
    rcases presenceOf_of_heard timeout hl hs with ⟨hlate, hp⟩ | ⟨hlate, hp⟩
    · exact ⟨fun _ => hlate, fun _ => hp⟩
    · refine ⟨fun hoff => ?_, fun h => absurd h hlate⟩
      rw [hp] at hoff
      cases signal <;> cases hoff

/-- A sweep spares an agent one of whose signals is recent enough. -/
theorem spared_of_heard (hm : (time, signal) ∈ heard agent past) [Walk] {now : Instant}
    (hnow : now.since time ≤ timeout) {change : PresenceChange}
    (hc : change ∈ ((after timeout past).sweep now).1) : change.agent ≠ agent := by
  rintro rfl
  obtain ⟨sighting, hs, ho, -, -⟩ := mem_sweep_iff.1 hc
  have hl : (times change.agent past).max? = some sighting.lastSeen := by
    rw [← lastSeen_after timeout past]
    unfold lastSeen
    rw [hs]
    rfl
  have hle : time ≤ sighting.lastSeen :=
    (List.max?_eq_some_iff.1 hl).2 _ (List.mem_map.2 ⟨_, hm, rfl⟩)
  have hover : timeout < now.since sighting.lastSeen := by
    unfold Sighting.isOverdue at ho
    rw [onlineTimeout_after] at ho
    exact of_decide_eq_true (Bool.and_eq_true_iff.1 ho).2
  unfold Instant.since at hnow hover
  exact absurd (Nat.lt_of_lt_of_le hover (Nat.sub_le_sub_left hle now)) (Nat.not_lt.2 hnow)

end Silent

/-! ### All of it -/

/-- What a watch says after a list of calls follows from the signals among them. -/
structure FollowsSignals (timeout : Span) (past : List Call) : Prop where
  /-- the latest of the times in the current life of an agent, whatever came last -/
  lastSeen : ∀ agent, (after timeout past).lastSeen agent = (times agent past).max?
  unknown : ∀ agent, heard agent past = [] → (after timeout past).presenceOf agent = .unknown
  offline : ∀ agent,
    (after timeout past).presenceOf agent = .offline ↔ Missed timeout agent past
  /-- who is not silent is as the last signal said -/
  there : ∀ agent time signal, (heard agent past).getLast? = some (time, signal) →
    ¬ Missed timeout agent past → (after timeout past).presenceOf agent = signal.presence
  /-- a call tells of an agent at most once -/
  nodup : ∀ c, (((after timeout past).call c).1.map PresenceChange.agent).Nodup
  /-- a call tells the changes it makes, with both presences as they are -/
  told : ∀ c change, c ≠ .forget change.agent →
    (change ∈ ((after timeout past).call c).1 ↔
      change.source = (after timeout past).presenceOf change.agent ∧
      change.target = ((after timeout past).call c).2.presenceOf change.agent ∧
      change.source ≠ change.target)
  /-- a silent period brings one change if it is long enough -/
  once : ∀ agent time signal calls, Silent agent calls →
    Missed timeout agent (past ++ [.observe agent time signal] ++ calls) →
    ((after timeout (past ++ [.observe agent time signal])).told calls).filter
      (·.agent = agent) = [⟨agent, signal.presence, .offline⟩]
  /-- and none otherwise -/
  never : ∀ agent time signal calls, Silent agent calls →
    ¬ Missed timeout agent (past ++ [.observe agent time signal] ++ calls) →
    ((after timeout (past ++ [.observe agent time signal])).told calls).filter
      (·.agent = agent) = []
  /-- a sweep spares an agent one of whose signals is recent enough -/
  spared [Walk] : ∀ agent time signal now,
    (time, signal) ∈ heard agent past → now.since time ≤ timeout →
    ∀ change ∈ ((after timeout past).sweep now).1, change.agent ≠ agent

/-- Whatever is asked of a watch and in whatever order the times come, what it says follows from the
signals. -/
theorem follows_signals (timeout : Span) (past : List Call) : FollowsSignals timeout past := by
  have hlatest : ∀ agent time signal, ∃ last,
      (times agent (past ++ [.observe agent time signal])).max? = some last := by
    intro agent time signal
    have hs : (heard agent (past ++ [.observe agent time signal])).getLast? =
        some (time, signal) := by
      rw [heard_signal, List.getLast?_concat]
    exact exists_latest hs
  constructor
  case lastSeen => exact lastSeen_after timeout past
  case unknown => exact fun agent => presenceOf_of_unheard
  case offline => exact fun agent => offline_iff
  case there =>
    intro agent time signal hs hmissed
    obtain ⟨last, hl⟩ := exists_latest hs
    rcases presenceOf_of_heard timeout hl hs with ⟨hlate, -⟩ | ⟨-, hp⟩
    · exact absurd ((missed_iff hl).2 hlate) hmissed
    · exact hp
  case nodup => exact nodup_call _
  case told => exact fun c change hc => mem_call_iff _ hc
  case once =>
    intro agent time signal calls h hmissed
    obtain ⟨last, hl⟩ := hlatest agent time signal
    rcases changes_of_silent h hl with ⟨-, ht⟩ | ⟨hn, -⟩
    · exact ht
    · exact absurd ((missed_silent_iff h hl).1 hmissed) hn
  case never =>
    intro agent time signal calls h hmissed
    obtain ⟨last, hl⟩ := hlatest agent time signal
    rcases changes_of_silent h hl with ⟨hy, -⟩ | ⟨-, ht⟩
    · exact absurd ((missed_silent_iff h hl).2 hy) hmissed
    · exact ht
  case spared => exact fun agent time signal now hm hnow change hc => spared_of_heard hm hnow hc

/-- A signal that comes late but is older than the one before brings an agent back, until the next
sweep compares with the latest time. -/
example :
    ((after 5 [.observe 1 10 .alive, .sweep .ascending 20,
        .observe 1 3 .poweredDown]).presenceOf 1,
      (new 5).told [.observe 1 10 .alive, .sweep .ascending 20, .observe 1 3 .poweredDown,
        .sweep .ascending 15, .sweep .ascending 16]) =
      (.sleeping, [⟨1, .unknown, .online⟩, ⟨1, .online, .offline⟩, ⟨1, .offline, .sleeping⟩,
        ⟨1, .sleeping, .offline⟩]) := by
  decide

end Watch

end GroundControl
