import GroundControl.Proofs.TokenBucket.Waits

/-!
# A wait for tokens comes to an end

Whoever waits for tokens asks how long it takes, sleeps for so long and asks again, since what has
gathered in the meantime may fall short of what was asked for by the rounding of the span.  Nothing
but the deadline bounds the number of these rounds, and they end all the same: a sleep is a
nanosecond long or longer, and it does not last beyond the deadline.

* `Bucket.Rounds`, the rounds of a wait that are followed by another, as many as there are;
* `Bucket.Clear`: nothing overflows in a round; `Bucket.Ends`, how the last round finds the bucket;
* `Bucket.Reached`, the buckets of a limit, in use in any way; `Reached.filling`;
* `Filling.take_of_waitTime`: tokens that need not be waited for are there to be taken;
* `Bucket.Waited`, the whole wait, and `takeBy_ends`.
-/

namespace GroundControl

namespace Bucket

open Binary64

/-! ### Rounds without a bound -/

section Rounds

variable {α : Type} [Amount α] {wake : Instant → Instant} {n : Nat} {deadline : Instant}

/-- The rounds of a wait for `n` tokens that end with a sleep, and the instants at which they sleep
and until which; what remains is the bucket that the next round finds, and its instant. -/
inductive Rounds (wake : Instant → Instant) (n : Nat) (deadline : Instant) :
    Bucket α → Instant → List (Instant × Instant) → Bucket α → Instant → Prop
  | nil (b : Bucket α) (now : Instant) : Rounds wake n deadline b now [] b now
  | sleep {b b' c : Bucket α} {now ready t : Instant} {sleeps : List (Instant × Instant)}
      (h : b.claim n deadline now = (.ok (.wait ready), b'))
      (hs : Rounds wake n deadline b' (wake ready) sleeps c t) :
      Rounds wake n deadline b now ((now, ready) :: sleeps) c t

variable {b c : Bucket α} {now t : Instant} {sleeps : List (Instant × Instant)}

/-- A sleep takes some time, and it does not last beyond the deadline. -/
theorem Rounds.bounds (h : Rounds wake n deadline b now sleeps c t) :
    ∀ s ∈ sleeps, s.1 < s.2 ∧ s.2 ≤ deadline := by
  induction h with
  | nil => exact List.forall_mem_nil _
  | sleep h _ ih => exact List.forall_mem_cons.2 ⟨(dealt_claim h).2, ih⟩

/-- The rounds do not touch the counts. -/
theorem Rounds.dealt (h : Rounds wake n deadline b now sleeps c t) : c.dealt = b.dealt := by
  induction h with
  | nil => rfl
  | sleep h _ ih => exact ih.trans (dealt_claim h).1

/-- No round begins before the first. -/
theorem Rounds.le (hwake : ∀ t, t ≤ wake t) (h : Rounds wake n deadline b now sleeps c t) :
    ∀ s ∈ sleeps.map Prod.fst ++ [t], now ≤ s := by
  induction h with
  | nil => exact fun s hs => (List.mem_singleton.1 hs).ge
  | sleep h _ ih =>
    have hlt := (dealt_claim h).2.1
    rintro s (_ | ⟨_, hs⟩)
    · exact Nat.le_refl _
    · exact (Nat.le_of_lt hlt).trans ((hwake _).trans (ih s hs))

/-- From one round to the next, the clock moves on. -/
theorem Rounds.pairwise (hwake : ∀ t, t ≤ wake t) (h : Rounds wake n deadline b now sleeps c t) :
    (sleeps.map Prod.fst ++ [t]).Pairwise (· < ·) := by
  induction h with
  | nil => exact List.pairwise_singleton ..
  | sleep h hs ih =>
    have hlt := (dealt_claim h).2.1
    exact List.pairwise_cons.2
      ⟨fun s hmem => Nat.lt_of_lt_of_le hlt ((hwake _).trans (hs.le hwake s hmem)), ih⟩

/-- Every round but the last uses up a nanosecond of those until the deadline. -/
theorem Rounds.length_le (hwake : ∀ t, t ≤ wake t) (h : Rounds wake n deadline b now sleeps c t) :
    sleeps.length ≤ deadline - now := by
  induction h with
  | nil => exact Nat.zero_le _
  | @sleep _ _ _ now ready _ _ h _ ih =>
    have hlt := (dealt_claim h).2
    have hle := hwake ready
    rw [List.length_cons]
    unfold Instant at *
    omega

end Rounds

/-! ### One round -/

section Claims

variable {α : Type} [Amount α] {b : Bucket α} {n : Nat} {deadline now : Instant} {d : Span}

/-- Whether nothing overflows in a round that begins at `now`: the wait is a span, and unless it is
none at all, it ends at an instant that a clock can show. -/
def Clear (b : Bucket α) (n : Nat) (now : Instant) : Prop :=
  ∃ time, (b.waitTime n now).1 = .ok time ∧ ∀ d ∈ time, d ≠ 0 → now + d < Instant.horizon

theorem claim_of_never (h : (b.waitTime n now).1 = .ok none) :
    b.claim n deadline now = (.ok .denied, (b.refill now).deny) := by
  have h : (b.refill now).shortfall n = .ok none := h
  unfold Bucket.claim Bucket.waitTime
  dsimp only
  rw [h]

theorem claim_of_ready (h : (b.waitTime n now).1 = .ok (some 0)) :
    b.claim n deadline now = (.ok (if ((b.refill now).take n now).1 then .granted else .denied),
      ((b.refill now).take n now).2) := by
  have h : (b.refill now).shortfall n = .ok (some 0) := h
  unfold Bucket.claim Bucket.waitTime
  dsimp only
  rw [h]
  rfl

/-- A wait that ends at an instant of the clock is over before it begins, if it ends after the
deadline. -/
theorem claim_of_wait (deadline : Instant) (h : (b.waitTime n now).1 = .ok (some d)) (hd : d ≠ 0)
    (hclock : now + d < Instant.horizon) :
    b.claim n deadline now =
      if deadline < now + d then (.ok .denied, (b.refill now).deny)
      else (.ok (.wait (now + d)), b.refill now) := by
  have h : (b.refill now).shortfall n = .ok (some d) := h
  obtain ⟨k, rfl⟩ := Nat.exists_eq_succ_of_ne_zero hd
  unfold Bucket.claim Bucket.waitTime
  dsimp only
  rw [h]
  simp only [Instant.after_eq_ok hclock]

/-- However a round ends, it has refilled the bucket, and all it may have done besides is to turn
the request away or to take the tokens. -/
theorem claim_snd (b : Bucket α) (n : Nat) (deadline now : Instant) :
    (b.claim n deadline now).2 = b.refill now ∨
      (b.claim n deadline now).2 = (b.refill now).deny ∨
        (b.claim n deadline now).2 = ((b.refill now).take n now).2 := by
  unfold Bucket.claim Bucket.waitTime
  dsimp only
  cases (b.refill now).shortfall n with
  | error fault => exact .inl rfl
  | ok time =>
    cases time with
    | none => exact .inr (.inl rfl)
    | some d =>
      cases d with
      | zero => exact .inr (.inr rfl)
      | succ d =>
        simp only
        cases now.after (d + 1) with
        | error fault => exact .inl rfl
        | ok ready =>
          simp only
          split
          · exact .inr (.inl rfl)
          · exact .inl rfl

@[simp] theorem refill_refill (b : Bucket α) (now : Instant) :
    (b.refill now).refill now = b.refill now := by
  by_cases h : now.since b.filledAt = 0
  · have hb : b.refill now = b := if_pos h
    rw [hb, hb]
  · have hf : (b.refill now).filledAt = now := by
      unfold Bucket.refill
      dsimp only
      rw [if_neg h]
    have hs : now.since (b.refill now).filledAt = 0 := by
      rw [hf]
      exact Nat.sub_self _
    exact if_pos hs

/-- How the last round of a wait finds the bucket: with the tokens there, or too small a bucket, or
too late for a wait to end before the deadline. -/
inductive Ends (b : Bucket α) (n : Nat) (deadline now : Instant) : Bool → Prop
  | ready (h : (b.waitTime n now).1 = .ok (some 0)) : Ends b n deadline now true
  | never (h : (b.waitTime n now).1 = .ok none) : Ends b n deadline now false
  | late {d : Span} (h : (b.waitTime n now).1 = .ok (some d)) (hd : d ≠ 0)
      (hlate : deadline < now + d) : Ends b n deadline now false

end Claims

/-! ### Buckets in use -/

/-- The buckets of a limit that has been in use, in whatever way. -/
inductive Reached (limit : RateLimit) : Bucket Float → Prop
  | full (start : Instant) : Reached limit (full limit.perSecond limit.burst start)
  | call {b : Bucket Float} (hb : Reached limit b) (wake : Instant → Instant) (c : Call) :
      Reached limit (b.answer wake c).2

variable {limit : RateLimit} {b : Bucket Float}

theorem Filling.deny (h : Filling limit b) : Filling limit b.deny :=
  ⟨h.perSecond, h.capacity, h.level⟩

theorem Filling.claim_snd (hl : Steady limit) (h : Filling limit b) (n : Nat)
    (deadline now : Instant) : Filling limit (b.claim n deadline now).2 := by
  have hrefill := h.refill hl.finite.plain now
  obtain he | he | he := Bucket.claim_snd b n deadline now
  · exact he ▸ hrefill
  · exact he ▸ hrefill.deny
  · exact he ▸ hrefill.take hl.finite.plain n now

theorem Filling.takeByRounds_snd (hl : Steady limit) (wake : Instant → Instant) (n : Nat)
    (deadline : Instant) (rounds : Nat) (h : Filling limit b) (now : Instant) :
    Filling limit (b.takeByRounds wake n deadline rounds now).2.1 := by
  induction rounds generalizing b now with
  | zero => exact h
  | succ rounds ih =>
    have h' := h.claim_snd hl n deadline now
    unfold Bucket.takeByRounds
    generalize b.claim n deadline now = out at h' ⊢
    obtain ⟨fault | (_ | _ | ready), b'⟩ := out
    · exact h'
    · exact h'
    · exact h'
    · exact ih h' (wake ready)

/-- A bucket stays between empty and full, also if a call meets a fault. -/
theorem Reached.filling (hl : Steady limit) (h : Reached limit b) : Filling limit b := by
  induction h with
  | full start => exact filling_full limit start
  | call _ wake c ih =>
    cases c with
    | take n now => exact ih.take hl.finite.plain n now
    | waitTime n now => exact ih.refill hl.finite.plain now
    | takeBy n deadline now =>
      exact ih.takeByRounds_snd hl wake n deadline (deadline - now + 2) now

/-- Amounts of whole numbers compare as the numbers do. -/
theorem lt_ofNat_iff {m n : Nat} (hm : m < 2 ^ 32) (hn : n < 2 ^ 32) :
    Amount.lt (Amount.ofNat m : Float) (Amount.ofNat n) = true ↔ m < n := by
  have hunits : ∀ k : Nat, k < 2 ^ 32 → units (bits (Amount.ofNat k : Float)) = k * unity := by
    intro k hk
    have hcast : k.toUInt64.toNat = k :=
      Nat.mod_eq_of_lt (hk.trans (Nat.pow_lt_pow_right Nat.one_lt_two (by decide)))
    have hexact := units_toFloat (n := k.toUInt64) (by omega)
    rwa [hcast] at hexact
  have hlt : Amount.lt (Amount.ofNat m : Float) (Amount.ofNat n) = true ↔
      bits (Amount.ofNat m : Float) < bits (Amount.ofNat n : Float) :=
    decide_eq_true_iff.trans (lt_iff (finite_ofNat m).plain (finite_ofNat n).plain)
  rw [hlt, ← Nat.not_le, ← units_le_iff (finite_ofNat n).plain (finite_ofNat m).plain,
    hunits m hm, hunits n hn, Nat.mul_le_mul_right_iff unity_pos, Nat.not_le]

/-- More tokens than fit into the bucket will never be there. -/
theorem Filling.waitTime_of_lt (hburst : limit.burst < 2 ^ 32) (hl : Steady limit)
    (h : Filling limit b) {n : Nat} (hn : n < 2 ^ 32) (hlt : limit.burst < n) (now : Instant) :
    (b.waitTime n now).1 = .ok none := by
  have hcap : Amount.lt (b.refill now).capacity (Amount.ofNat n) = true :=
    (h.refill hl.finite.plain now).capacity ▸ (lt_ofNat_iff hburst hn).2 hlt
  exact if_pos hcap

/-- Tokens that need not be waited for are there to be taken. -/
theorem Filling.take_of_waitTime (hl : Steady limit) (h : Filling limit b) {n : Nat}
    {now : Instant} (hready : (b.waitTime n now).1 = .ok (some 0)) :
    ((b.refill now).take n now).1 = true := by
  have h := h.refill hl.finite.plain now
  have hmissing : (Amount.ofNat n : Float) - (b.refill now).level ≤ 0 := by
    by_contra hpos
    have hready : (b.refill now).shortfall n = .ok (some 0) := hready
    have hle : ¬ Amount.le ((Amount.ofNat n : Float) - (b.refill now).level)
        (Amount.ofNat 0) = true := fun hle => hpos (of_decide_eq_true hle)
    unfold Bucket.shortfall at hready
    dsimp only at hready
    rw [if_neg hle] at hready
    split at hready
    · cases hready
    · split at hready
      · cases hready
      · rename_i d _
        have hmax : max d 1 = 0 := Option.some.inj (Except.ok.inj hready)
        unfold Span at *
        omega
  have hle : Amount.le (Amount.ofNat n) (b.refill now).level = true := by
    refine decide_eq_true ((le_iff (finite_ofNat n).plain h.finite_level.plain).2 ?_)
    by_contra hlt
    exact not_sub_le_zero (finite_ofNat n) (Nat.not_le.1 hlt) hmissing
  unfold Bucket.take
  dsimp only
  rw [refill_refill, if_pos hle]

/-- A round in which nothing overflows ends the wait, or it is followed by a sleep. -/
theorem Filling.claim_case (hl : Steady limit) (h : Filling limit b) {n : Nat} {now : Instant}
    (hclear : b.Clear n now) (deadline : Instant) :
    (∃ ok after, b.claim n deadline now = (.ok (if ok then .granted else .denied), after) ∧
      b.Ends n deadline now ok) ∨
      ∃ ready b', b.claim n deadline now = (.ok (.wait ready), b') := by
  obtain ⟨time, htime, hclock⟩ := hclear
  cases time with
  | none => exact .inl ⟨false, _, claim_of_never htime, .never htime⟩
  | some d =>
    by_cases hd : d = 0
    · subst hd
      refine .inl ⟨true, ((b.refill now).take n now).2, ?_, .ready htime⟩
      rw [claim_of_ready htime, h.take_of_waitTime hl htime]
    · have hclaim := claim_of_wait deadline htime hd (hclock d rfl hd)
      split at hclaim
      · rename_i hlate
        exact .inl ⟨false, _, hclaim, .late htime hd hlate⟩
      · exact .inr ⟨now + d, _, hclaim⟩

/-! ### The whole wait -/

section Wait

variable {wake : Instant → Instant} {n : Nat} {deadline now t : Instant}

/-- A wait with enough rounds at its disposal goes as its rounds do. -/
theorem Rounds.takeByRounds {α : Type} [Amount α] {b last after : Bucket α} {ok : Bool}
    {sleeps : List (Instant × Instant)} (h : Rounds wake n deadline b now sleeps last t)
    (hend : last.claim n deadline t = (.ok (if ok then .granted else .denied), after))
    {rounds : Nat} (hrounds : sleeps.length < rounds) :
    b.takeByRounds wake n deadline rounds now = (.ok ok, after, t) := by
  induction h generalizing rounds with
  | nil =>
    obtain ⟨rounds, rfl⟩ := Nat.exists_eq_add_of_lt hrounds
    unfold Bucket.takeByRounds
    rw [hend]
    cases ok <;> rfl
  | sleep h _ ih =>
    cases rounds with
    | zero => cases hrounds
    | succ rounds =>
      unfold Bucket.takeByRounds
      rw [h]
      exact ih hend (Nat.lt_of_succ_lt_succ hrounds)

/-- A wait that is turned away in its first round has no sleeps. -/
theorem Rounds.eq_nil_of_denied {α : Type} [Amount α] {b b' last after : Bucket α} {ok : Bool}
    {sleeps : List (Instant × Instant)} (h : Rounds wake n deadline b now sleeps last t)
    (hend : last.claim n deadline t = (.ok (if ok then .granted else .denied), after))
    (hdenied : b.claim n deadline now = (.ok .denied, b')) : sleeps = [] ∧ ok = false := by
  cases h with
  | nil =>
    rw [hdenied] at hend
    cases ok with
    | false => exact ⟨rfl, rfl⟩
    | true => cases hend
  | sleep hwait _ =>
    rw [hdenied] at hwait
    cases hwait

/-- The last round counts the request, as granted or as denied, and no other round does. -/
theorem Rounds.dealt_after {α : Type} [Amount α] {b last after : Bucket α} {ok : Bool}
    {sleeps : List (Instant × Instant)} (h : Rounds wake n deadline b now sleeps last t)
    (hend : last.claim n deadline t = (.ok (if ok then .granted else .denied), after)) :
    after.dealt = if ok then (b.granted + n, b.denied) else (b.granted, b.denied + 1) := by
  have hlast : (last.granted, last.denied) = (b.granted, b.denied) := h.dealt
  obtain ⟨hg, hd⟩ := Prod.mk.inj hlast
  have hdeals := dealt_claim hend
  unfold Bucket.dealt at hdeals
  rw [hg, hd] at hdeals
  cases ok with
  | true => exact hdeals
  | false => exact hdeals

/-- A wait in none of whose rounds anything overflows has a last round. -/
theorem Filling.exists_rounds (hl : Steady limit) (hwake : ∀ t, t ≤ wake t) (h : Filling limit b)
    (hclear : ∀ sleeps c t, Rounds wake n deadline b now sleeps c t → c.Clear n t) :
    ∃ sleeps last t ok after, Rounds wake n deadline b now sleeps last t ∧
      last.claim n deadline t = (.ok (if ok then .granted else .denied), after) ∧
      last.Ends n deadline t ok := by
  -- by induction on the time until the deadline
  generalize hleft : deadline - now = left
  induction left using Nat.strong_induction_on generalizing b now with
  | _ left ih =>
    obtain ⟨ok, after, hclaim, hends⟩ | ⟨ready, b', hclaim⟩ :=
      h.claim_case hl (hclear [] b now (.nil b now)) deadline
    · exact ⟨[], b, now, ok, after, .nil b now, hclaim, hends⟩
    · have hb' : Filling limit b' := by
        have := h.claim_snd hl n deadline now
        rwa [hclaim] at this
      have hbounds := (dealt_claim hclaim).2
      have hle := hwake ready
      obtain ⟨sleeps, last, t, ok, after, hrounds, hend⟩ :=
        ih (deadline - wake ready) (by unfold Instant at *; omega) hb'
          (fun sleeps c t hs => hclear _ c t (.sleep hclaim hs)) rfl
      exact ⟨(now, ready) :: sleeps, last, t, ok, after, .sleep hclaim hrounds, hend⟩

/-- What a wait for `n` tokens until `deadline` comes to: the sleeps, the bucket and the instant of
the last round, whether the tokens were taken, and the bucket afterwards. -/
structure Waited (limit : RateLimit) (wake : Instant → Instant) (n : Nat) (deadline : Instant)
    (b : Bucket Float) (now : Instant) (sleeps : List (Instant × Instant)) (last : Bucket Float)
    (t : Instant) (ok : Bool) (after : Bucket Float) : Prop where
  rounds : Rounds wake n deadline b now sleeps last t
  ends : last.Ends n deadline t ok
  /-- the last round is followed by no other -/
  claim : last.claim n deadline t = (.ok (if ok then .granted else .denied), after)
  returns : b.takeBy wake n deadline now = (.ok ok, after, t)
  length_le : sleeps.length ≤ deadline - now
  /-- a sleep takes a nanosecond at least, and it ends by the deadline -/
  bounds : ∀ s ∈ sleeps, s.1 < s.2 ∧ s.2 ≤ deadline
  /-- the clock moves on from each round to the next -/
  moves : (sleeps.map Prod.fst ++ [t]).Pairwise (· < ·)
  /-- nobody sleeps for more tokens than the bucket holds, -/
  never : limit.burst < n → sleeps = [] ∧ ok = false
  /-- nor for tokens that are not there by the deadline -/
  late : ∀ d, (b.waitTime n now).1 = .ok (some d) → d ≠ 0 → deadline < now + d →
    sleeps = [] ∧ ok = false
  dealt : after.dealt = if ok then (b.granted + n, b.denied) else (b.granted, b.denied + 1)

/-- A wait for tokens ends, whatever the bucket of a valid limit has been through before and however
late the sleeper wakes, unless something overflows: after no more rounds than there are nanoseconds
until the deadline, it has either taken the tokens or turned the request away, once. -/
theorem takeBy_ends (hvalid : limit.isValid = true) (hburst : limit.burst < 2 ^ 32)
    (hn : n < 2 ^ 32) (hb : Reached limit b) (hwake : ∀ t, t ≤ wake t)
    (hclear : ∀ sleeps c t, Rounds wake n deadline b now sleeps c t → c.Clear n t) :
    ∃ sleeps last t ok after, Waited limit wake n deadline b now sleeps last t ok after := by
  have hl := steady_of_isValid hvalid
  have hfilling := hb.filling hl
  obtain ⟨sleeps, last, t, ok, after, hrounds, hclaim, hends⟩ :=
    hfilling.exists_rounds hl hwake hclear
  have hlength := hrounds.length_le hwake
  refine ⟨sleeps, last, t, ok, after, hrounds, hends, hclaim,
    hrounds.takeByRounds hclaim (by omega), hlength, hrounds.bounds, hrounds.pairwise hwake,
    fun hlt => ?_, fun d hd hne hlate => ?_, hrounds.dealt_after hclaim⟩
  · have hnever := hfilling.waitTime_of_lt hburst hl hn hlt now
    exact hrounds.eq_nil_of_denied hclaim (claim_of_never hnever)
  · obtain ⟨time, htime, hclock⟩ := hclear [] b now (.nil b now)
    obtain rfl : time = some d := Except.ok.inj (htime.symm.trans hd)
    have hwait := claim_of_wait deadline hd hne (hclock d rfl hne)
    rw [if_pos hlate] at hwait
    exact hrounds.eq_nil_of_denied hclaim hwait

/-- Nothing overflows up to the last instant at which the longest wait of all can still begin. -/
theorem Filling.clear {last : Instant} (hl : Steady limit) (hr : Reaches limit last)
    (h : Filling limit b) (n : Nat) (hnow : now ≤ last) : b.Clear n now := by
  obtain ⟨d, hd, hlast⟩ := hr
  obtain ⟨time, htime, hle⟩ := (h.refill hl.finite.plain now).shortfall hl hd n
  refine ⟨time, htime, fun t ht _ => ?_⟩
  have := hle t ht
  unfold Instant Span at *
  omega

theorem Rounds.clear {last : Instant} (hl : Steady limit) (hr : Reaches limit last)
    (hwake : ∀ t ≤ last, wake t ≤ last) (hdeadline : deadline ≤ last)
    {b c : Bucket Float} {sleeps : List (Instant × Instant)}
    (h : Rounds wake n deadline b now sleeps c t) (hb : Filling limit b) (hnow : now ≤ last) :
    c.Clear n t := by
  induction h with
  | nil b now => exact hb.clear hl hr n hnow
  | @sleep b b' _ now ready _ _ hclaim _ ih =>
    have hb' : Filling limit b' := by
      have := hb.claim_snd hl n deadline now
      rwa [hclaim] at this
    have hready : ready ≤ last := (dealt_claim hclaim).2.2.trans hdeadline
    exact ih hb' (hwake ready hready)

/-- Three tokens a second, into a bucket for one. -/
def thirds : RateLimit := ⟨3, 1⟩

/-- The bucket of `thirds`, emptied at once. -/
def emptied : Bucket Float := ((full thirds.perSecond thirds.burst 0).answer id (.take 1 0)).2

theorem takeBy_ends_thirds : ∃ sleeps last t ok after,
    Waited thirds id 1 Span.second emptied 0 sleeps last t ok after := by
  have hvalid : thirds.isValid = true := by decide +kernel
  have hl := steady_of_isValid hvalid
  have hb : Reached thirds emptied := .call (.full 0) id (.take 1 0)
  have hr : Reaches thirds Span.second := ⟨333333333, by decide +kernel, by decide⟩
  exact takeBy_ends hvalid (by decide) (by decide) hb Nat.le_refl fun sleeps c t hs =>
    hs.clear hl hr (fun _ ht => ht) (Nat.le_refl _) (hb.filling hl) (Nat.zero_le _)

/-- Three tokens a second: the wait for the next one is rounded down, so that it takes a second
sleep, of a nanosecond. -/
example :
    (((full (3 : Float) 1 0).take 1 0).2.claim 1 Span.second 0).1 = .ok (.wait 333333333) ∧
      (((full (3 : Float) 1 0).take 1 0).2.takeBy id 1 Span.second 0).1 = .ok true ∧
        (((full (3 : Float) 1 0).take 1 0).2.takeBy id 1 Span.second 0).2.2 = 333333334 := by
  decide +kernel

end Wait

end Bucket

end GroundControl
