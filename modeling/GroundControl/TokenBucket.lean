import GroundControl.Seconds

/-!
# Token buckets

A throttle that lets a burst through at once and then a steady rate.  Tokens gather at a constant
rate up to the capacity of the bucket, and whoever wants to pass takes some out.

* `Amount α`, the arithmetic of token amounts: `Float`, or `Rat` where it is exact;
* `Bucket α`, with `refill`, `take`, `waitTime`;
* `Bucket.claim`, one round of a wait with a deadline, and `Bucket.takeBy`, the whole wait;
* `Bucket.dealt`, the tokens and the requests counted so far, with `dealt_take`, `dealt_claim`.

The amounts are parametric so that what the throttle lets through can be told apart from what
rounding does to it.
-/

namespace GroundControl

/-- The arithmetic of token amounts. -/
class Amount (α : Type) extends Add α, Sub α, Mul α, Div α where
  /-- a whole number of tokens -/
  ofNat : Nat → α
  /-- a span in seconds -/
  seconds : Span → α
  /-- a number of seconds as a span -/
  span : α → Except Fault Span
  /-- the smaller of two amounts, or the only one that is a number -/
  least : α → α → α
  lt : α → α → Bool
  le : α → α → Bool

instance : Amount Float where
  ofNat n := n.toUInt64.toFloat
  seconds := Span.toSeconds
  span := Span.ofSeconds
  least a b := if a.isNaN then b else if b.isNaN then a else if a < b then a else b
  lt a b := decide (a < b)
  le a b := decide (a ≤ b)

instance : Amount Rat where
  ofNat n := mkRat n 1
  seconds d := mkRat d Span.second
  span x := if x < 0 then .error .negativeSeconds else .ok (x * mkRat Span.second 1).ceil.toNat
  least a b := if a ≤ b then a else b
  lt a b := decide (a < b)
  le a b := decide (a ≤ b)

/-- A bucket of tokens. -/
structure Bucket (α : Type) where
  /-- tokens gathered in a second -/
  perSecond : α
  capacity : α
  /-- tokens in the bucket at the last refill -/
  level : α
  filledAt : Instant
  /-- tokens taken out so far -/
  granted : Nat
  /-- requests turned away so far -/
  denied : Nat

/-- How one round of a wait for tokens ends. -/
inductive Claim
  | granted
  | denied
  /-- try again at an instant that comes before the deadline -/
  | wait (until_ : Instant)
  deriving DecidableEq, Repr

/-- What one round of the wait for `n` tokens makes of the counts of a bucket. -/
def Claim.Deals (n : Nat) (deadline now : Instant) (before after : Nat × Nat) :
    Claim → Prop
  | .granted => after = (before.1 + n, before.2)
  | .denied => after = (before.1, before.2 + 1)
  | .wait ready => after = before ∧ now < ready ∧ ready ≤ deadline

namespace Bucket

variable {α : Type} [Amount α]

/-- A full bucket. -/
def full (perSecond : α) (burst : Nat) (now : Instant) : Bucket α :=
  ⟨perSecond, Amount.ofNat burst, Amount.ofNat burst, now, 0, 0⟩

/-- Add what has gathered since the last refill. -/
def refill (b : Bucket α) (now : Instant) : Bucket α :=
  let elapsed := now.since b.filledAt
  if elapsed = 0 then b
  else
    { b with
      level := Amount.least (b.level + Amount.seconds elapsed * b.perSecond) b.capacity
      filledAt := now }

/-- Count a request that is turned away. -/
def deny (b : Bucket α) : Bucket α := { b with denied := b.denied + 1 }

/-- Take `n` tokens, if they are there. -/
def take (b : Bucket α) (n : Nat) (now : Instant) : Bool × Bucket α :=
  let b := b.refill now
  if Amount.le (Amount.ofNat n) b.level then
    (true, { b with level := b.level - Amount.ofNat n, granted := b.granted + n })
  else (false, b.deny)

/-- How long until the bucket holds `n` tokens, counted from the last refill; nothing if it never
will. -/
def shortfall (b : Bucket α) (n : Nat) : Except Fault (Option Span) :=
  let needed : α := Amount.ofNat n
  if Amount.lt b.capacity needed then .ok none
  else
    let missing := needed - b.level
    if Amount.le missing (Amount.ofNat 0) then .ok (some 0)
    else
      match Amount.span (missing / b.perSecond) with
      | .error fault => .error fault
      | .ok d => .ok (some (max d 1))

/-- How long until `n` tokens are there, at least a nanosecond if they are not there now. -/
def waitTime (b : Bucket α) (n : Nat) (now : Instant) : Except Fault (Option Span) × Bucket α :=
  let b := b.refill now
  (b.shortfall n, b)

/-- One round of the wait for `n` tokens that ends at `deadline`. -/
def claim (b : Bucket α) (n : Nat) (deadline now : Instant) : Except Fault Claim × Bucket α :=
  match b.waitTime n now with
  | (.error fault, b) => (.error fault, b)
  | (.ok none, b) => (.ok .denied, b.deny)
  | (.ok (some 0), b) =>
      let (ok, b) := b.take n now
      (.ok (if ok then .granted else .denied), b)
  | (.ok (some d), b) =>
      match now.after d with
      | .error fault => (.error fault, b)
      | .ok ready => if deadline < ready then (.ok .denied, b.deny) else (.ok (.wait ready), b)

/-- The rounds of a wait, `rounds` of them at most; `wake` tells when a sleeper that wants to wake
at an instant does so. -/
def takeByRounds (wake : Instant → Instant) (n : Nat) (deadline : Instant) :
    Nat → Bucket α → Instant → Except Fault Bool × Bucket α × Instant
  | 0, b, now => (.ok false, b, now)
  | rounds + 1, b, now =>
      match b.claim n deadline now with
      | (.error fault, b) => (.error fault, b, now)
      | (.ok .granted, b) => (.ok true, b, now)
      | (.ok .denied, b) => (.ok false, b, now)
      | (.ok (.wait ready), b) => takeByRounds wake n deadline rounds b (wake ready)

/-- Wait for `n` tokens until `deadline` at most.  Every round but the last one moves the clock on
and stays before the deadline, which bounds their number. -/
def takeBy (wake : Instant → Instant) (b : Bucket α) (n : Nat) (deadline now : Instant) :
    Except Fault Bool × Bucket α × Instant :=
  takeByRounds wake n deadline (deadline - now + 2) b now

/-! ### Counters -/

/-- The tokens taken out so far, and the requests turned away. -/
def dealt (b : Bucket α) : Nat × Nat := (b.granted, b.denied)

@[simp] theorem dealt_refill (b : Bucket α) (now : Instant) : (b.refill now).dealt = b.dealt := by
  unfold refill
  dsimp only
  split <;> rfl

theorem dealt_take (b : Bucket α) (n : Nat) (now : Instant) :
    (b.take n now).2.dealt =
      if (b.take n now).1 then (b.granted + n, b.denied) else (b.granted, b.denied + 1) := by
  have hr : ((b.refill now).granted, (b.refill now).denied) = (b.granted, b.denied) :=
    b.dealt_refill now
  obtain ⟨hg, hd⟩ := Prod.mk.inj hr
  unfold take
  dsimp only
  split
  · exact Prod.ext (congrArg (· + n) hg) hd
  · exact Prod.ext hg (congrArg (· + 1) hd)

/-- A round of a wait takes the tokens out, or it turns the request away, or it leaves both counts
as they are and waits for a later instant, the deadline at the latest. -/
theorem dealt_claim {b b' : Bucket α} {n : Nat} {deadline now : Instant} {claim : Claim}
    (h : b.claim n deadline now = (.ok claim, b')) :
    claim.Deals n deadline now b.dealt b'.dealt := by
  have hr : ((b.refill now).granted, (b.refill now).denied) = (b.granted, b.denied) :=
    b.dealt_refill now
  obtain ⟨hg, hd⟩ := Prod.mk.inj hr
  have hdeny : (b.refill now).deny.dealt = (b.granted, b.denied + 1) :=
    Prod.ext hg (congrArg (· + 1) hd)
  unfold Bucket.claim waitTime at h
  dsimp only at h
  cases hs : (b.refill now).shortfall n with
  | error fault =>
    rw [hs] at h
    cases h
  | ok time =>
    rw [hs] at h
    cases time with
    | none =>
      cases h
      exact hdeny
    | some d =>
      cases d with
      | zero =>
        have ht := (b.refill now).dealt_take n now
        rw [hg, hd] at ht
        have h : (Except.ok (if ((b.refill now).take n now).1 then Claim.granted else .denied),
            ((b.refill now).take n now).2) = (.ok claim, b') := h
        cases hok : ((b.refill now).take n now).1 with
        | true =>
          rw [hok] at h ht
          cases h
          exact ht
        | false =>
          rw [hok] at h ht
          cases h
          exact ht
      | succ d =>
        have h : (match now.after (d + 1) with
            | .error fault => (.error fault, b.refill now)
            | .ok ready =>
                if deadline < ready then (.ok .denied, (b.refill now).deny)
                else (.ok (.wait ready), b.refill now)) = (Except.ok claim, b') := h
        cases ha : now.after (d + 1) with
        | error fault =>
          rw [ha] at h
          cases h
        | ok ready =>
          rw [ha] at h
          dsimp only at h
          split at h
          · cases h
            exact hdeny
          · rename_i hle
            cases h
            have hlt : now < ready :=
              Instant.eq_of_after_eq_ok ha ▸ Nat.lt_add_of_pos_right (Nat.succ_pos d)
            exact ⟨b.dealt_refill now, hlt, Nat.le_of_not_lt hle⟩

end Bucket

end GroundControl
