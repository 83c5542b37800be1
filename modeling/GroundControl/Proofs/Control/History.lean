import GroundControl.Control
import GroundControl.Proofs.Service.Signing

/-!
# Histories of a control centre

What can happen to a control centre and the services it has started, one thing after the other.
After a synchronisation the new epoch is on its way to every attached service, and each service
learns of it at its own time, in any order, or never.

* `Push`, an epoch on its way to a service; `Signed`, a frame that was handed to a link;
* `Situation τ`: the control centre with its services, the pushes on their way, and the trail of
  frames;
* `Control.settled`: every service that was let go of has ended;
* `Happening τ`, what can happen; `Situation.happen`; `Situation.after`, a list of happenings.
-/

namespace GroundControl

/-- An epoch on its way to the service with a number. -/
structure Push where
  service : Nat
  epoch : Nat

/-- A frame that a service has handed to the link of its network. -/
structure Signed where
  service : Nat
  network : NetworkId
  frame : Frame
  /-- the epoch of the control centre at that time -/
  current : Nat

/-- A control centre among what goes on around it. -/
structure Situation (τ : Type) where
  control : Control τ
  /-- the epochs that have not reached their service yet -/
  pushes : List Push
  /-- the frames of all services, the earliest first -/
  trail : List Signed

/-- What can happen to a control centre and its services. -/
inductive Happening (τ : Type)
  /-- the epoch is advanced to a reading of the wall clock -/
  | synchronize (wall : WallTime)
  /-- one of the epochs that are on their way reaches its service -/
  | arrive (i : Nat)
  | attach (network : NetworkId) (carrier : τ) (now : Instant)
  | addNetwork (settings : NetworkSettings) (carrier : τ) (now : Instant)
  | detach (network : NetworkId)
  | detachAll
  /-- anything that can happen to a service, but that nobody else tells it of an epoch -/
  | turn (k : Nat) (t : Turn) (h : t.epoch? = none)

/-- Every service that was let go of has ended. -/
def Control.settled {τ : Type} (c : Control τ) : Bool :=
  (List.range c.services.length).all fun k =>
    c.attached.values.contains k || (c.service? k).all (·.isOver)

namespace Situation

variable {τ : Type}

/-- A control centre that has just been made. -/
def begin (control : Control τ) : Situation τ := ⟨control, [], []⟩

/-- Start a service.  Whoever lets go of a service waits until it has ended, and meanwhile the
control centre starts no other. -/
def start (s : Situation τ) (f : Control τ → Except DispatchError Nat × Control τ) :
    Situation τ :=
  if s.control.settled then { s with control := (f s.control).2 } else s

variable [Carrier τ]

/-- Something happens to the service with a number. -/
def serve (s : Situation τ) (k : Nat) (t : Turn) : Situation τ :=
  match s.control.service? k with
  | none => s
  | some service =>
      let new := (service.turn t).frames.drop service.frames.length
      { s with
        control := s.control.modifyService k fun _ => service.turn t
        trail := s.trail ++ new.map fun f =>
          ⟨k, service.station.id, f.1, s.control.clock.current⟩ }

/-- What becomes of a situation. -/
def happen (s : Situation τ) : Happening τ → Situation τ
  | .synchronize wall =>
      let (epoch, control) := s.control.synchronize wall
      { s with control, pushes := s.pushes ++ control.attached.values.map (⟨·, epoch⟩) }
  | .arrive i =>
      match s.pushes[i]? with
      | none => s
      | some push =>
          { s with pushes := s.pushes.eraseIdx i }.serve push.service
            (.order ⟨.adoptEpoch push.epoch, none⟩)
  | .attach network carrier now => s.start (·.attach network carrier now)
  | .addNetwork settings carrier now => s.start (·.addNetwork settings carrier now)
  | .detach network => { s with control := (s.control.detach network).2 }
  | .detachAll => { s with control := s.control.detachAll.2 }
  | .turn k t _ => s.serve k t

/-- What becomes of a situation in several happenings, one after the other. -/
def after (s : Situation τ) (l : List (Happening τ)) : Situation τ := l.foldl happen s

@[simp] theorem after_nil (s : Situation τ) : s.after [] = s := rfl

@[simp] theorem after_cons (s : Situation τ) (x : Happening τ) (l : List (Happening τ)) :
    s.after (x :: l) = (s.happen x).after l := rfl

@[simp] theorem after_append (s : Situation τ) (l m : List (Happening τ)) :
    s.after (l ++ m) = (s.after l).after m :=
  List.foldl_append

end Situation

end GroundControl
