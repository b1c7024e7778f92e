import LeafFringe.Event
import LeafFringe.Fault

/-!
# Calls that report and may fail

What was reported stays reported: a call that fails has left its events in the ledgers all the
same. An `Outcome` has the events of the whole call, whichever way it ended, and `report` stands
in a program where the event is reported.
-/

namespace LeafFringe

variable {β γ : Type}

/-- What became of a call: its result or the fault that ended it, with all events until then. -/
inductive Outcome (β : Type) where
  | ok (done : Logged β)
  | error (why : Logged Fault)
deriving DecidableEq, Repr

namespace Outcome

/-- The events of a call, and how it ended. -/
def logged : Outcome β → Logged (Except Fault β)
  | ok done => Except.ok <$> done
  | error why => Except.error <$> why

@[simp] theorem logged_ok (done : Logged β) : (ok done).logged = Except.ok <$> done := rfl

@[simp] theorem logged_error (why : Logged Fault) :
    (error why : Outcome β).logged = Except.error <$> why := rfl

/-- The call with the events of an earlier one before its own. -/
def after (earlier : List Event) : Outcome β → Outcome β
  | ok done => ok ⟨done.value, earlier ++ done.events⟩
  | error why => error ⟨why.value, earlier ++ why.events⟩

@[simp] theorem after_ok (earlier : List Event) (done : Logged β) :
    (ok done).after earlier = ok ⟨done.value, earlier ++ done.events⟩ := rfl

@[simp] theorem after_error (earlier : List Event) (why : Logged Fault) :
    (error why : Outcome β).after earlier = error ⟨why.value, earlier ++ why.events⟩ := rfl

@[simp] theorem after_nil (call : Outcome β) : call.after [] = call := by
  cases call <;> rfl

theorem after_after (first second : List Event) (call : Outcome β) :
    (call.after second).after first = call.after (first ++ second) := by
  cases call <;> simp

instance : Monad Outcome where
  pure b := ok (pure b)
  bind
    | ok done, f => (f done.value).after done.events
    | error why, _ => error why

@[simp] theorem pure_eq_ok (b : β) : (pure b : Outcome β) = ok (pure b) := rfl

@[simp] theorem ok_bind (done : Logged β) (f : β → Outcome γ) :
    ok done >>= f = (f done.value).after done.events := rfl

@[simp] theorem ok_pure_bind (b : β) (f : β → Outcome γ) : ok (pure b) >>= f = f b :=
  after_nil (f b)

/-- Two calls that do not fail, one after the other. -/
theorem ok_bind_eq {done : Logged β} {f : β → Outcome γ} {g : β → Logged γ}
    (h : f done.value = ok (g done.value)) : ok done >>= f = ok (done >>= g) := by
  rw [ok_bind, h]
  rfl

@[simp] theorem error_bind (why : Logged Fault) (f : β → Outcome γ) :
    error why >>= f = error why := rfl

@[simp] theorem ok_map (done : Logged β) (f : β → γ) : f <$> ok done = ok (f <$> done) := rfl

@[simp] theorem error_map (why : Logged Fault) (f : β → γ) : f <$> error why = error why := rfl

theorem after_bind (earlier : List Event) (call : Outcome β) (f : β → Outcome γ) :
    call.after earlier >>= f = (call >>= f).after earlier := by
  cases call <;> simp [after_after]

instance : LawfulMonad Outcome := LawfulMonad.mk' Outcome
  (fun call => by cases call <;> simp)
  (fun b f => by simp)
  (fun call f g => by cases call <;> simp [after_bind])

/-- A failing call has no result to map. -/
theorem logged_map (f : β → γ) (call : Outcome β) :
    (f <$> call).logged = (f <$> ·) <$> call.logged := by
  cases call <;> exact Logged.ext rfl (by simp)

/-- A call that reports nothing. -/
instance : MonadLift (Except Fault) Outcome where
  monadLift
    | .ok b => ok (pure b)
    | .error why => error (pure why)

@[simp] theorem lift_ok (b : β) : (liftM (.ok b : Except Fault β) : Outcome β) = ok (pure b) := rfl

@[simp] theorem lift_error (why : Fault) :
    (liftM (.error why : Except Fault β) : Outcome β) = error (pure why) := rfl

/-- A call that cannot fail. -/
instance : MonadLift Logged Outcome where
  monadLift := ok

@[simp] theorem lift_logged (done : Logged β) : (liftM done : Outcome β) = ok done := rfl

/-- Reports an event, whatever comes of the rest of the call. -/
def report (e : Event) : Outcome Unit := ok ⟨(), [e]⟩

@[simp] theorem report_bind (e : Event) (f : Unit → Outcome β) :
    report e >>= f = (f ()).after [e] := rfl

end Outcome

end LeafFringe
