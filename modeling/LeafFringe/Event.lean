/-!
# The ledger of rebalancing

Every branch that moves elements between nodes reports one `Event`. A trace line and the name
of a counter are both read off the event, so the two ledgers correspond entry by entry.
`Logged` is a result together with the events of its computation.
-/

namespace LeafFringe

/-- What one rebalancing step did. -/
inductive Event where
  /-- An insertion pushed `moved` elements into the left sibling. -/
  | shiftedLeft (moved : Nat)
  | shiftedRight (moved : Nat)
  /-- An insertion split an overfull run after `front` elements. -/
  | split (front : Nat)
  /-- A removal took `moved` elements from the left sibling. -/
  | borrowedLeft (moved : Nat)
  | borrowedRight (moved : Nat)
  | mergedLeft
  | mergedRight
  /-- A removal left a lone leaf too short. -/
  | underflow
  /-- A partial leaf of `size` elements was merged with the node before it. -/
  | absorbed (size total : Nat)
deriving DecidableEq, Repr

namespace Event

/-- The trace line of an event among nodes that are called `name`. -/
def message (name : String) : Event → String
  | shiftedLeft k => name ++ ": pushing " ++ toString k ++ " elements to the left sibling"
  | shiftedRight k => name ++ ": pushing " ++ toString k ++ " elements to the right sibling"
  | split k => name ++ ": splitting a full leaf at " ++ toString k
  | borrowedLeft k => name ++ ": stealing " ++ toString k ++ " elements from the left sibling"
  | borrowedRight k => name ++ ": stealing " ++ toString k ++ " elements from the right sibling"
  | mergedLeft => name ++ ": merging with the left sibling"
  | mergedRight => name ++ ": merging with the right sibling"
  | underflow => name ++ ": underflow of a lone leaf"
  | absorbed k n =>
    name ++ ": absorbing a partial leaf of " ++ toString k ++ " into its predecessor (" ++
      toString n ++ " total)"

/-- The counter that an event increments. -/
def counter : Event → String
  | shiftedLeft _ => "leaf::insert::shift_left"
  | shiftedRight _ => "leaf::insert::shift_right"
  | split _ => "leaf::insert::split"
  | borrowedLeft _ => "leaf::remove::borrow_left"
  | borrowedRight _ => "leaf::remove::borrow_right"
  | mergedLeft => "leaf::remove::merge_left"
  | mergedRight => "leaf::remove::merge_right"
  | underflow => "leaf::remove::underflow"
  | absorbed _ _ => "leaf::append::absorb_partial"

end Event

/-- A result and the events of its computation, in their order. -/
structure Logged (β : Type) where
  value : β
  events : List Event
deriving DecidableEq, Repr

namespace Logged

variable {β γ : Type}

instance : Monad Logged where
  pure b := ⟨b, []⟩
  bind x f :=
    let y := f x.value
    ⟨y.value, x.events ++ y.events⟩

@[ext] theorem ext {x y : Logged β} (hv : x.value = y.value) (he : x.events = y.events) :
    x = y := by
  cases x; cases y; cases hv; cases he; rfl

@[simp] theorem value_pure (b : β) : (pure b : Logged β).value = b := rfl

@[simp] theorem events_pure (b : β) : (pure b : Logged β).events = [] := rfl

@[simp] theorem value_bind (x : Logged β) (f : β → Logged γ) :
    (x >>= f).value = (f x.value).value := rfl

@[simp] theorem events_bind (x : Logged β) (f : β → Logged γ) :
    (x >>= f).events = x.events ++ (f x.value).events := rfl

@[simp] theorem value_map (f : β → γ) (x : Logged β) : (f <$> x).value = f x.value := rfl

@[simp] theorem events_map (f : β → γ) (x : Logged β) : (f <$> x).events = x.events := by
  simp [Functor.map]

theorem map_mk (f : β → γ) (b : β) (events : List Event) :
    f <$> (⟨b, events⟩ : Logged β) = ⟨f b, events⟩ := by
  ext <;> simp

instance : LawfulMonad Logged := LawfulMonad.mk' Logged
  (fun x => by ext <;> simp)
  (fun a f => by ext <;> simp)
  (fun x f g => by ext <;> simp)

/-- The lines that the events leave in a trace of nodes called `name`. -/
def trace (name : String) (x : Logged β) : List String := x.events.map (Event.message name)

/-- The counters incremented, in their order. -/
def counters (x : Logged β) : List String := x.events.map Event.counter

@[simp] theorem trace_map (name : String) (f : β → γ) (x : Logged β) :
    (f <$> x).trace name = x.trace name := by
  simp [trace]

@[simp] theorem counters_map (f : β → γ) (x : Logged β) : (f <$> x).counters = x.counters := by
  simp [counters]

theorem length_trace (name : String) (x : Logged β) :
    (x.trace name).length = x.counters.length := by
  simp [trace, counters]

end Logged

end LeafFringe
