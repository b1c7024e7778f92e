import LeafFringe.Fault
import LeafFringe.Json.Numeral
import LeafFringe.Json.Quoted

/-!
# Reading JSON

A reader takes a value of one type from the front of a text and hands back what follows it,
which is always less than it was given. There is no intermediate tree: the type decides what
the text must be, and an error is reported where reading stops.
-/

namespace LeafFringe.Json

/-- Why a text cannot be read. -/
inductive ReadError where
  /-- The text is no JSON, or not of the type that was asked for. -/
  | malformed
  /-- The elements of a node could be read, but their number fits no such node. -/
  | arity (e : ArityError)
deriving DecidableEq, Repr

/-- Reads a value from the front of a text. -/
structure Reader (α : Type) where
  run : List Char → Except ReadError (α × List Char)
  shrinks : ∀ {s a rest}, run s = .ok (a, rest) → rest.length < s.length

def isBlank (c : Char) : Bool := c == ' ' || c == '\t' || c == '\n' || c == '\r'

def skipBlanks (s : List Char) : List Char := s.dropWhile isBlank

theorem length_skipBlanks (s : List Char) : (skipBlanks s).length ≤ s.length :=
  (List.dropWhile_suffix _).length_le

namespace Reader

variable {α β : Type}

/-- A reader that starts at the first character that is not blank, and knows one error only. -/
def ofOption (f : List Char → Option (α × List Char))
    (hf : ∀ {s a rest}, f s = some (a, rest) → rest.length < s.length) : Reader α where
  run s :=
    match f (skipBlanks s) with
    | some found => .ok found
    | none => .error .malformed
  shrinks {s a rest} h := by
    split at h
    · rename_i found hfound
      cases h
      exact Nat.lt_of_lt_of_le (hf hfound) (length_skipBlanks s)
    · cases h

/-- Checks what was read before anything after it is looked at. -/
def refine (r : Reader α) (f : α → Except ReadError β) : Reader β where
  run s :=
    match r.run s with
    | .ok (a, rest) => (f a).map fun b => (b, rest)
    | .error e => .error e
  shrinks {s b rest} h := by
    split at h
    · rename_i a r' hr
      cases hb : f a with
      | error e => rw [hb] at h; cases h
      | ok b' =>
        rw [hb] at h
        cases h
        exact r.shrinks hr
    · cases h

/-- The elements of an array from the first one on, up to the closing bracket. -/
def items (elem : Reader α) (s : List Char) : Except ReadError (List α × List Char) :=
  match h : elem.run s with
  | .error e => .error e
  | .ok (a, rest) =>
    match hs : skipBlanks rest with
    | ']' :: after => .ok ([a], after)
    | ',' :: after =>
      have : after.length < s.length := by
        have h₁ := elem.shrinks h
        have h₂ := length_skipBlanks rest
        rw [hs, List.length_cons] at h₂
        omega
      (items elem after).map fun (l, after) => (a :: l, after)
    | _ => .error .malformed
termination_by s.length

theorem items_shrinks {elem : Reader α} {s rest : List Char} {l : List α}
    (h : elem.items s = .ok (l, rest)) : rest.length < s.length := by
  fun_induction items elem s generalizing l with
  | case1 => cases h
  | case2 s a r hr after hs =>
    cases h
    have := elem.shrinks hr
    have := length_skipBlanks r
    rw [hs] at this
    simp only [List.length_cons] at this
    omega
  | case3 s a r hr after hs hlt ih =>
    cases hi : items elem after with
    | error e => rw [hi] at h; cases h
    | ok found =>
      rw [hi] at h
      cases h
      exact Nat.lt_trans (ih hi) hlt
  | case4 => cases h

/-- Reads an array. -/
def list (elem : Reader α) : Reader (List α) where
  run s :=
    match skipBlanks s with
    | '[' :: rest =>
      match skipBlanks rest with
      | ']' :: after => .ok ([], after)
      | _ => elem.items rest
    | _ => .error .malformed
  shrinks {s l rest} h := by
    have h₁ := length_skipBlanks s
    split at h
    · rename_i r hr
      rw [hr] at h₁
      simp only [List.length_cons] at h₁
      split at h
      · rename_i after hafter
        cases h
        have h₂ := length_skipBlanks r
        rw [hafter] at h₂
        simp only [List.length_cons] at h₂
        omega
      · have h₃ := items_shrinks h
        omega
    · cases h

/-- Reads a whole text, which may have blanks around the value. -/
def parse (r : Reader α) (s : List Char) : Except ReadError α :=
  match r.run s with
  | .error e => .error e
  | .ok (a, rest) => if (skipBlanks rest).isEmpty then .ok a else .error .malformed

end Reader

/-- Reads a number of which `f` makes a value. -/
def numeral? {α : Type} (f : Numeral → Option α) (s : List Char) : Option (α × List Char) := do
  let (n, rest) ← Numeral.scan? s
  return (← f n, rest)

theorem length_of_numeral? {α : Type} {f : Numeral → Option α} {s rest : List Char} {a : α}
    (h : numeral? f s = some (a, rest)) : rest.length < s.length := by
  simp only [numeral?, bind, Option.bind_eq_some_iff] at h
  obtain ⟨⟨n, r⟩, h₁, b, h₂, h₃⟩ := h
  simp only at h₃
  obtain ⟨-, rfl⟩ := Prod.mk.inj (Option.some.inj h₃)
  exact Numeral.length_of_scan? h₁

def bool? : List Char → Option (Bool × List Char)
  | 't' :: 'r' :: 'u' :: 'e' :: rest => some (true, rest)
  | 'f' :: 'a' :: 'l' :: 's' :: 'e' :: rest => some (false, rest)
  | _ => none

theorem length_of_bool? {s rest : List Char} {b : Bool} (h : bool? s = some (b, rest)) :
    rest.length < s.length := by
  unfold bool? at h
  split at h
  case h_3 => cases h
  all_goals
    cases h
    simp only [List.length_cons]
    omega

def string? : List Char → Option (List Char × List Char)
  | '"' :: rest => readChars rest
  | _ => none

theorem length_of_string? {s t rest : List Char} (h : string? s = some (t, rest)) :
    rest.length < s.length := by
  unfold string? at h
  split at h
  · have := length_of_readChars h
    simp only [List.length_cons]
    omega
  · cases h

/-- Values between brackets, with commas and no blanks. -/
def writeArray (values : List (List Char)) : List Char :=
  '[' :: (List.intercalate [','] values ++ [']'])

end LeafFringe.Json
