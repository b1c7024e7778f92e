/-!
# Strings of JSON

A string is written with as few escapes as the format admits: quotes, backslashes and controls.
The reader accepts every escape of the format, among them pairs of surrogates for characters
beyond the first plane, and refuses half of such a pair.
-/

namespace LeafFringe.Json

/-- The letter that stands for a character after a backslash. -/
def letter? : Char → Option Char
  | '"' => some '"'
  | '\\' => some '\\'
  | '\x08' => some 'b'
  | '\x0c' => some 'f'
  | '\n' => some 'n'
  | '\r' => some 'r'
  | '\t' => some 't'
  | _ => none

/-- The least code point that may stand for itself. -/
def firstPlain : Nat := 0x20

def writeChar (c : Char) : List Char :=
  match letter? c with
  | some l => ['\\', l]
  | none =>
    if firstPlain ≤ c.toNat then [c]
    else ['\\', 'u', '0', '0', Nat.digitChar (c.toNat / 16), Nat.digitChar (c.toNat % 16)]

def writeString (s : List Char) : List Char := '"' :: (s.flatMap writeChar ++ ['"'])

/-- The value of a hexadecimal digit of either case. -/
def hexDigit? (c : Char) : Option Nat :=
  if '0' ≤ c ∧ c ≤ '9' then some (c.toNat - '0'.toNat)
  else if 'a' ≤ c ∧ c ≤ 'f' then some (c.toNat - 'a'.toNat + 10)
  else if 'A' ≤ c ∧ c ≤ 'F' then some (c.toNat - 'A'.toNat + 10)
  else none

/-- Four hexadecimal digits, and what follows them. -/
def hex4? : List Char → Option (Nat × List Char)
  | a :: b :: c :: d :: rest => do
    let a ← hexDigit? a
    let b ← hexDigit? b
    let c ← hexDigit? c
    let d ← hexDigit? d
    return (((a * 16 + b) * 16 + c) * 16 + d, rest)
  | _ => none

/-- The character of one or two escaped units of sixteen bits. -/
def unicode? (s : List Char) : Option (Char × List Char) := do
  let (unit, rest) ← hex4? s
  if 0xdc00 ≤ unit ∧ unit ≤ 0xdfff then none
  else if 0xd800 ≤ unit ∧ unit ≤ 0xdbff then
    match rest with
    | '\\' :: 'u' :: rest => do
      let (low, rest) ← hex4? rest
      if 0xdc00 ≤ low ∧ low ≤ 0xdfff then
        return (Char.ofNat (0x10000 + (unit - 0xd800) * 0x400 + (low - 0xdc00)), rest)
      else none
    | _ => none
  else return (Char.ofNat unit, rest)

/-- The character of an escape, after its backslash. -/
def escaped? : List Char → Option (Char × List Char)
  | '"' :: rest => some ('"', rest)
  | '\\' :: rest => some ('\\', rest)
  | '/' :: rest => some ('/', rest)
  | 'b' :: rest => some ('\x08', rest)
  | 'f' :: rest => some ('\x0c', rest)
  | 'n' :: rest => some ('\n', rest)
  | 'r' :: rest => some ('\r', rest)
  | 't' :: rest => some ('\t', rest)
  | 'u' :: rest => unicode? rest
  | _ => none

theorem length_of_hex4? {s rest : List Char} {n : Nat} (h : hex4? s = some (n, rest)) :
    rest.length < s.length := by
  unfold hex4? at h
  split at h
  · simp only [bind, Option.bind_eq_some_iff, pure, Option.some.injEq, Prod.mk.injEq] at h
    obtain ⟨_, _, _, _, _, _, _, _, _, rfl⟩ := h
    simp only [List.length_cons]
    omega
  · cases h

theorem length_of_unicode? {s rest : List Char} {c : Char} (h : unicode? s = some (c, rest)) :
    rest.length < s.length := by
  simp only [unicode?, bind, Option.bind_eq_some_iff] at h
  obtain ⟨⟨unit, r⟩, h₁, h⟩ := h
  have hr := length_of_hex4? h₁
  simp only at h
  split at h
  · cases h
  · split at h
    · split at h
      · simp only [Option.bind_eq_some_iff] at h
        obtain ⟨⟨low, r'⟩, h₂, h⟩ := h
        have hr' := length_of_hex4? h₂
        simp only at h
        split at h
        · obtain ⟨-, rfl⟩ := Prod.mk.inj (Option.some.inj h)
          simp only [List.length_cons] at hr
          omega
        · cases h
      · cases h
    · obtain ⟨-, rfl⟩ := Prod.mk.inj (Option.some.inj h)
      exact hr

theorem length_of_escaped? {s rest : List Char} {c : Char} (h : escaped? s = some (c, rest)) :
    rest.length < s.length := by
  unfold escaped? at h
  split at h
  case h_9 r =>
    have := length_of_unicode? h
    simp only [List.length_cons]
    omega
  case h_10 => cases h
  all_goals
    cases h
    simp

/-- The rest of a string up to its closing quote, and what follows that. -/
def readChars (s : List Char) : Option (List Char × List Char) :=
  match s with
  | [] => none
  | '"' :: rest => some ([], rest)
  | '\\' :: rest =>
    match h : escaped? rest with
    | none => none
    | some (c, rest') =>
      have := length_of_escaped? h
      (readChars rest').map fun (t, after) => (c :: t, after)
  | c :: rest =>
    if firstPlain ≤ c.toNat then (readChars rest).map fun (t, after) => (c :: t, after)
    else none
termination_by s.length
decreasing_by
  · simp only [List.length_cons]
    omega
  · simp

theorem length_of_readChars {s t rest : List Char} (h : readChars s = some (t, rest)) :
    rest.length < s.length := by
  fun_induction readChars s generalizing t with
  | case1 => cases h
  | case2 r =>
    cases h
    simp
  | case3 r hr => cases h
  | case4 r c r' hr hl ih =>
    obtain ⟨⟨t', after⟩, h₁, h₂⟩ := Option.map_eq_some_iff.1 h
    cases h₂
    have := ih h₁
    simp only [List.length_cons]
    omega
  | case5 c r hq hb hp ih =>
    obtain ⟨⟨t', after⟩, h₁, h₂⟩ := Option.map_eq_some_iff.1 h
    cases h₂
    have := ih h₁
    simp only [List.length_cons]
    omega
  | case6 => cases h

end LeafFringe.Json
