import LeafFringe.Text.Quoted
import Mathlib.Tactic.Common

/-!
# Where a quoted text ends

In quotes each character is a unit of its own: itself, a letter behind a backslash, or its code
point between braces. No unit is the beginning of another and none begins with a quote, so a
quoted text tells what it quotes and where it ends, whichever characters can be printed. It is
made of such characters only.
-/

namespace LeafFringe.Text

/-- Runs up to the first stop of either are the same in the same text. -/
theorem append_cons_inj {α : Type} {run run' rest rest' : List α} {stop stop' : α}
    (hrun : stop' ∉ run) (hrun' : stop ∉ run')
    (h : run ++ stop :: rest = run' ++ stop' :: rest') :
    run = run' ∧ stop = stop' ∧ rest = rest' := by
  rcases List.append_eq_append_iff.mp h with ⟨more, rfl, hmore⟩ | ⟨more, rfl, hmore⟩
  · cases more with
    | nil => simpa using hmore
    | cons a more =>
      obtain ⟨rfl, -⟩ := List.cons.inj hmore
      exact absurd (by simp) hrun'
  · cases more with
    | nil => simpa [eq_comm] using hmore
    | cons a more =>
      obtain ⟨rfl, -⟩ := List.cons.inj hmore
      exact absurd (by simp) hrun

/-! ### Code points -/

theorem exists_digitChar {n : Nat} {c : Char} (h : c ∈ Nat.toDigits 16 n) :
    ∃ d < 16, c = Nat.digitChar d := by
  induction n using Nat.strongRecOn with
  | ind n ih =>
    rcases Nat.lt_or_ge n 16 with hlt | hge
    · rw [Nat.toDigits_of_lt_base hlt, List.mem_singleton] at h
      exact ⟨n, hlt, h⟩
    · rw [Nat.toDigits_of_base_le (by decide) hge, List.mem_append, List.mem_singleton] at h
      rcases h with hmore | hlast
      · exact ih (n / 16) (by omega) hmore
      · exact ⟨n % 16, Nat.mod_lt n (by decide), hlast⟩

theorem brace_notMem_toDigits (n : Nat) : '}' ∉ Nat.toDigits 16 n := by
  intro h
  obtain ⟨d, -, hd⟩ := exists_digitChar h
  exact Nat.digitChar_ne '}' rfl hd.symm

theorem toDigits_sixteen_injective : Function.Injective (Nat.toDigits 16) := by
  have hdigit : ∀ m < 16, ∀ n < 16, Nat.digitChar m = Nat.digitChar n → m = n := by decide
  -- one digit alone is not the last of several
  have hlast (m n : Nat) :
      [Nat.digitChar m] ≠ Nat.toDigits 16 (n / 16) ++ [Nat.digitChar (n % 16)] := by
    intro h
    have happend : [] ++ [Nat.digitChar m] =
        Nat.toDigits 16 (n / 16) ++ [Nat.digitChar (n % 16)] := h
    exact Nat.toDigits_ne_nil (List.append_inj' happend rfl).1.symm
  intro m
  induction m using Nat.strongRecOn with
  | ind m ih =>
    intro n h
    rcases Nat.lt_or_ge m 16 with hm | hm
    · rcases Nat.lt_or_ge n 16 with hn | hn
      · rw [Nat.toDigits_of_lt_base hm, Nat.toDigits_of_lt_base hn] at h
        exact hdigit m hm n hn (List.cons.inj h).1
      · rw [Nat.toDigits_of_lt_base hm, Nat.toDigits_of_base_le (by decide) hn] at h
        exact absurd h (hlast m n)
    · rcases Nat.lt_or_ge n 16 with hn | hn
      · rw [Nat.toDigits_of_lt_base hn, Nat.toDigits_of_base_le (by decide) hm] at h
        exact absurd h.symm (hlast n m)
      · rw [Nat.toDigits_of_base_le (by decide) hm, Nat.toDigits_of_base_le (by decide) hn] at h
        obtain ⟨hinit, hdigits⟩ := List.append_inj' h rfl
        have hdiv := ih (m / 16) (by omega) hinit
        have hmod := hdigit _ (Nat.mod_lt m (by decide)) _ (Nat.mod_lt n (by decide))
          (List.cons.inj hdigits).1
        omega

theorem codePoint_append_inj {c d : Char} {rest rest' : List Char}
    (h : codePoint c ++ rest = codePoint d ++ rest') : c = d ∧ rest = rest' := by
  simp only [codePoint, List.cons_append, List.append_assoc, List.cons.injEq, true_and,
    List.nil_append] at h
  obtain ⟨hdigits, -, hrest⟩ :=
    append_cons_inj (brace_notMem_toDigits _) (brace_notMem_toDigits _) h
  exact ⟨Char.toNat_inj.mp (toDigits_sixteen_injective hdigits), hrest⟩

/-! ### Characters -/

/-- The characters that have a letter, and their letters. -/
def letters : List (Char × Char) :=
  [('"', '"'), ('\\', '\\'), ('\x00', '0'), ('\t', 't'), ('\n', 'n'), ('\r', 'r')]

theorem mem_letters {c l : Char} (h : letter? c = some l) : (c, l) ∈ letters := by
  unfold letter? at h
  split at h <;> cases h <;> decide

theorem letter?_inj {c d l : Char} (hc : letter? c = some l) (hd : letter? d = some l) :
    c = d := by
  have hinj : ∀ p ∈ letters, ∀ q ∈ letters, p.2 = q.2 → p.1 = q.1 := by decide
  exact hinj _ (mem_letters hc) _ (mem_letters hd) rfl

/-- The letters are none of a code point. -/
theorem letter?_ne_u {c : Char} : letter? c ≠ some 'u' := by
  intro h
  have hne : ∀ p ∈ letters, p.2 ≠ 'u' := by decide
  exact hne _ (mem_letters h) rfl

/-- The ways in which a character may stand in quotes. -/
inductive Quotes : Char → List Char → Prop
  | letter {c l : Char} (h : letter? c = some l) : Quotes c ['\\', l]
  | plain {c : Char} (hquote : c ≠ '"') (hslash : c ≠ '\\') : Quotes c [c]
  | codePoint (c : Char) : Quotes c (codePoint c)

theorem quotes_quoteChar (c : Char) : Quotes c (quoteChar c) := by
  unfold quoteChar
  split
  · rename_i hletter
    exact .letter hletter
  · rename_i hletter
    split
    · apply Quotes.plain <;> rintro rfl <;> simp [letter?] at hletter
    · exact .codePoint c

theorem Quotes.exists_cons {c : Char} {text : List Char} (h : Quotes c text) :
    ∃ first more, text = first :: more ∧ first ≠ '"' := by
  cases h with
  | letter => exact ⟨_, _, rfl, by decide⟩
  | plain hquote => exact ⟨_, _, rfl, hquote⟩
  | codePoint => exact ⟨_, _, rfl, by decide⟩

theorem Quotes.append_inj {c d : Char} {text text' rest rest' : List Char} (hc : Quotes c text)
    (hd : Quotes d text') (h : text ++ rest = text' ++ rest') : c = d ∧ rest = rest' := by
  cases hc with
  | letter hl =>
    cases hd with
    | letter hl' =>
      obtain ⟨rfl, hrest⟩ := List.cons.inj (List.cons.inj h).2
      exact ⟨letter?_inj hl hl', hrest⟩
    | plain _ hslash => exact absurd (List.cons.inj h).1.symm hslash
    | codePoint =>
      obtain ⟨rfl, -⟩ := List.cons.inj (List.cons.inj h).2
      exact absurd hl letter?_ne_u
  | plain _ hslash =>
    cases hd with
    | letter => exact absurd (List.cons.inj h).1 hslash
    | plain => exact List.cons.inj h
    | codePoint => exact absurd (List.cons.inj h).1 hslash
  | codePoint =>
    cases hd with
    | letter hl' =>
      obtain ⟨rfl, -⟩ := List.cons.inj (List.cons.inj h).2
      exact absurd hl' letter?_ne_u
    | plain _ hslash => exact absurd (List.cons.inj h).1.symm hslash
    | codePoint => exact codePoint_append_inj h

/-! ### Texts -/

theorem quoted_append_inj {s t rest rest' : List Char}
    (h : s.flatMap quoteChar ++ '"' :: rest = t.flatMap quoteChar ++ '"' :: rest') :
    s = t ∧ rest = rest' := by
  -- no unit begins with a quote, so that neither text ends before the other
  induction s generalizing t with
  | nil =>
    cases t with
    | nil => exact ⟨rfl, (List.cons.inj h).2⟩
    | cons d t =>
      obtain ⟨first, more, htext, hfirst⟩ := (quotes_quoteChar d).exists_cons
      rw [List.flatMap_cons, htext] at h
      exact absurd (List.cons.inj h).1.symm hfirst
  | cons c s ih =>
    cases t with
    | nil =>
      obtain ⟨first, more, htext, hfirst⟩ := (quotes_quoteChar c).exists_cons
      rw [List.flatMap_cons, htext] at h
      exact absurd (List.cons.inj h).1 hfirst
    | cons d t =>
      rw [List.flatMap_cons, List.flatMap_cons, List.append_assoc, List.append_assoc] at h
      obtain ⟨rfl, hmore⟩ := (quotes_quoteChar c).append_inj (quotes_quoteChar d) h
      obtain ⟨rfl, hrest⟩ := ih hmore
      exact ⟨rfl, hrest⟩

/-- A quoted text tells what it quotes and where it ends. -/
theorem quote_append_inj {s t rest rest' : List Char} (h : quote s ++ rest = quote t ++ rest') :
    s = t ∧ rest = rest' := by
  simp only [quote, List.cons_append, List.append_assoc, List.cons.injEq, true_and,
    List.nil_append] at h
  exact quoted_append_inj h

theorem quote_injective : Function.Injective quote := by
  intro s t h
  exact (quote_append_inj (congrArg (· ++ []) h)).1

/-! ### Printable texts -/

theorem isPrintable_of_mem_quoteChar {c d : Char} (h : d ∈ quoteChar c) :
    isPrintable d = true := by
  unfold quoteChar at h
  split at h
  · rename_i l hl
    have hletters : ∀ p ∈ letters, isPrintable p.2 = true := by decide
    simp only [List.mem_cons, List.not_mem_nil, or_false] at h
    rcases h with rfl | rfl
    · decide
    · exact hletters _ (mem_letters hl)
  · split at h
    · rename_i hprintable
      rw [List.mem_singleton.mp h]
      exact hprintable
    · have hdigits : ∀ n < 16, isPrintable (Nat.digitChar n) = true := by decide
      simp only [codePoint, List.mem_cons, List.mem_append, List.not_mem_nil, or_false] at h
      rcases h with rfl | rfl | rfl | hdigit | rfl
      · decide
      · decide
      · decide
      · obtain ⟨n, hn, rfl⟩ := exists_digitChar hdigit
        exact hdigits n hn
      · decide

/-- Whatever a text holds, no character from the tables is seen of it in quotes. -/
theorem quote_outside_tables {s : List Char} {c : Char} (h : c ∈ quote s) :
    ∀ r ∈ nonGraphic ++ defaultIgnorable ++ extendingMarks,
      ¬ (r.1 ≤ c.toNat ∧ c.toNat ≤ r.2) := by
  rw [← isPrintable_iff]
  simp only [quote, List.mem_cons, List.mem_append, List.mem_flatMap, List.not_mem_nil,
    or_false] at h
  rcases h with rfl | ⟨d, -, hd⟩ | rfl
  · decide
  · exact isPrintable_of_mem_quoteChar hd
  · decide

end LeafFringe.Text
