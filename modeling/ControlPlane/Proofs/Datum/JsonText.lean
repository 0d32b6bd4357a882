/-
# Reading compact JSON back

Some texts serve as keys: two values must not share one. For the pieces that such texts are
made of it is shown here that they can be read off the front of a longer text, so that equal
texts start with equal pieces and go on equally.
-/

import ControlPlane.Datum.Json

namespace ControlPlane.Json

/-! ## Quoted text -/

/-- The character that an escape letter stands for. -/
def ofEscapeLetter (c : Char) : Char :=
  if c = 'n' then '\n' else if c = 'r' then '\r' else if c = 't' then '\t'
  else if c = 'b' then '\x08' else if c = 'f' then '\x0c' else c

/-- What a hexadecimal digit stands for. -/
def ofHexDigit (c : Char) : Nat :=
  if c.toNat < 'a'.toNat then c.toNat - '0'.toNat else c.toNat - 'a'.toNat + 10

/-- Read one character of a quoted text. There is none where the closing quote stands. -/
def unescape? : List Char → Option (Char × List Char)
  | [] => none
  | '\\' :: 'u' :: _ :: _ :: high :: low :: rest =>
      some (Char.ofNat (16 * ofHexDigit high + ofHexDigit low), rest)
  | '\\' :: letter :: rest => some (ofEscapeLetter letter, rest)
  | c :: rest => if c = '"' then none else some (c, rest)

theorem ofHexDigit_hexDigit : ∀ n < 16, ofHexDigit (hexDigit n) = n := by decide

/-- An escaped character is read back, whatever follows. -/
theorem unescape?_escape (c : Char) (rest : List Char) :
    unescape? (escape c ++ rest) = some (c, rest) := by
  unfold escape
  split
  · next h => subst h; rfl
  split
  · next h => subst h; rfl
  split
  · next h => subst h; rfl
  split
  · next h => subst h; rfl
  split
  · next h => subst h; rfl
  split
  · next h => subst h; rfl
  split
  · next h => subst h; rfl
  split
  · next hcontrol =>
      simp only [List.cons_append, List.nil_append, unescape?]
      rw [ofHexDigit_hexDigit _ (by omega), ofHexDigit_hexDigit _ (by omega), Nat.div_add_mod,
        Char.ofNat_toNat]
  · next hquote hbackslash _ _ _ _ _ _ => simp [unescape?, hquote, hbackslash]

private theorem escaped_append_inj {cs ds rest rest' : List Char}
    (h : cs.flatMap escape ++ '"' :: rest = ds.flatMap escape ++ '"' :: rest') :
    cs = ds ∧ rest = rest' := by
  induction cs generalizing ds with
  | nil =>
      cases ds with
      | nil => exact ⟨rfl, List.cons.inj h |>.2⟩
      | cons d ds =>
          have hread := congrArg unescape? h
          rw [List.flatMap_cons, List.append_assoc, unescape?_escape] at hread
          cases hread
  | cons c cs ih =>
      cases ds with
      | nil =>
          have hread := congrArg unescape? h
          rw [List.flatMap_cons, List.append_assoc, unescape?_escape] at hread
          cases hread
      | cons d ds =>
          have hread := congrArg unescape? h
          rw [List.flatMap_cons, List.append_assoc, unescape?_escape, List.flatMap_cons,
            List.append_assoc, unescape?_escape, Option.some.injEq, Prod.mk.injEq] at hread
          obtain ⟨hcs, hrest⟩ := ih hread.2
          exact ⟨by rw [hread.1, hcs], hrest⟩

/-- Equal texts that start with quoted texts start with the same one. -/
theorem quoted_append_inj {a b : String} {rest rest' : List Char}
    (h : quoted a ++ rest = quoted b ++ rest') : a = b ∧ rest = rest' := by
  simp only [quoted, List.cons_append, List.append_assoc, List.cons.injEq, true_and,
    List.nil_append] at h
  obtain ⟨htext, hrest⟩ := escaped_append_inj h
  exact ⟨String.toList_inj.mp htext, hrest⟩

/-! ## Lists of numbers -/

/-- A character that ends a number. -/
def EndsNumber (rest : List Char) : Prop :=
  ∀ c ∈ rest.head?, c.isDigit = false

private theorem digits_append_inj {cs ds rest rest' : List Char}
    (hcs : ∀ c ∈ cs, c.isDigit = true) (hds : ∀ d ∈ ds, d.isDigit = true)
    (hrest : EndsNumber rest) (hrest' : EndsNumber rest') (h : cs ++ rest = ds ++ rest') :
    cs = ds ∧ rest = rest' := by
  induction cs generalizing ds with
  | nil =>
      cases ds with
      | nil => exact ⟨rfl, h⟩
      | cons d ds =>
          have hdigit := hds d List.mem_cons_self
          rw [hrest d (by simp [show rest = d :: (ds ++ rest') from h])] at hdigit
          cases hdigit
  | cons c cs ih =>
      have hdigit := hcs c List.mem_cons_self
      cases ds with
      | nil =>
          rw [hrest' c (by simp [← show c :: (cs ++ rest) = rest' from h])] at hdigit
          cases hdigit
      | cons d ds =>
          obtain ⟨hhead, htail⟩ := List.cons.inj h
          obtain ⟨hcsds, hrests⟩ := ih (fun c hc => hcs c (List.mem_cons_of_mem _ hc))
            (fun d hd => hds d (List.mem_cons_of_mem _ hd)) htail
          exact ⟨by rw [hhead, hcsds], hrests⟩

theorem integer_natCast (n : Nat) : integer (n : Int) = Nat.toDigits 10 n :=
  Nat.toList_repr

/-- Equal texts that start with numbers, and go on with something else, start with the
same number. -/
theorem integer_append_inj {n m : Nat} {rest rest' : List Char} (hrest : EndsNumber rest)
    (hrest' : EndsNumber rest') (h : integer n ++ rest = integer m ++ rest') :
    n = m ∧ rest = rest' := by
  rw [integer_natCast, integer_natCast] at h
  have hdigit (k : Nat) : ∀ c ∈ Nat.toDigits 10 k, c.isDigit = true := fun c hc =>
    Nat.isDigit_of_mem_toDigits (by decide) (by decide) hc
  obtain ⟨hdigits, hrests⟩ := digits_append_inj (hdigit n) (hdigit m) hrest hrest' h
  have hvalue := congrArg (Nat.ofDigitChars 10 · 0) hdigits
  simp only [Nat.ofDigitChars_ten_toDigits] at hvalue
  exact ⟨hvalue, hrests⟩

/-- No number is written without a digit. -/
theorem ne_integer_append {rest : List Char} (hrest : EndsNumber rest) (n : Nat)
    (rest' : List Char) : rest ≠ integer n ++ rest' := by
  rw [integer_natCast]
  intro h
  cases hdigits : Nat.toDigits 10 n with
  | nil => exact Nat.toDigits_ne_nil hdigits
  | cons d ds =>
      have hdigit : d.isDigit = true :=
        Nat.isDigit_of_mem_toDigits (b := 10) (n := n) (by decide) (by decide)
          (by rw [hdigits]; exact List.mem_cons_self)
      rw [h, hdigits] at hrest
      rw [hrest d rfl] at hdigit
      cases hdigit

/-- All pieces but the first follow a separator. -/
theorem separated_cons (separator piece : List Char) (pieces : List (List Char)) :
    separated separator (piece :: pieces) = piece ++ pieces.flatMap (separator ++ ·) := by
  induction pieces generalizing piece with
  | nil => simp [separated]
  | cons next pieces ih =>
      rw [separated, ih, List.flatMap_cons, List.append_assoc, List.append_assoc]
      exact fun hnil => by cases hnil

/-- The numbers of a list after its first one, and what closes the list. -/
private def furtherNumbers (ns : List Nat) (rest : List Char) : List Char :=
  (ns.map fun n : Nat => integer n).flatMap ([','] ++ ·) ++ ']' :: rest

private theorem endsNumber_furtherNumbers (ns : List Nat) (rest : List Char) :
    EndsNumber (furtherNumbers ns rest) := by
  cases ns <;> simp [EndsNumber, furtherNumbers]

private theorem furtherNumbers_inj {ns ms : List Nat} {rest rest' : List Char}
    (h : furtherNumbers ns rest = furtherNumbers ms rest') : ns = ms ∧ rest = rest' := by
  induction ns generalizing ms with
  | nil =>
      cases ms with
      | nil => exact ⟨rfl, (List.cons.inj h).2⟩
      | cons m ms => simp [furtherNumbers] at h
  | cons n ns ih =>
      cases ms with
      | nil => simp [furtherNumbers] at h
      | cons m ms =>
          have htail : integer n ++ furtherNumbers ns rest =
              integer m ++ furtherNumbers ms rest' := by
            simpa [furtherNumbers] using h
          obtain ⟨rfl, hfurther⟩ := integer_append_inj (endsNumber_furtherNumbers ns rest)
            (endsNumber_furtherNumbers ms rest') htail
          obtain ⟨rfl, hrests⟩ := ih hfurther
          exact ⟨rfl, hrests⟩

/-- Equal texts that start with lists of numbers start with the same list. -/
theorem numbers_append_inj {ns ms : List Nat} {rest rest' : List Char}
    (h : separated [','] (ns.map fun n : Nat => integer n) ++ ']' :: rest =
      separated [','] (ms.map fun m : Nat => integer m) ++ ']' :: rest') :
    ns = ms ∧ rest = rest' := by
  have hcons (n : Nat) (ns : List Nat) (rest : List Char) :
      separated [','] ((n :: ns).map fun n : Nat => integer n) ++ ']' :: rest =
        integer n ++ furtherNumbers ns rest := by
    rw [List.map_cons, separated_cons, List.append_assoc]
    rfl
  have hends (rest : List Char) : EndsNumber (']' :: rest) := by simp [EndsNumber]
  cases ns with
  | nil =>
      cases ms with
      | nil => exact ⟨rfl, (List.cons.inj h).2⟩
      | cons m ms => exact absurd (h.trans (hcons ..)) (ne_integer_append (hends rest) m _)
  | cons n ns =>
      cases ms with
      | nil => exact absurd (h.symm.trans (hcons ..)) (ne_integer_append (hends rest') n _)
      | cons m ms =>
          rw [hcons, hcons] at h
          obtain ⟨rfl, hfurther⟩ := integer_append_inj (endsNumber_furtherNumbers ns rest)
            (endsNumber_furtherNumbers ms rest') h
          obtain ⟨rfl, hrests⟩ := furtherNumbers_inj hfurther
          exact ⟨rfl, hrests⟩

end ControlPlane.Json
