/-
# A reader of compact JSON

What is written on one line can be read again. The reader goes by the first character of a value:
it knows from there what the value is, and from the value's text where it ends. It understands
nothing but what is written without blanks, and it is told how many steps it may take; the length
of the text is always enough.
-/

import ControlPlane.Proofs.Datum.JsonText
import ControlPlane.Proofs.Datum.Reading

namespace ControlPlane.Json

/-- A reader gives back every plain datum from its text on one line, as far as the datum is nested
no deeper than this. A reader may refuse what goes deeper. -/
def ReadsBack (depth : Nat) (read : String → Option Datum) : Prop :=
  ∀ datum : Datum, datum.IsPlain depth → read (compactText datum) = some datum

/-! ## Reading -/

/-- Nothing but a closing character: what has been read is complete. -/
def readEnd {α : Type} (closing : Char) (value : α) : List Char → Option (α × List Char)
  | [] => none
  | c :: rest => if c = closing then some (value, rest) else none

/-- The rest of a quoted text, and what follows its closing quote. -/
def readQuoted : Nat → List Char → Option (List Char × List Char)
  | 0, _ => none
  | fuel + 1, cs =>
      match unescape? cs with
      | some (c, rest) => (readQuoted fuel rest).map (Prod.map (c :: ·) id)
      | none => readEnd '"' [] cs

def readNatural (cs : List Char) : Option (Nat × List Char) :=
  match cs.takeWhile Char.isDigit with
  | [] => none
  | digits => some (Nat.ofDigitChars 10 digits 0, cs.dropWhile Char.isDigit)

def readWord : List Char → Option (Datum × List Char)
  | 'n' :: 'u' :: 'l' :: 'l' :: rest => some (.null, rest)
  | 't' :: 'r' :: 'u' :: 'e' :: rest => some (.bool true, rest)
  | 'f' :: 'a' :: 'l' :: 's' :: 'e' :: rest => some (.bool false, rest)
  | _ => none

/-- One thing or more, with commas between them, up to a closing character. -/
def readSeries {α : Type} (read : List Char → Option (α × List Char)) (closing : Char) :
    Nat → List Char → Option (List α × List Char)
  | 0, _ => none
  | count + 1, cs =>
      match read cs with
      | some (item, c :: rest) =>
          if c = ',' then (readSeries read closing count rest).map (Prod.map (item :: ·) id)
          else if c = closing then some ([item], rest)
          else none
      | _ => none

/-- A name, a colon and a value. -/
def readField (read : List Char → Option (Datum × List Char)) (fuel : Nat) :
    List Char → Option ((String × Datum) × List Char)
  | '"' :: cs =>
      match readQuoted fuel cs with
      | some (name, ':' :: rest) => (read rest).map (Prod.map (Prod.mk (String.ofList name)) id)
      | _ => none
  | _ => none

/-- A value, and what follows it. -/
def readValue : Nat → List Char → Option (Datum × List Char)
  | 0, _ => none
  | _ + 1, [] => none
  | fuel + 1, c :: cs =>
      if c = '"' then (readQuoted fuel cs).map (Prod.map (.text ∘ String.ofList) id)
      else if c = '[' then
        ((readSeries (readValue fuel) ']' fuel cs).map (Prod.map .list id)).or
          (readEnd ']' (.list []) cs)
      else if c = '\x7b' then
        ((readSeries (readField (readValue fuel) fuel) '\x7d' fuel cs).map
          (Prod.map .record id)).or (readEnd '\x7d' (.record []) cs)
      else if c = '-' then (readNatural cs).map (Prod.map (fun n : Nat => .int (-n)) id)
      else if c.isDigit then (readNatural (c :: cs)).map (Prod.map (fun n : Nat => .int n) id)
      else readWord (c :: cs)

/-- The datum that a text is of, if nothing follows it. -/
def read? (text : String) : Option Datum :=
  match readValue (text.length + 1) text.toList with
  | some (datum, []) => some datum
  | _ => none

/-! ## Texts and numbers -/

theorem readQuoted_flatMap (text rest : List Char) {fuel : Nat} (hfuel : text.length < fuel) :
    readQuoted fuel (text.flatMap escape ++ '"' :: rest) = some (text, rest) := by
  induction text generalizing fuel with
  | nil =>
      cases fuel with
      | zero => exact absurd hfuel (Nat.not_lt_zero _)
      | succ fuel => rfl
  | cons c text ih =>
      cases fuel with
      | zero => exact absurd hfuel (Nat.not_lt_zero _)
      | succ fuel =>
          rw [List.flatMap_cons, List.append_assoc, readQuoted, unescape?_escape]
          simp only [ih (Nat.lt_of_succ_lt_succ hfuel), Option.map_some]
          rfl

theorem length_le_flatMap_escape (text : List Char) :
    text.length ≤ (text.flatMap escape).length := by
  induction text with
  | nil => exact Nat.zero_le _
  | cons c text ih =>
      have hescape : 0 < (escape c).length := by
        have hread := unescape?_escape c []
        cases hchars : escape c with
        | nil => rw [hchars] at hread; cases hread
        | cons => exact Nat.succ_pos _
      rw [List.flatMap_cons, List.length_append, List.length_cons]
      omega

theorem readNatural_toDigits (n : Nat) {rest : List Char} (hrest : EndsNumber rest) :
    readNatural (Nat.toDigits 10 n ++ rest) = some (n, rest) := by
  have hdigits : ∀ c ∈ Nat.toDigits 10 n, c.isDigit = true := fun c hc =>
    Nat.isDigit_of_mem_toDigits (by decide) (by decide) hc
  have htake : (Nat.toDigits 10 n ++ rest).takeWhile Char.isDigit = Nat.toDigits 10 n := by
    rw [List.takeWhile_append_of_pos hdigits]
    cases rest with
    | nil => simp
    | cons c rest => simp [hrest c rfl]
  have hdrop : (Nat.toDigits 10 n ++ rest).dropWhile Char.isDigit = rest := by
    rw [List.dropWhile_append_of_pos hdigits]
    cases rest with
    | nil => rfl
    | cons c rest => simp [hrest c rfl]
  rw [readNatural, htake, hdrop]
  split
  · next hnil => exact absurd hnil Nat.toDigits_ne_nil
  · rw [Nat.ofDigitChars_ten_toDigits]

theorem integer_negSucc (n : Nat) : integer (Int.negSucc n) = '-' :: Nat.toDigits 10 (n + 1) := by
  have htext : toString (Int.negSucc n) = "-" ++ Nat.repr (n + 1) := rfl
  rw [integer, htext, String.toList_append, Nat.toList_repr]
  rfl

/-! ## Values -/

/-- A value is read off the front of a text that does not go on with a digit. -/
def IsRead (datum : Datum) : Prop :=
  ∀ (fuel : Nat) (rest : List Char), (compact datum).length < fuel → EndsNumber rest →
    readValue fuel (compact datum ++ rest) = some (datum, rest)

theorem isRead_int (value : Int) : IsRead (.int value) := by
  intro fuel rest hfuel hrest
  cases fuel with
  | zero => exact absurd hfuel (Nat.not_lt_zero _)
  | succ fuel =>
      cases value with
      | ofNat n =>
          have hcompact : compact (.int (.ofNat n)) = Nat.toDigits 10 n := integer_natCast n
          have hread := readNatural_toDigits n hrest
          rw [hcompact]
          cases hdigits : Nat.toDigits 10 n with
          | nil => exact absurd hdigits Nat.toDigits_ne_nil
          | cons d ds =>
              have hdigit : d.isDigit = true :=
                Nat.isDigit_of_mem_toDigits (b := 10) (n := n) (by decide) (by decide)
                  (by rw [hdigits]; exact List.mem_cons_self)
              have hne (c : Char) (hc : c.isDigit = false) : d ≠ c := by
                rintro rfl
                rw [hc] at hdigit
                cases hdigit
              rw [hdigits] at hread
              rw [List.cons_append, readValue, if_neg (hne _ (by decide)),
                if_neg (hne _ (by decide)), if_neg (hne _ (by decide)),
                if_neg (hne _ (by decide)), if_pos hdigit, ← List.cons_append, hread]
              rfl
      | negSucc n =>
          have hcompact : compact (.int (.negSucc n)) = '-' :: Nat.toDigits 10 (n + 1) :=
            integer_negSucc n
          rw [hcompact, List.cons_append, readValue, if_neg (by decide), if_neg (by decide),
            if_neg (by decide), if_pos rfl, readNatural_toDigits _ hrest]
          rfl

theorem isRead_text (text : String) : IsRead (.text text) := by
  intro fuel rest hfuel hrest
  cases fuel with
  | zero => exact absurd hfuel (Nat.not_lt_zero _)
  | succ fuel =>
      have hcompact : compact (.text text) = '"' :: (text.toList.flatMap escape ++ ['"']) := rfl
      have hlength := length_le_flatMap_escape text.toList
      rw [hcompact, List.length_cons, List.length_append] at hfuel
      rw [hcompact, List.cons_append, List.append_assoc, readValue, if_pos rfl]
      have hfits : text.toList.length < fuel := by omega
      rw [List.singleton_append, readQuoted_flatMap _ _ hfits, Option.map_some, Prod.map_apply,
        Function.comp_apply, String.ofList_toList]
      rfl

/-! ## Series -/

/-- What comes after the first piece of two or more. -/
theorem separated_cons_cons (separator first second : List Char) (rest : List (List Char)) :
    separated separator (first :: second :: rest) =
      first ++ separator ++ separated separator (second :: rest) :=
  rfl

theorem length_le_separated {pieces : List (List Char)} {piece : List Char}
    (hpiece : piece ∈ pieces) : piece.length ≤ (separated [','] pieces).length := by
  induction pieces with
  | nil => cases hpiece
  | cons first rest ih =>
      cases rest with
      | nil =>
          obtain rfl := List.mem_singleton.mp hpiece
          exact Nat.le_refl _
      | cons second rest =>
          rw [separated_cons_cons, List.length_append, List.length_append]
          rcases List.mem_cons.mp hpiece with rfl | hrest
          · omega
          · have hle := ih hrest
            omega

theorem length_le_length_separated (pieces : List (List Char)) :
    pieces.length ≤ (separated [','] pieces).length + 1 := by
  induction pieces with
  | nil => exact Nat.zero_le _
  | cons first rest ih =>
      cases rest with
      | nil => exact Nat.le_add_left _ _
      | cons second rest =>
          rw [separated_cons_cons, List.length_append, List.length_append, List.length_cons]
          exact Nat.succ_le_succ (by simp only [List.length_singleton]; omega)

/-- Things that are read one by one are read as a series. -/
theorem readSeries_separated {α : Type} {read : List Char → Option (α × List Char)}
    {write : α → List Char} {closing : Char} (hcomma : closing ≠ ',')
    (hdigit : closing.isDigit = false) {first : α} {items : List α}
    (hread : ∀ item ∈ first :: items, ∀ rest, EndsNumber rest →
      read (write item ++ rest) = some (item, rest))
    {count : Nat} (hcount : items.length < count) (rest : List Char) :
    readSeries read closing count
      (separated [','] ((first :: items).map write) ++ closing :: rest) =
        some (first :: items, rest) := by
  have hends (c : Char) (hc : c.isDigit = false) (rest : List Char) : EndsNumber (c :: rest) := by
    simpa [EndsNumber] using hc
  induction items generalizing first count with
  | nil =>
      cases count with
      | zero => exact absurd hcount (Nat.not_lt_zero _)
      | succ count =>
          obtain ⟨hfirst, -⟩ := List.forall_mem_cons.mp hread
          rw [List.map_singleton, separated, readSeries, hfirst _ (hends closing hdigit rest)]
          simp only [if_neg hcomma, if_true]
  | cons second items ih =>
      cases count with
      | zero => exact absurd hcount (Nat.not_lt_zero _)
      | succ count =>
          obtain ⟨hfirst, hrest⟩ := List.forall_mem_cons.mp hread
          have hseries := ih hrest (Nat.lt_of_succ_lt_succ hcount)
          rw [List.map_cons, List.map_cons, separated_cons_cons, List.append_assoc,
            List.append_assoc, ← List.map_cons, List.singleton_append, readSeries,
            hfirst _ (hends ',' (by decide) _)]
          simp only [if_true, hseries, Option.map_some]
          rfl

/-! ## Lists and records -/

theorem compactItems_eq_map (items : List Datum) : compactItems items = items.map compact := by
  induction items with
  | nil => rfl
  | cons item rest ih => rw [compactItems, ih, List.map_cons]

/-- A field on one line. -/
def compactField (field : String × Datum) : List Char :=
  quoted field.1 ++ ':' :: compact field.2

theorem compactFields_eq_map (fields : List (String × Datum)) :
    compactFields fields = fields.map compactField := by
  induction fields with
  | nil => rfl
  | cons field rest ih => rw [compactFields, ih, List.map_cons, compactField]

theorem readField_compactField {field : String × Datum} (hvalue : IsRead field.2) {fuel : Nat}
    (hfuel : (compactField field).length < fuel) {rest : List Char} (hrest : EndsNumber rest) :
    readField (readValue fuel) fuel (compactField field ++ rest) = some (field, rest) := by
  obtain ⟨name, value⟩ := field
  have hlength := length_le_flatMap_escape name.toList
  have hcompact : compactField (name, value) ++ rest =
      '"' :: (name.toList.flatMap escape ++ '"' :: ':' :: (compact value ++ rest)) := by
    simp [compactField, quoted]
  have hname : name.toList.length < fuel ∧ (compact value).length < fuel := by
    simp only [compactField, quoted, List.length_append, List.length_cons,
      List.cons_append] at hfuel
    omega
  rw [hcompact, readField, readQuoted_flatMap _ _ hname.1]
  simp only [hvalue fuel rest hname.2 hrest, Option.map_some, Prod.map_apply, String.ofList_toList]
  rfl

/-- No value begins with the end of a list. -/
theorem readValue_listEnd (fuel : Nat) (rest : List Char) :
    readValue fuel (']' :: rest) = none := by
  cases fuel <;> rfl

theorem readSeries_eq_none {α : Type} {read : List Char → Option (α × List Char)} {cs : List Char}
    (hread : read cs = none) (closing : Char) (count : Nat) :
    readSeries read closing count cs = none := by
  cases count with
  | zero => rfl
  | succ count => rw [readSeries, hread]

theorem isRead_list {items : List Datum} (hitems : ∀ item ∈ items, IsRead item) :
    IsRead (.list items) := by
  intro fuel rest hfuel hrest
  cases fuel with
  | zero => exact absurd hfuel (Nat.not_lt_zero _)
  | succ fuel =>
      have hcompact : compact (.list items) =
          '[' :: (separated [','] (items.map compact) ++ [']']) := by
        rw [compact, compactItems_eq_map, List.cons_append]
      rw [hcompact, List.length_cons, List.length_append, List.length_singleton] at hfuel
      rw [hcompact, List.cons_append, List.append_assoc, readValue, if_neg (by decide),
        if_pos rfl, List.singleton_append]
      cases items with
      | nil =>
          have hnone := readSeries_eq_none (readValue_listEnd fuel rest) ']' fuel
          rw [List.map_nil, separated, List.nil_append, hnone]
          rfl
      | cons first items =>
          have hcount := length_le_length_separated ((first :: items).map compact)
          rw [List.length_map, List.length_cons] at hcount
          have hread : ∀ item ∈ first :: items, ∀ rest, EndsNumber rest →
              readValue fuel (compact item ++ rest) = some (item, rest) := by
            intro item hitem rest hrest
            have hlength := length_le_separated (List.mem_map_of_mem (f := compact) hitem)
            exact hitems item hitem fuel rest (by omega) hrest
          rw [readSeries_separated (by decide) (by decide) hread (by omega)]
          rfl

theorem isRead_record {fields : List (String × Datum)}
    (hfields : ∀ field ∈ fields, IsRead field.2) : IsRead (.record fields) := by
  intro fuel rest hfuel hrest
  cases fuel with
  | zero => exact absurd hfuel (Nat.not_lt_zero _)
  | succ fuel =>
      have hcompact : compact (.record fields) =
          '\x7b' :: (separated [','] (fields.map compactField) ++ ['\x7d']) := by
        rw [compact, compactFields_eq_map, List.cons_append]
      rw [hcompact, List.length_cons, List.length_append, List.length_singleton] at hfuel
      rw [hcompact, List.cons_append, List.append_assoc, readValue, if_neg (by decide),
        if_neg (by decide), if_pos rfl, List.singleton_append]
      cases fields with
      | nil =>
          have hread : readField (readValue fuel) fuel ('\x7d' :: rest) = none := rfl
          rw [List.map_nil, separated, List.nil_append, readSeries_eq_none hread]
          rfl
      | cons first fields =>
          have hcount := length_le_length_separated ((first :: fields).map compactField)
          rw [List.length_map, List.length_cons] at hcount
          have hread : ∀ field ∈ first :: fields, ∀ rest, EndsNumber rest →
              readField (readValue fuel) fuel (compactField field ++ rest) =
                some (field, rest) := by
            intro field hfield rest hrest
            have hlength := length_le_separated (List.mem_map_of_mem (f := compactField) hfield)
            exact readField_compactField (hfields field hfield) (by omega) hrest
          rw [readSeries_separated (by decide) (by decide) hread (by omega)]
          rfl

/-! ## Every plain datum -/

theorem isRead_of_isPlain {depth : Nat} {datum : Datum} (h : datum.IsPlain depth) :
    IsRead datum := by
  have hword {word : Datum} {c : Char} {cs : List Char} (hcompact : compact word = c :: cs)
      (hother : ∀ fuel rest, readValue (fuel + 1) (c :: cs ++ rest) = some (word, rest)) :
      IsRead word := by
    intro fuel rest hfuel _
    cases fuel with
    | zero => exact absurd hfuel (Nat.not_lt_zero _)
    | succ fuel => rw [hcompact, hother]
  induction h with
  | null => exact hword rfl fun _ _ => rfl
  | bool value => cases value <;> exact hword rfl fun _ _ => rfl
  | int => exact isRead_int _
  | text value => exact isRead_text value
  | list _ ih => exact isRead_list ih
  | record _ _ ih => exact isRead_record ih

/-- This reader refuses nothing for its depth. -/
theorem readsBack_read? (depth : Nat) : ReadsBack depth read? := by
  intro datum hplain
  have hread := isRead_of_isPlain hplain ((compact datum).length + 1) [] (Nat.lt_succ_self _)
    (by simp [EndsNumber])
  rw [List.append_nil] at hread
  rw [read?, compactText, String.length_ofList, String.toList_ofList, hread]

end ControlPlane.Json
