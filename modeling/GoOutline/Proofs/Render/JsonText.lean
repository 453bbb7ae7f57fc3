import GoOutline.Render.Json
import Mathlib.Tactic.SplitIfs

/-!
# JSON texts read back

A reader for the texts of JSON values (`Json.read?`). What is written is read back as the value it was written for
(`Json.read?_pretty`), so different values have different texts. The reader passes over white space and over the signs
between items and fields.
-/
namespace GoOutline.Json

/-! ## Strings -/

/-- The value of a hexadecimal digit in lower case. -/
def hexValue (c : Char) : Nat :=
  if c.toNat < 'a'.toNat then c.toNat - '0'.toNat else c.toNat - 'a'.toNat + 10

/-- The characters up to the closing quote, and what follows it. -/
def readString : List Char → Option (List Char × List Char)
  | [] => none
  | '\x22' :: rest => some ([], rest)
  | '\x5c' :: 'n' :: rest => (readString rest).map fun (cs, rest) => ('\n' :: cs, rest)
  | '\x5c' :: 'r' :: rest => (readString rest).map fun (cs, rest) => ('\r' :: cs, rest)
  | '\x5c' :: 't' :: rest => (readString rest).map fun (cs, rest) => ('\t' :: cs, rest)
  | '\x5c' :: 'b' :: rest => (readString rest).map fun (cs, rest) => ('\x08' :: cs, rest)
  | '\x5c' :: 'f' :: rest => (readString rest).map fun (cs, rest) => ('\x0c' :: cs, rest)
  | '\x5c' :: 'u' :: '0' :: '0' :: high :: low :: rest =>
    (readString rest).map fun (cs, rest) => (Char.ofNat (16 * hexValue high + hexValue low) :: cs, rest)
  | '\x5c' :: c :: rest => (readString rest).map fun (cs, rest) => (c :: cs, rest)
  | c :: rest => (readString rest).map fun (cs, rest) => (c :: cs, rest)

theorem hexValue_hexDigit : ∀ n < 16, hexValue (hexDigit n) = n := by
  decide

/-- A control character is escaped by its code point, unless it has a letter. -/
theorem readString_control (c : Char) (h : c.toNat < 0x20) (rest : List Char) :
    readString ('\x5c' :: 'u' :: '0' :: '0' :: hexDigit (c.toNat / 16) :: hexDigit (c.toNat % 16) :: rest) =
      (readString rest).map fun (cs, rest) => (c :: cs, rest) := by
  have hpoint : 16 * hexValue (hexDigit (c.toNat / 16)) + hexValue (hexDigit (c.toNat % 16)) = c.toNat := by
    rw [hexValue_hexDigit _ (by omega), hexValue_hexDigit _ (by omega)]
    omega
  rw [readString, hpoint, Char.ofNat_toNat]

/-- A plain character begins neither an escape nor the end. -/
theorem readString_plain {c : Char} (hquote : c ≠ '\x22') (hslash : c ≠ '\x5c') (rest : List Char) :
    readString (c :: rest) = (readString rest).map fun (cs, rest) => (c :: cs, rest) := by
  rw [readString]
  all_goals simp [hquote, hslash]

theorem readString_escape (c : Char) (rest : List Char) :
    readString (escape c ++ rest) = (readString rest).map fun (cs, rest) => (c :: cs, rest) := by
  -- An escape stands for one character: each but the last two cases fixes which.
  unfold escape
  split_ifs with hquote hslash hplain hfeed hreturn htab hback hform
  · rw [beq_iff_eq.1 hquote]
    rfl
  · rw [beq_iff_eq.1 hslash]
    rfl
  · exact readString_plain (by simpa using hquote) (by simpa using hslash) rest
  · rw [beq_iff_eq.1 hfeed]
    rfl
  · rw [beq_iff_eq.1 hreturn]
    rfl
  · rw [beq_iff_eq.1 htab]
    rfl
  · rw [beq_iff_eq.1 hback]
    rfl
  · rw [beq_iff_eq.1 hform]
    rfl
  · exact readString_control c (by omega) rest

theorem readString_flatMap_escape (cs rest : List Char) :
    readString (cs.flatMap escape ++ '\x22' :: rest) = some (cs, rest) := by
  induction cs with
  | nil => rfl
  | cons c cs ih => rw [List.flatMap_cons, List.append_assoc, readString_escape, ih]; rfl

/-! ## Values -/

/-- The character stands between values: white space, a comma or a colon. -/
def isSeparator (c : Char) : Bool := c == ' ' || c == '\n' || c == ',' || c == ':'

/-- The text from the next value or closing bracket on. -/
def skip (cs : List Char) : List Char := cs.dropWhile isSeparator

mutual

/-- The next value, and what follows it. The fuel bounds the number of values and brackets. -/
def read : Nat → List Char → Option (Json × List Char)
  | 0, _ => none
  | fuel + 1, cs =>
    match skip cs with
    | '\x22' :: rest => (readString rest).map fun (cs, rest) => (.text (String.ofList cs), rest)
    | 't' :: 'r' :: 'u' :: 'e' :: rest => some (.flag true, rest)
    | 'f' :: 'a' :: 'l' :: 's' :: 'e' :: rest => some (.flag false, rest)
    | '[' :: rest => (readItems fuel rest).map fun (items, rest) => (.list items, rest)
    | '\x7b' :: rest => (readFields fuel rest).map fun (fields, rest) => (.record fields, rest)
    | _ => none

/-- The items up to the closing bracket. -/
def readItems : Nat → List Char → Option (List Json × List Char)
  | 0, _ => none
  | fuel + 1, cs =>
    match skip cs with
    | ']' :: rest => some ([], rest)
    | cs => do
      let (item, cs) ← read fuel cs
      let (items, cs) ← readItems fuel cs
      some (item :: items, cs)

/-- The fields up to the closing bracket. -/
def readFields : Nat → List Char → Option (List (String × Json) × List Char)
  | 0, _ => none
  | fuel + 1, cs =>
    match skip cs with
    | '\x7d' :: rest => some ([], rest)
    | '\x22' :: rest => do
      let (key, cs) ← readString rest
      let (value, cs) ← read fuel cs
      let (fields, cs) ← readFields fuel cs
      some ((String.ofList key, value) :: fields, cs)
    | _ => none

end

/-- The value that a text is written for. -/
def read? (text : String) : Option Json :=
  match read text.toList.length text.toList with
  | some (value, []) => some value
  | _ => none

/-! ## Fuel -/

mutual

/-- Fuel that is enough for reading a value. -/
def weight : Json → Nat
  | text _ => 1
  | flag _ => 1
  | list items => 1 + weightItems items
  | record fields => 1 + weightFields fields

/-- Fuel that is enough for reading items and the closing bracket. -/
def weightItems : List Json → Nat
  | [] => 1
  | item :: rest => 1 + (weight item + weightItems rest)

/-- Fuel that is enough for reading fields and the closing bracket. -/
def weightFields : List (String × Json) → Nat
  | [] => 1
  | (_, value) :: rest => 1 + (weight value + weightFields rest)

end

mutual

/-- A text has more characters than its value has parts. -/
theorem weight_le_length (level : Nat) (value : Json) : value.weight ≤ (write level value).length := by
  cases value with
  | text value => simp only [weight, write, quote, List.length_cons]; omega
  | flag value => cases value <;> simp [weight, write]
  | list items =>
    have := weightItems_le_length (level + 1) items
    cases items with
    | nil => simp [weight, weightItems, write]
    | cons item rest =>
      simp only [weight, write, List.isEmpty_cons, Bool.false_eq_true, if_false, List.length_cons, List.length_append]
      omega
  | record fields =>
    have := weightFields_le_length (level + 1) fields
    cases fields with
    | nil => simp [weight, weightFields, write]
    | cons field rest =>
      simp only [weight, write, List.isEmpty_cons, Bool.false_eq_true, if_false, List.length_cons, List.length_append]
      omega

theorem weightItems_le_length (level : Nat) (items : List Json) :
    weightItems items ≤ (writeItems level items).length + 1 := by
  cases items with
  | nil => simp [weightItems]
  | cons item rest =>
    have hitem := weight_le_length level item
    have hrest := weightItems_le_length level rest
    simp only [weightItems, writeItems, newLine, List.cons_append, List.length_cons, List.length_append]
    omega

theorem weightFields_le_length (level : Nat) (fields : List (String × Json)) :
    weightFields fields ≤ (writeFields level fields).length + 1 := by
  cases fields with
  | nil => simp [weightFields]
  | cons field rest =>
    obtain ⟨key, value⟩ := field
    have hvalue := weight_le_length level value
    have hrest := weightFields_le_length level rest
    simp only [weightFields, writeFields, newLine, List.cons_append, List.length_cons, List.length_append]
    omega

end

/-! ## Reading what is written -/

section

variable {seps : List Char}

theorem skip_append (h : ∀ c ∈ seps, isSeparator c = true) (cs : List Char) : skip (seps ++ cs) = skip cs :=
  List.dropWhile_append_of_pos h

theorem skip_cons {c : Char} (h : isSeparator c = false) (cs : List Char) : skip (c :: cs) = c :: cs := by
  simp [skip, h]

theorem isSeparator_newLine (level : Nat) : ∀ c ∈ newLine level, isSeparator c = true := by
  intro c hc
  rcases List.mem_cons.1 hc with rfl | hc
  · rfl
  · rw [List.eq_of_mem_replicate hc]
    rfl

theorem read_append (h : ∀ c ∈ seps, isSeparator c = true) (fuel : Nat) (cs : List Char) :
    read fuel (seps ++ cs) = read fuel cs := by
  cases fuel with
  | zero => simp only [read]
  | succ fuel => simp only [read, skip_append h]

theorem readItems_append (h : ∀ c ∈ seps, isSeparator c = true) (fuel : Nat) (cs : List Char) :
    readItems fuel (seps ++ cs) = readItems fuel cs := by
  cases fuel with
  | zero => simp only [readItems]
  | succ fuel => simp only [readItems, skip_append h]

theorem readFields_append (h : ∀ c ∈ seps, isSeparator c = true) (fuel : Nat) (cs : List Char) :
    readFields fuel (seps ++ cs) = readFields fuel cs := by
  cases fuel with
  | zero => simp only [readFields]
  | succ fuel => simp only [readFields, skip_append h]

/-- A value begins with a character of its own. -/
theorem write_head (level : Nat) (value : Json) :
    ∃ c cs, write level value = c :: cs ∧ isSeparator c = false ∧ c ≠ ']' := by
  cases value with
  | text value => exact ⟨_, _, rfl, rfl, by decide⟩
  | flag value => cases value <;> exact ⟨_, _, rfl, rfl, by decide⟩
  | list items =>
    rw [write]
    split
    · exact ⟨_, _, rfl, rfl, by decide⟩
    · exact ⟨_, _, rfl, rfl, by decide⟩
  | record fields =>
    rw [write]
    split
    · exact ⟨_, _, rfl, rfl, by decide⟩
    · exact ⟨_, _, rfl, rfl, by decide⟩

theorem isSeparator_comma {α : Type} (rest : List α) :
    ∀ c ∈ (if rest.isEmpty then [] else [',']), isSeparator c = true := by
  intro c hc
  split at hc
  · cases hc
  · rw [List.mem_singleton.1 hc]
    rfl

theorem read_quote (fuel : Nat) (value : String) (rest : List Char) :
    read (fuel + 1) (quote value ++ rest) = some (.text value, rest) := by
  rw [read, quote, List.cons_append, skip_cons rfl]
  simp only [List.append_assoc, List.singleton_append, readString_flatMap_escape, Option.map_some, String.ofList_toList]

/-- The items are read if the first of them and the rest of them are. -/
theorem readItems_cons {fuel level : Nat} {item : Json} {items : List Json} {cs rest : List Char}
    (hitem : read fuel (write level item ++ cs) = some (item, cs)) (hitems : readItems fuel cs = some (items, rest)) :
    readItems (fuel + 1) (write level item ++ cs) = some (item :: items, rest) := by
  obtain ⟨c, more, hwrite, hseparator, hclosing⟩ := write_head level item
  rw [readItems]
  rw [hwrite, List.cons_append] at hitem ⊢
  rw [skip_cons hseparator]
  split
  · rename_i heq
    cases heq
    exact absurd rfl hclosing
  · rw [hitem]
    simp [hitems]

/-- The fields are read if the value of the first of them and the rest of them are. -/
theorem readFields_cons {fuel level : Nat} {key : String} {value : Json} {fields : List (String × Json)}
    {cs rest : List Char} (hvalue : read fuel (write level value ++ cs) = some (value, cs))
    (hfields : readFields fuel cs = some (fields, rest)) :
    readFields (fuel + 1) (quote key ++ ([':', ' '] ++ (write level value ++ cs))) = some ((key, value) :: fields, rest) := by
  have hcolon : read fuel ([':', ' '] ++ (write level value ++ cs)) = some (value, cs) := by
    rw [read_append (by simp [isSeparator]), hvalue]
  rw [readFields, quote, List.cons_append, skip_cons rfl]
  simp only [List.append_assoc, List.singleton_append, readString_flatMap_escape, Option.bind_eq_bind, Option.bind_some,
    hcolon, hfields, String.ofList_toList]

mutual

/-- A written value is read back. -/
theorem read_write (level : Nat) (value : Json) (fuel : Nat) (rest : List Char) (h : value.weight ≤ fuel) :
    read fuel (write level value ++ rest) = some (value, rest) := by
  obtain ⟨fuel, rfl⟩ : ∃ n, fuel = n + 1 := by
    cases fuel with
    | zero => cases value <;> simp [weight] at h
    | succ n => exact ⟨n, rfl⟩
  cases value with
  | text value => rw [write, read_quote]
  | flag value => cases value <;> rfl
  | list items =>
    simp only [weight] at h
    have hitems := readItems_write level (level + 1) items fuel rest (by omega)
    rw [read, write]
    cases items with
    | nil =>
      have hnone : readItems fuel (']' :: rest) = some ([], rest) := by
        rw [← hitems, writeItems, List.nil_append, readItems_append (isSeparator_newLine level)]
      simp [skip_cons, isSeparator, hnone]
    | cons item items =>
      rw [List.isEmpty_cons, if_neg Bool.false_ne_true, List.cons_append, skip_cons rfl]
      simp only [List.append_assoc, List.singleton_append] at hitems ⊢
      rw [hitems]
      rfl
  | record fields =>
    simp only [weight] at h
    have hfields := readFields_write level (level + 1) fields fuel rest (by omega)
    rw [read, write]
    cases fields with
    | nil =>
      have hnone : readFields fuel ('\x7d' :: rest) = some ([], rest) := by
        rw [← hfields, writeFields, List.nil_append, readFields_append (isSeparator_newLine level)]
      simp [skip_cons, isSeparator, hnone]
    | cons field fields =>
      rw [List.isEmpty_cons, if_neg Bool.false_ne_true, List.cons_append, skip_cons rfl]
      simp only [List.append_assoc, List.singleton_append] at hfields ⊢
      rw [hfields]
      rfl

theorem readItems_write (outer level : Nat) (items : List Json) (fuel : Nat) (rest : List Char)
    (h : weightItems items ≤ fuel) :
    readItems fuel (writeItems level items ++ (newLine outer ++ ']' :: rest)) = some (items, rest) := by
  obtain ⟨fuel, rfl⟩ : ∃ n, fuel = n + 1 := by
    cases fuel with
    | zero => cases items <;> simp [weightItems] at h
    | succ n => exact ⟨n, rfl⟩
  cases items with
  | nil =>
    rw [writeItems, List.nil_append, readItems_append (isSeparator_newLine outer), readItems, skip_cons rfl]
    rfl
  | cons item items =>
    simp only [weightItems] at h
    have hitems := readItems_write outer level items fuel rest (by omega)
    rw [← readItems_append (isSeparator_comma items)] at hitems
    have hitem (cs : List Char) := read_write level item fuel cs (by omega)
    simp only [writeItems, List.append_assoc]
    rw [readItems_append (isSeparator_newLine level)]
    exact readItems_cons (hitem _) hitems

theorem readFields_write (outer level : Nat) (fields : List (String × Json)) (fuel : Nat) (rest : List Char)
    (h : weightFields fields ≤ fuel) :
    readFields fuel (writeFields level fields ++ (newLine outer ++ '\x7d' :: rest)) = some (fields, rest) := by
  obtain ⟨fuel, rfl⟩ : ∃ n, fuel = n + 1 := by
    cases fuel with
    | zero => cases fields <;> simp [weightFields] at h
    | succ n => exact ⟨n, rfl⟩
  cases fields with
  | nil =>
    rw [writeFields, List.nil_append, readFields_append (isSeparator_newLine outer), readFields, skip_cons rfl]
    rfl
  | cons field fields =>
    obtain ⟨key, value⟩ := field
    simp only [weightFields] at h
    have hfields := readFields_write outer level fields fuel rest (by omega)
    rw [← readFields_append (isSeparator_comma fields)] at hfields
    have hvalue (cs : List Char) := read_write level value fuel cs (by omega)
    simp only [writeFields, List.append_assoc]
    rw [readFields_append (isSeparator_newLine level)]
    exact readFields_cons (hvalue _) hfields

end

/-- The text of a value is read as that value. -/
theorem read?_pretty (value : Json) : read? value.pretty = some value := by
  have hread := read_write 0 value (write 0 value).length [] (weight_le_length 0 value)
  rw [List.append_nil] at hread
  rw [read?, pretty, String.toList_ofList, hread]

end

end GoOutline.Json
