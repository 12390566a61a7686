import JavaSketch.Json
import Mathlib.Tactic.SplitIfs

/-!
# Reading JSON

A reader for all of JSON: values of every kind, blanks between tokens, all escapes in
strings and nothing but blanks after the value.  What the printer of indexes writes
it reads back as the value that was written.

**Rules.**
* A string holds no control character but as an escape.  An escape by code may name
  a character by two units in a row; a unit of such a pair on its own is refused.
* A number is kept as it is spelt, and the members of an object in their order.

**Results.**
* `readChars_flatMap_escapeChar`: a string is read back.
* `read_write`: so is every value.
-/

namespace JavaSketch

/-- What a JSON text denotes. -/
inductive JsonValue
  | null
  | boolean (value : Bool)
  | number (spelling : String)
  | string (text : String)
  | array (items : List JsonValue)
  | object (members : List (String × JsonValue))

namespace JsonValue

section Reader

/-- Whether a character may stand between tokens. -/
def isBlank (c : Char) : Bool :=
  c == ' ' || c == '\t' || c == '\n' || c == '\r'

/-- What comes after blanks. -/
def skipBlanks (cs : List Char) : List Char :=
  cs.dropWhile isBlank

/-- The number that a hexadecimal digit stands for. -/
def digitValue? (c : Char) : Option Nat :=
  if '0' ≤ c ∧ c ≤ '9' then some (c.toNat - 0x30)
  else if 'a' ≤ c ∧ c ≤ 'f' then some (c.toNat - 0x57)
  else if 'A' ≤ c ∧ c ≤ 'F' then some (c.toNat - 0x37)
  else none

/-- A number of four hexadecimal digits. -/
def readUnit : List Char → Option (Nat × List Char)
  | a :: b :: c :: d :: rest => do
      let first ← digitValue? a
      let second ← digitValue? b
      let third ← digitValue? c
      let fourth ← digitValue? d
      return (((first * 16 + second) * 16 + third) * 16 + fourth, rest)
  | _ => none

/-- A character by its code, in one unit or in a pair of them. -/
def readCode (cs : List Char) : Option (Char × List Char) := do
  let (unit, rest) ← readUnit cs
  if unit < 0xD800 ∨ 0xE000 ≤ unit then return (Char.ofNat unit, rest)
  else
    match rest with
    | '\\' :: 'u' :: rest =>
        let (second, rest) ← readUnit rest
        if unit < 0xDC00 ∧ 0xDC00 ≤ second ∧ second < 0xE000 then
          return (Char.ofNat (0x10000 + (unit - 0xD800) * 0x400 + (second - 0xDC00)), rest)
        else none
    | _ => none

/-- The characters that have an escape of one letter. -/
def escapes : List (Char × Char) :=
  [('"', '"'), ('\\', '\\'), ('/', '/'), ('b', '\x08'), ('f', '\x0c'), ('n', '\n'),
    ('r', '\r'), ('t', '\t')]

/-- The character of an escape whose backslash was read. -/
def readEscape : List Char → Option (Char × List Char)
  | [] => none
  | c :: rest => if c = 'u' then readCode rest else (escapes.lookup c).map (·, rest)

/-- A character inside a string. -/
def readChar : List Char → Option (Char × List Char)
  | [] => none
  | c :: rest =>
      if c = '\\' then readEscape rest
      else if c = '"' ∨ c.toNat < 0x20 then none
      else some (c, rest)

/-- A string whose opening quote was read. -/
def readChars : Nat → List Char → Option (List Char × List Char)
  | 0, _ => none
  | fuel + 1, cs =>
      if cs.head? = some '"' then some ([], cs.tail)
      else do
        let (c, rest) ← readChar cs
        let (text, rest) ← readChars fuel rest
        return (c :: text, rest)

/-- At least one decimal digit. -/
def readDigits (cs : List Char) : Option (List Char × List Char) :=
  let digits := cs.takeWhile Char.isDigit
  if digits = [] then none else some (digits, cs.dropWhile Char.isDigit)

/-- The whole part of a number; only zero begins with the digit zero. -/
def readWhole : List Char → Option (List Char × List Char)
  | '0' :: rest => some (['0'], rest)
  | cs => readDigits cs

/-- The fraction of a number, if it has one. -/
def readFraction : List Char → Option (List Char × List Char)
  | '.' :: rest => (readDigits rest).map fun (digits, rest) => ('.' :: digits, rest)
  | cs => some ([], cs)

/-- The sign of an exponent, if it has one. -/
def readSign : List Char → List Char × List Char
  | '+' :: rest => (['+'], rest)
  | '-' :: rest => (['-'], rest)
  | cs => ([], cs)

/-- The exponent of a number, if it has one. -/
def readExponent : List Char → Option (List Char × List Char)
  | [] => some ([], [])
  | c :: rest =>
      if c = 'e' ∨ c = 'E' then
        let (sign, rest) := readSign rest
        (readDigits rest).map fun (digits, rest) => (c :: sign ++ digits, rest)
      else some ([], c :: rest)

/-- A number. -/
def readNumber (cs : List Char) : Option (JsonValue × List Char) := do
  let (sign, rest) := match cs with
    | '-' :: rest => (['-'], rest)
    | _ => ([], cs)
  let (whole, rest) ← readWhole rest
  let (fraction, rest) ← readFraction rest
  let (exponent, rest) ← readExponent rest
  return (.number (String.ofList (sign ++ whole ++ fraction ++ exponent)), rest)

/-- The values that are words. -/
def words : List (String × JsonValue) :=
  [("null", .null), ("true", .boolean true), ("false", .boolean false)]

/-- A word or a number. -/
def readWord (cs : List Char) : Option (JsonValue × List Char) :=
  match words.find? (·.1.toList.isPrefixOf cs) with
  | some (word, value) => some (value, cs.drop word.length)
  | none => readNumber cs

mutual

/-- A value, blanks before it passed over. -/
def readValue : Nat → List Char → Option (JsonValue × List Char)
  | 0, _ => none
  | fuel + 1, cs =>
      match skipBlanks cs with
      | '"' :: rest =>
          (readChars fuel rest).map fun (text, rest) => (.string (String.ofList text), rest)
      | '[' :: rest =>
          match skipBlanks rest with
          | ']' :: rest => some (.array [], rest)
          | _ => (readItems fuel rest).map fun (items, rest) => (.array items, rest)
      | '\x7b' :: rest =>
          match skipBlanks rest with
          | '\x7d' :: rest => some (.object [], rest)
          | _ => (readMembers fuel rest).map fun (members, rest) => (.object members, rest)
      | other => readWord other

/-- The items of an array that is not empty, and its end. -/
def readItems : Nat → List Char → Option (List JsonValue × List Char)
  | 0, _ => none
  | fuel + 1, cs => do
      let (item, rest) ← readValue fuel cs
      match skipBlanks rest with
      | ',' :: rest =>
          let (items, rest) ← readItems fuel rest
          return (item :: items, rest)
      | ']' :: rest => return ([item], rest)
      | _ => none

/-- The members of an object that is not empty, and its end. -/
def readMembers : Nat → List Char → Option (List (String × JsonValue) × List Char)
  | 0, _ => none
  | fuel + 1, cs =>
      match skipBlanks cs with
      | '"' :: rest => do
          let (name, rest) ← readChars fuel rest
          match skipBlanks rest with
          | ':' :: rest =>
              let (value, rest) ← readValue fuel rest
              match skipBlanks rest with
              | ',' :: rest =>
                  let (members, rest) ← readMembers fuel rest
                  return ((String.ofList name, value) :: members, rest)
              | '\x7d' :: rest => return ([(String.ofList name, value)], rest)
              | _ => none
          | _ => none
      | _ => none

end

/-- The value of a JSON text. -/
def read (text : String) : Option JsonValue :=
  match readValue text.length text.toList with
  | some (value, rest) => if skipBlanks rest = [] then some value else none
  | none => none

end Reader

section Strings

theorem digitValue?_hexDigit {n : Nat} (h : n < 16) : digitValue? (Text.hexDigit n) = some n := by
  have table : ∀ digit : Fin 16, digitValue? (Text.hexDigit digit) = some digit := by decide
  exact table ⟨n, h⟩

/-- Four digits of a number below 2 ^ 16 name it. -/
theorem readUnit_hexChars {n : Nat} (h : n < 0x10000) (rest : List Char) :
    readUnit (Text.hexChars 4 n ++ rest) = some (n, rest) := by
  have hdigits : Text.hexChars 4 n = [Text.hexDigit (n / 16 / 16 / 16 % 16),
      Text.hexDigit (n / 16 / 16 % 16), Text.hexDigit (n / 16 % 16), Text.hexDigit (n % 16)] := by
    simp [Text.hexChars]
  have hdigit : ∀ m : Nat, digitValue? (Text.hexDigit (m % 16)) = some (m % 16) :=
    fun m => digitValue?_hexDigit (Nat.mod_lt m (by decide))
  rw [hdigits]
  simp only [readUnit, List.cons_append, List.nil_append, hdigit, Option.bind_eq_bind,
    Option.bind_some]
  have hvalue : ((n / 16 / 16 / 16 % 16 * 16 + n / 16 / 16 % 16) * 16 + n / 16 % 16) * 16
      + n % 16 = n := by omega
  rw [hvalue]
  rfl

theorem readCode_hexChars {c : Char} (h : c.toNat < 0xD800) (rest : List Char) :
    readCode (Text.hexChars 4 c.toNat ++ rest) = some (c, rest) := by
  have hunit := readUnit_hexChars (show c.toNat < 0x10000 by omega) rest
  simp only [readCode, hunit, Option.bind_eq_bind, Option.bind_some, if_pos (Or.inl h),
    Char.ofNat_toNat]
  rfl

/-- A character is read back from its escape or from itself. -/
theorem readChar_escapeChar (c : Char) (rest : List Char) :
    readChar (Json.escapeChar c ++ rest) = some (c, rest) := by
  unfold Json.escapeChar
  split_ifs with hself hfeed hreturn htab hback hform hcontrol
  · rcases hself with rfl | rfl <;> rfl
  · subst hfeed; rfl
  · subst hreturn; rfl
  · subst htab; rfl
  · subst hback; rfl
  · subst hform; rfl
  · exact readCode_hexChars (by omega) rest
  · obtain ⟨hquote, hslash⟩ := not_or.mp hself
    simp [readChar, hquote, hslash, hcontrol]

theorem head?_escapeChar_ne (c : Char) (rest : List Char) :
    (Json.escapeChar c ++ rest).head? ≠ some '"' := by
  unfold Json.escapeChar
  split_ifs <;> simp_all

/-- A string is read back from its characters and the quote after them. -/
theorem readChars_flatMap_escapeChar (text rest : List Char) {fuel : Nat}
    (hfuel : text.length < fuel) :
    readChars fuel (text.flatMap Json.escapeChar ++ '"' :: rest) = some (text, rest) := by
  induction text generalizing fuel with
  | nil =>
      obtain ⟨fuel, rfl⟩ := Nat.exists_eq_add_one_of_ne_zero (Nat.ne_of_gt hfuel)
      rfl
  | cons c text ih =>
      obtain ⟨fuel, rfl⟩ := Nat.exists_eq_add_one_of_ne_zero (Nat.ne_zero_of_lt hfuel)
      have htext := ih (Nat.lt_of_succ_lt_succ hfuel)
      rw [List.flatMap_cons, List.append_assoc, readChars, if_neg (head?_escapeChar_ne c _),
        readChar_escapeChar]
      simp only [Option.bind_eq_bind, Option.bind_some, htext]
      rfl

theorem length_le_length_flatMap_escapeChar (text : List Char) :
    text.length ≤ (text.flatMap Json.escapeChar).length := by
  induction text with
  | nil => exact Nat.le_refl 0
  | cons c text ih =>
      have hc : 1 ≤ (Json.escapeChar c).length := by
        unfold Json.escapeChar
        split_ifs <;> simp
      rw [List.flatMap_cons, List.length_append, List.length_cons]
      omega

end Strings

mutual

/-- The value that a printed value denotes. -/
def ofJson : Json → JsonValue
  | .string text => .string text
  | .array items => .array (ofItems items)
  | .object members => .object (ofMembers members)

/-- The values that the items of a printed array denote. -/
def ofItems : List Json → List JsonValue
  | [] => []
  | item :: rest => ofJson item :: ofItems rest

/-- The members that those of a printed object denote. -/
def ofMembers : List (String × Json) → List (String × JsonValue)
  | [] => []
  | (name, value) :: rest => (name, ofJson value) :: ofMembers rest

end

theorem ofItems_eq_map (items : List Json) : ofItems items = items.map ofJson := by
  induction items with
  | nil => rfl
  | cons item rest ih => rw [ofItems, ih, List.map_cons]

section RoundTrip

theorem skipBlanks_newLine (depth : Nat) (cs : List Char) :
    skipBlanks (Json.newLine depth ++ cs) = skipBlanks cs := by
  refine List.dropWhile_append_of_pos fun c hc => ?_
  rcases List.mem_cons.mp hc with rfl | hspace
  · decide
  · rw [List.eq_of_mem_replicate hspace]
    decide

theorem skipBlanks_of_not_blank {c : Char} (h : isBlank c = false) (rest : List Char) :
    skipBlanks (c :: rest) = c :: rest :=
  List.dropWhile_cons_of_neg (by simp [h])

theorem readValue_newLine (fuel depth : Nat) (cs : List Char) :
    readValue fuel (Json.newLine depth ++ cs) = readValue fuel cs := by
  cases fuel with
  | zero => rfl
  | succ fuel => rw [readValue, readValue, skipBlanks_newLine]

theorem readValue_space (fuel : Nat) (cs : List Char) :
    readValue fuel (' ' :: cs) = readValue fuel cs := by
  cases fuel with
  | zero => rfl
  | succ fuel => rfl

theorem readMembers_newLine (fuel depth : Nat) (cs : List Char) :
    readMembers fuel (Json.newLine depth ++ cs) = readMembers fuel cs := by
  cases fuel with
  | zero => rfl
  | succ fuel => rw [readMembers, readMembers, skipBlanks_newLine]

theorem readChars_stringChars (text : String) (rest : List Char) {fuel : Nat}
    (hfuel : (Json.stringChars text).length ≤ fuel + 1) :
    readChars fuel (text.toList.flatMap Json.escapeChar ++ '"' :: rest) =
      some (text.toList, rest) := by
  have hlength := length_le_length_flatMap_escapeChar text.toList
  refine readChars_flatMap_escapeChar text.toList rest ?_
  simp only [Json.stringChars, List.length_append, List.length_cons, List.length_nil] at hfuel
  omega

theorem stringChars_append (text : String) (rest : List Char) :
    Json.stringChars text ++ rest =
      '"' :: (text.toList.flatMap Json.escapeChar ++ '"' :: rest) := by
  simp [Json.stringChars]

theorem itemsChars_false_of_ne_nil (depth : Nat) {items : List Json} (h : items ≠ []) :
    Json.itemsChars depth false items = ',' :: Json.itemsChars depth true items := by
  cases items with
  | nil => exact absurd rfl h
  | cons item rest => simp [Json.itemsChars]

theorem membersChars_false_of_ne_nil (depth : Nat) {members : List (String × Json)}
    (h : members ≠ []) :
    Json.membersChars depth false members = ',' :: Json.membersChars depth true members := by
  cases members with
  | nil => exact absurd rfl h
  | cons member rest => simp [Json.membersChars]

theorem skipBlanks_closing (depth : Nat) {c : Char} (h : isBlank c = false) (rest : List Char) :
    skipBlanks (Json.newLine depth ++ c :: rest) = c :: rest := by
  rw [skipBlanks_newLine, skipBlanks_of_not_blank h]

theorem length_newLine (depth : Nat) : (Json.newLine depth).length = 2 * depth + 1 := by
  simp [Json.newLine]

/-- A printed value begins with a quote or an opening bracket. -/
theorem exists_chars_eq_cons (value : Json) (depth : Nat) :
    ∃ c rest, value.chars depth = c :: rest ∧ isBlank c = false ∧ c ≠ ']' := by
  cases value with
  | string text => exact ⟨'"', _, rfl, by decide, by decide⟩
  | array items =>
      rw [Json.chars]
      split_ifs
      · exact ⟨'[', _, rfl, by decide, by decide⟩
      · exact ⟨'[', _, rfl, by decide, by decide⟩
  | object members =>
      rw [Json.chars]
      split_ifs
      · exact ⟨'\x7b', _, rfl, by decide, by decide⟩
      · exact ⟨'\x7b', _, rfl, by decide, by decide⟩

theorem exists_skipBlanks_itemsChars (depth : Nat) {items : List Json} (h : items ≠ [])
    (rest : List Char) : ∃ c cs,
      skipBlanks (Json.itemsChars depth true items ++ rest) = c :: cs ∧ c ≠ ']' := by
  cases items with
  | nil => exact absurd rfl h
  | cons item items =>
      obtain ⟨c, cs, hchars, hblank, hclosing⟩ := exists_chars_eq_cons item depth
      refine ⟨c, cs ++ (Json.itemsChars depth false items ++ rest), ?_, hclosing⟩
      simp only [Json.itemsChars, if_true, List.nil_append, List.append_assoc,
        skipBlanks_newLine, hchars, List.cons_append, skipBlanks_of_not_blank hblank]

theorem exists_skipBlanks_membersChars (depth : Nat) {members : List (String × Json)}
    (h : members ≠ []) (rest : List Char) : ∃ cs,
      skipBlanks (Json.membersChars depth true members ++ rest) = '"' :: cs := by
  cases members with
  | nil => exact absurd rfl h
  | cons member members =>
      simp only [Json.membersChars, if_true, List.nil_append, List.append_assoc,
        skipBlanks_newLine, stringChars_append]
      exact ⟨_, rfl⟩

-- The recursion is that of the printer.  The number of characters bounds how deep the
-- reader goes, since each of its steps leaves at least one of them behind.
mutual

theorem readValue_chars : (value : Json) → ∀ (depth : Nat) (rest : List Char) {fuel : Nat},
    (value.chars depth).length ≤ fuel →
      readValue fuel (value.chars depth ++ rest) = some (ofJson value, rest)
  | .string text, depth, rest, fuel, hfuel => by
      obtain ⟨fuel, rfl⟩ : ∃ less, fuel = less + 1 := by
        refine Nat.exists_eq_add_one_of_ne_zero ?_
        rintro rfl
        simp [Json.chars, Json.stringChars] at hfuel
      rw [Json.chars] at hfuel ⊢
      rw [stringChars_append, readValue, skipBlanks_of_not_blank (by decide)]
      simp only [readChars_stringChars text rest hfuel, Option.map_some, String.ofList_toList,
        ofJson]
  | .array items, depth, rest, fuel, hfuel => by
      rw [Json.chars] at hfuel ⊢
      obtain ⟨fuel, rfl⟩ : ∃ less, fuel = less + 1 := by
        refine Nat.exists_eq_add_one_of_ne_zero ?_
        rintro rfl
        split_ifs at hfuel <;> simp at hfuel
      split_ifs at hfuel ⊢ with hempty
      · rw [List.isEmpty_iff.mp hempty]
        rfl
      · have hitems : items ≠ [] := fun hnil => hempty (by simp [hnil])
        have hread := readItems_itemsChars items hitems (depth + 1) depth rest (by
          simp only [List.length_append, List.length_cons] at hfuel; omega : _ ≤ fuel)
        obtain ⟨c, cs, hskip, hclosing⟩ := exists_skipBlanks_itemsChars (depth + 1) hitems
          (Json.newLine depth ++ ']' :: rest)
        simp only [List.cons_append, List.append_assoc, List.nil_append]
        rw [readValue, skipBlanks_of_not_blank (by decide)]
        simp only [hskip, hread]
        split
        · rename_i heq
          exact absurd (List.cons.inj heq).1 hclosing
        · rfl
  | .object members, depth, rest, fuel, hfuel => by
      rw [Json.chars] at hfuel ⊢
      obtain ⟨fuel, rfl⟩ : ∃ less, fuel = less + 1 := by
        refine Nat.exists_eq_add_one_of_ne_zero ?_
        rintro rfl
        split_ifs at hfuel <;> simp at hfuel
      split_ifs at hfuel ⊢ with hempty
      · rw [List.isEmpty_iff.mp hempty]
        rfl
      · have hmembers : members ≠ [] := fun hnil => hempty (by simp [hnil])
        have hread := readMembers_membersChars members hmembers (depth + 1) depth rest (by
          simp only [List.length_append, List.length_cons] at hfuel; omega : _ ≤ fuel)
        obtain ⟨cs, hskip⟩ := exists_skipBlanks_membersChars (depth + 1) hmembers
          (Json.newLine depth ++ '\x7d' :: rest)
        simp only [List.cons_append, List.append_assoc, List.nil_append]
        rw [readValue, skipBlanks_of_not_blank (by decide)]
        simp only [hskip, hread]
        rfl

theorem readItems_itemsChars : (items : List Json) → items ≠ [] →
    ∀ (depth closing : Nat) (rest : List Char) {fuel : Nat},
      (Json.itemsChars depth true items).length ≤ fuel →
        readItems fuel (Json.itemsChars depth true items ++
          (Json.newLine closing ++ ']' :: rest)) = some (ofItems items, rest)
  | [], hitems => absurd rfl hitems
  | item :: items, _ => by
      intro depth closing rest fuel hfuel
      rw [Json.itemsChars] at hfuel ⊢
      simp only [if_true, List.nil_append, List.length_append, length_newLine] at hfuel
      obtain ⟨fuel, rfl⟩ : ∃ less, fuel = less + 1 :=
        Nat.exists_eq_add_one_of_ne_zero (by omega)
      simp only [if_true, List.nil_append, List.append_assoc]
      rw [readItems, readValue_newLine, readValue_chars item depth _ (by omega)]
      simp only [Option.bind_eq_bind, Option.bind_some]
      by_cases hnil : items = []
      · subst hnil
        simp only [Json.itemsChars, List.nil_append, skipBlanks_closing closing (c := ']') rfl]
        rfl
      · rw [itemsChars_false_of_ne_nil depth hnil] at hfuel ⊢
        rw [List.cons_append, skipBlanks_of_not_blank (by decide)]
        simp only [readItems_itemsChars items hnil depth closing rest (by
          rw [List.length_cons] at hfuel; omega : _ ≤ fuel)]
        rfl

theorem readMembers_membersChars : (members : List (String × Json)) → members ≠ [] →
    ∀ (depth closing : Nat) (rest : List Char) {fuel : Nat},
      (Json.membersChars depth true members).length ≤ fuel →
        readMembers fuel (Json.membersChars depth true members ++
          (Json.newLine closing ++ '\x7d' :: rest)) = some (ofMembers members, rest)
  | [], hmembers => absurd rfl hmembers
  | (name, value) :: members, _ => by
      intro depth closing rest fuel hfuel
      rw [Json.membersChars] at hfuel ⊢
      simp only [if_true, List.nil_append, List.length_append, length_newLine,
        List.length_cons, List.length_nil] at hfuel
      obtain ⟨fuel, rfl⟩ : ∃ less, fuel = less + 1 :=
        Nat.exists_eq_add_one_of_ne_zero (by omega)
      simp only [if_true, List.nil_append, List.append_assoc, List.cons_append]
      rw [readMembers_newLine, stringChars_append, readMembers,
        skipBlanks_of_not_blank (by decide)]
      simp only [readChars_stringChars name _ (by omega : _ ≤ fuel + 1), Option.bind_eq_bind,
        Option.bind_some, skipBlanks_of_not_blank (c := ':') rfl, readValue_space]
      rw [readValue_chars value depth _ (by omega)]
      simp only [Option.bind_some, String.ofList_toList]
      by_cases hnil : members = []
      · subst hnil
        simp only [Json.membersChars, List.nil_append,
          skipBlanks_closing closing (c := '\x7d') rfl]
        rfl
      · rw [membersChars_false_of_ne_nil depth hnil] at hfuel ⊢
        rw [List.cons_append, skipBlanks_of_not_blank (by decide)]
        simp only [readMembers_membersChars members hnil depth closing rest (by
          rw [List.length_cons] at hfuel; omega : _ ≤ fuel)]
        rfl

end

/-- A printed value is read back as what it denotes. -/
theorem read_write (value : Json) : read value.write = some (ofJson value) := by
  have hvalue : readValue value.write.length value.write.toList = some (ofJson value, []) := by
    have h := readValue_chars value 0 [] (Nat.le_refl _)
    rw [List.append_nil] at h
    rw [Json.write, String.length_ofList, String.toList_ofList, h]
  rw [read, hvalue]
  rfl

end RoundTrip

end JsonValue
end JavaSketch
