import SlotRecord.Proofs.Text.Literal

/-!
# Spellings between quotes

Reading a literal is finding the spelling that its first quote encloses: each character
stands for itself or is escaped, and the first quote without an escape is the end. A
literal that is written has one such reading, its own text, whatever follows it.
-/

namespace SlotRecord

namespace Literal

/-- Characters as they are spelled between quotes of a kind. -/
inductive Spells (quote : Char) : List Char → List Char → Prop where
  | nil : Spells quote [] []
  | plain {character : Char} {content spelled : List Char} :
      character ≠ '\\' → character ≠ quote →
      Spells quote content spelled →
      Spells quote (character :: content) (character :: spelled)
  | simple {mark character : Char} {content spelled : List Char} :
      simpleEscape? quote mark = some character →
      Spells quote content spelled →
      Spells quote (character :: content) ('\\' :: mark :: spelled)
  | number {first second : Char} {high low : Nat} {content spelled : List Char} :
      Hex.value? first = some high → Hex.value? second = some low →
      Spells quote content spelled →
      Spells quote (Char.ofNat (high * 16 + low) :: content)
        ('\\' :: 'x' :: first :: second :: spelled)

/-- A text begins with a literal: a quote, a spelling, and the same quote. -/
def Begins (input content rest : List Char) : Prop :=
  ∃ quote spelled, IsQuote quote ∧ Spells quote content spelled ∧
    input = quote :: (spelled ++ quote :: rest)

theorem simpleEscape?_number {quote : Char} (isQuote : IsQuote quote) :
    simpleEscape? quote 'x' = none := by
  rcases isQuote with rfl | rfl <;> rfl

theorem readCharacters_hex {first second : Char} {high low : Nat}
    (upper : Hex.value? first = some high) (lower : Hex.value? second = some low)
    (quote : Char) (rest : List Char) :
    readCharacters quote ('\\' :: 'x' :: first :: second :: rest) =
      (readCharacters quote rest).map fun found =>
        (Char.ofNat (high * 16 + low) :: found.1, found.2) := by
  rw [readCharacters, upper, lower]
  simp only [Option.bind_eq_bind, Option.bind_some]
  cases readCharacters quote rest <;> rfl

theorem readCharacters_of_spells {quote : Char} {content spelled : List Char}
    (isQuote : IsQuote quote) (spells : Spells quote content spelled) (rest : List Char) :
    readCharacters quote (spelled ++ quote :: rest) = some (content, rest) := by
  induction spells with
  | nil => exact readCharacters_quote isQuote rest
  | plain noBackslash noQuote _ induction =>
      rw [List.cons_append, readCharacters_plain noBackslash noQuote, induction]
      rfl
  | @simple mark _ _ _ escape _ induction =>
      have noNumber : mark ≠ 'x' := by
        rintro rfl
        rw [simpleEscape?_number isQuote] at escape
        cases escape
      rw [List.cons_append, List.cons_append, readCharacters_simple escape noNumber, induction]
      rfl
  | number upper lower _ induction =>
      simp only [List.cons_append]
      rw [readCharacters_hex upper lower, induction]
      rfl

/-- A backslash that is the last character begins no escape. -/
theorem readCharacters_backslash {quote : Char} (isQuote : IsQuote quote) :
    readCharacters quote ['\\'] = none := by
  rcases isQuote with rfl | rfl <;> rfl

theorem spells_of_readCharacters {quote : Char} {input content rest : List Char}
    (isQuote : IsQuote quote) (scanned : readCharacters quote input = some (content, rest)) :
    ∃ spelled, Spells quote content spelled ∧ input = spelled ++ quote :: rest := by
  induction input using readCharacters.induct quote generalizing content rest with
  | case1 => cases scanned
  | case2 first second tail induction =>
      simp only [readCharacters, Option.bind_eq_bind, Option.bind_eq_some_iff] at scanned
      obtain ⟨high, upper, low, lower, ⟨others, after⟩, continued, same⟩ := scanned
      cases same
      obtain ⟨spelled, spells, rfl⟩ := induction continued
      exact ⟨_, .number upper lower spells, rfl⟩
  | case3 mark tail noNumber induction =>
      rw [readCharacters] at scanned
      · simp only [Option.bind_eq_bind, Option.bind_eq_some_iff] at scanned
        obtain ⟨character, escape, ⟨others, after⟩, continued, same⟩ := scanned
        cases same
        obtain ⟨spelled, spells, rfl⟩ := induction continued
        exact ⟨_, .simple escape spells, rfl⟩
      · exact noNumber
  | case4 tail _ _ =>
      rw [readCharacters_quote isQuote] at scanned
      cases scanned
      exact ⟨[], .nil, rfl⟩
  | case5 character tail _ noMark noQuote induction =>
      by_cases backslash : character = '\\'
      · cases tail with
        | nil =>
            rw [backslash, readCharacters_backslash isQuote] at scanned
            cases scanned
        | cons mark tail => exact absurd rfl (noMark mark tail backslash)
      · rw [readCharacters_plain backslash noQuote, Option.map_eq_some_iff] at scanned
        obtain ⟨⟨others, after⟩, continued, same⟩ := scanned
        cases same
        obtain ⟨spelled, spells, rfl⟩ := induction continued
        exact ⟨_, .plain backslash noQuote spells, rfl⟩

/-- The reader finds the literals that texts begin with, and nothing else. -/
theorem read_eq_some_iff {input content rest : List Char} :
    read input = some (content, rest) ↔ Begins input content rest := by
  constructor
  · intro taken
    cases input with
    | nil => cases taken
    | cons quote tail =>
        rw [read] at taken
        split at taken
        · next isQuote =>
            obtain ⟨spelled, spells, rfl⟩ := spells_of_readCharacters isQuote taken
            exact ⟨quote, spelled, isQuote, spells, rfl⟩
        · cases taken
  · rintro ⟨quote, spelled, isQuote, spells, rfl⟩
    rw [read, if_pos isQuote]
    exact readCharacters_of_spells isQuote spells rest

/-- A control character, of ASCII or next to it. -/
def IsControl (character : Char) : Prop :=
  character.toNat ≤ 0x1f ∨ 0x7f ≤ character.toNat ∧ character.toNat ≤ 0x9f

instance : DecidablePred IsControl := fun character =>
  inferInstanceAs (Decidable (character.toNat ≤ 0x1f ∨
    0x7f ≤ character.toNat ∧ character.toNat ≤ 0x9f))

theorem isControl_iff {character : Char} : isControl character = true ↔ IsControl character := by
  simp only [isControl, IsControl, Bool.or_eq_true, Bool.and_eq_true, decide_eq_true_eq]
  omega

theorem not_isControl_quote {quote : Char} (isQuote : IsQuote quote) : ¬IsControl quote := by
  rcases isQuote with rfl | rfl <;> decide

theorem not_isControl_digit {number : Nat} (below : number < 16) :
    ¬IsControl (Hex.digit number) := by
  revert number
  decide

/-- What a character is escaped by is visible, and so is one that is not escaped. -/
theorem not_isControl_of_mem_escaped {quote character written : Char}
    (isQuote : IsQuote quote) (member : written ∈ escaped quote character) :
    ¬IsControl written := by
  rw [escaped] at member
  split_ifs at member with backslash newline carriage tab same control
  · simp only [List.mem_cons, List.not_mem_nil, or_false, or_self] at member
    rw [member]
    decide
  · simp only [List.mem_cons, List.not_mem_nil, or_false] at member
    rcases member with rfl | rfl <;> decide
  · simp only [List.mem_cons, List.not_mem_nil, or_false] at member
    rcases member with rfl | rfl <;> decide
  · simp only [List.mem_cons, List.not_mem_nil, or_false] at member
    rcases member with rfl | rfl <;> decide
  · simp only [List.mem_cons, List.not_mem_nil, or_false] at member
    rcases member with rfl | rfl
    · decide
    · exact not_isControl_quote isQuote
  · have digits : Hex.fixed 2 character.toNat =
        [Hex.digit (character.toNat / 16 % 16), Hex.digit (character.toNat % 16)] := rfl
    rw [digits] at member
    simp only [List.mem_cons, List.not_mem_nil, or_false] at member
    rcases member with rfl | rfl | rfl | rfl
    · decide
    · decide
    · exact not_isControl_digit (Nat.mod_lt _ (by decide))
    · exact not_isControl_digit (Nat.mod_lt _ (by decide))
  · rw [List.mem_singleton.mp member, ← isControl_iff]
    exact control

theorem not_isControl_of_mem_write {content : List Char} {written : Char}
    (member : written ∈ write content) : ¬IsControl written := by
  have isQuote := isQuote_quoteOf content
  simp only [write, List.mem_cons, List.mem_append, List.mem_flatMap, List.not_mem_nil,
    or_false] at member
  rcases member with rfl | ⟨character, _, inside⟩ | rfl
  · exact not_isControl_quote isQuote
  · exact not_isControl_of_mem_escaped isQuote inside
  · exact not_isControl_quote isQuote

theorem quoteOf_eq_doubleQuote_iff {content : List Char} :
    quoteOf content = doubleQuote ↔ singleQuote ∈ content ∧ doubleQuote ∉ content := by
  rw [quoteOf]
  split
  · next both => simpa only [true_iff] using both
  · next neither => simpa only [neither, iff_false] using (by decide : singleQuote ≠ doubleQuote)

/-- What the literal of a text is: it is read back as the text whatever follows it, and in
no other way, it shows no control character, and its quotes are double ones only if a single
one stands in the text and no double one does. -/
structure SelfDelimiting (content : List Char) : Prop where
  read : ∀ rest, read (write content ++ rest) = some (content, rest)
  begins : ∀ rest found after,
    Begins (write content ++ rest) found after ↔ found = content ∧ after = rest
  visible : ∀ character ∈ write content, ¬IsControl character
  quoted : ∃ quote spelled, write content = quote :: (spelled ++ [quote]) ∧
    (quote = doubleQuote ↔ singleQuote ∈ content ∧ doubleQuote ∉ content) ∧
    (quote = singleQuote ↔ ¬(singleQuote ∈ content ∧ doubleQuote ∉ content))

/-- The literal of a text ends where it can be seen to end, and tells the text. -/
theorem literals_self_delimiting (content : List Char) : SelfDelimiting content := by
  constructor
  case read => exact read_write_append content
  case begins =>
    intro rest found after
    rw [← read_eq_some_iff, read_write_append]
    simp only [Option.some.injEq, Prod.mk.injEq, eq_comm]
  case visible =>
    intro character member
    exact not_isControl_of_mem_write member
  case quoted =>
    refine ⟨quoteOf content, content.flatMap (escaped (quoteOf content)), rfl,
      quoteOf_eq_doubleQuote_iff, ?_⟩
    rw [← quoteOf_eq_doubleQuote_iff]
    rcases isQuote_quoteOf content with single | double
    · rw [single]
      decide
    · rw [double]
      decide

/-- A hexadecimal escape may be followed by digits of the text. -/
example : write ['\x1b', '4', '1', '\x27', '\\'] =
    "\"\\x1b41'\\\\\"".toList := by decide

end Literal

end SlotRecord
