import Mathlib.Tactic.SplitIfs
import SlotRecord.Proofs.Prolonged
import SlotRecord.Proofs.Json.Extent

/-!
# JSON texts that go on

More text behind a text that is read does not change what is read, whatever the fuel.
Only a number that reaches the end of a text may go on; the brackets, quotes and words
that end everything else do not depend on what follows.
-/

namespace SlotRecord

theorem Digits.read_extend {text rest : List Char} {digits : List Digit} {next : Char}
    (taken : Digits.read text = (digits, next :: rest)) (more : List Char) :
    Digits.read (text ++ more) = (digits, next :: rest ++ more) := by
  induction text generalizing digits with
  | nil => cases taken
  | cons head tail induction =>
      rw [Digits.read] at taken
      rw [List.cons_append, Digits.read]
      split at taken
      · cases scanned : Digits.read tail with
        | mk others left =>
            rw [scanned] at taken
            cases taken
            rw [induction scanned]
      · cases taken
        rfl

namespace Numeral

variable (text more : List Char)

theorem readWhole_extend :
    ProlongsInside more (readWhole text) (readWhole (text ++ more)) := by
  intro whole next rest read
  rw [readWhole] at read
  split at read
  · cases read
  · rename_i lead others left taken
    split at read
    · cases read
    · rename_i sound
      cases read
      simp only [readWhole, Digits.read_extend taken more]
      exact if_neg sound

theorem readFraction_extend :
    ProlongsInside more (readFraction text) (readFraction (text ++ more)) := by
  intro fraction next rest read
  rw [readFraction.eq_def] at read
  split at read
  · rename_i tail
    split at read
    · cases read
    · rename_i digits left some taken
      cases read
      simp only [List.cons_append, readFraction, Digits.read_extend taken more]
  · rename_i noPoint
    cases read
    rw [List.cons_append, readFraction]
    intro _ equality
    cases equality
    exact noPoint _ rfl

theorem readExponentDigits_extend (negative : Bool) :
    ProlongsInside more (readExponentDigits negative text)
      (readExponentDigits negative (text ++ more)) := by
  intro exponent next rest read
  rw [readExponentDigits] at read
  split at read
  · cases read
  · rename_i digits left some taken
    cases read
    simp only [readExponentDigits, Digits.read_extend taken more]

theorem readExponent_extend :
    ProlongsInside more (readExponent text) (readExponent (text ++ more)) := by
  intro exponent next rest read
  cases text with
  | nil => cases read
  | cons mark tail =>
      rw [readExponent.eq_def] at read
      rw [List.cons_append, readExponent.eq_def]
      dsimp only at read ⊢
      split at read
      · rename_i marked
        rw [if_pos marked]
        cases tail with
        | nil => cases read
        | cons sign tail =>
            split at read
            · rename_i after same
              cases same
              exact readExponentDigits_extend tail more false _ _ _ read
            · rename_i after same
              cases same
              exact readExponentDigits_extend tail more true _ _ _ read
            · rename_i noPlus noMinus
              have digits := readExponentDigits_extend (sign :: tail) more false _ _ _ read
              split
              · rename_i after same
                cases same
                exact absurd rfl (noPlus tail)
              · rename_i after same
                cases same
                exact absurd rfl (noMinus tail)
              · exact digits
      · rename_i unmarked
        cases read
        exact if_neg unmarked

theorem readUnsigned_extend (negative : Bool) :
    ProlongsInside more (readUnsigned negative text) (readUnsigned negative (text ++ more)) := by
  intro numeral next rest read
  simp only [readUnsigned, Option.bind_eq_bind, Option.bind_eq_some_iff] at read
  obtain ⟨⟨whole, left⟩, wholeRead, ⟨fraction, remaining⟩, fractionRead,
    ⟨exponent, rest⟩, exponentRead, complete⟩ := read
  cases complete
  -- Nothing is read of an input that has ended, so each part leaves something.
  cases remaining with
  | nil => cases exponentRead
  | cons second remaining =>
      cases left with
      | nil => cases fractionRead
      | cons first left =>
          have wholeLonger := readWhole_extend text more _ _ _ wholeRead
          have fractionLonger := readFraction_extend _ more _ _ _ fractionRead
          have exponentLonger := readExponent_extend _ more _ _ _ exponentRead
          simp only [readUnsigned, wholeLonger, fractionLonger, exponentLonger,
            Option.bind_eq_bind, Option.bind_some, Option.pure_def]

theorem read_extend : ProlongsInside more (read text) (read (text ++ more)) := by
  intro numeral next rest taken
  cases text with
  | nil => cases taken
  | cons head tail =>
      rw [read.eq_def] at taken
      rw [List.cons_append, read.eq_def]
      split at taken
      · rename_i after same
        cases same
        exact readUnsigned_extend tail more true _ _ _ taken
      · rename_i unsigned
        split
        · rename_i after same
          cases same
          exact absurd rfl (unsigned tail)
        · exact readUnsigned_extend (head :: tail) more false _ _ _ taken

end Numeral

namespace Json

theorem skipBlank_extend {text rest : List Char} {next : Char}
    (skipped : skipBlank text = next :: rest) (more : List Char) :
    skipBlank (text ++ more) = next :: rest ++ more := by
  have ahead : (List.dropWhile isBlank text).isEmpty = false := by
    rw [show List.dropWhile isBlank text = next :: rest from skipped]
    rfl
  rw [skipBlank, List.dropWhile_append, ahead]
  exact congrArg (· ++ more) skipped

theorem readPieces_extend (text more : List Char) :
    Prolongs more (readPieces text) (readPieces (text ++ more)) := by
  fun_induction readPieces text with
  | case1 => exact .none _
  | case2 tail => exact .some [] tail
  | case3 a b c d tail induction =>
      exact .check fun code => induction.bind fun pieces rest => .some _ rest
  | case4 mark tail short induction =>
      by_cases unit : mark = 'u'
      · subst unit
        exact .none _
      · rw [List.cons_append, List.cons_append, readPieces]
        · exact .check fun value => induction.bind fun pieces rest => .some _ rest
        · intro _ _ _ _ _ equality
          exact absurd equality unit
  | case5 value tail notQuote noUnit noEscape induction =>
      by_cases backslash : value = '\\'
      · subst backslash
        exact .none _
      · rw [List.cons_append, readPieces]
        · exact .check fun _ => induction.bind fun pieces rest => .some _ rest
        · exact notQuote
        · exact fun _ _ _ _ _ same => absurd same backslash
        · exact fun _ _ same => absurd same backslash

theorem readString_extend (text more : List Char) :
    Prolongs more (readString text) (readString (text ++ more)) :=
  (readPieces_extend text more).bind fun _ rest => .some _ rest

/-- The next character that is no blank is the same, if there is one. -/
theorem skipBlank_extend_cases (text more : List Char) :
    skipBlank text = [] ∨ ∃ mark rest, skipBlank text = mark :: rest ∧
      skipBlank (text ++ more) = mark :: (rest ++ more) := by
  cases skipped : skipBlank text with
  | nil => exact Or.inl rfl
  | cons mark rest => exact Or.inr ⟨mark, rest, rfl, skipBlank_extend skipped more⟩

theorem readNode_nil (fuel : Nat) : readNode fuel [] = none := by
  cases fuel <;> rfl

theorem readItems_nil (fuel : Nat) : readItems fuel [] = none := by
  cases fuel with
  | zero => rfl
  | succ fuel =>
      rw [readItems, readNode_nil]
      rfl

theorem readMembers_nil (fuel : Nat) : readMembers fuel [] = none := by
  cases fuel <;> rfl

theorem skipped_extend {β : Type} {short long : List Char → Option (β × List Char)}
    {more : List Char} (ended : short [] = none)
    (inside : ∀ text, Prolongs more (short text) (long (text ++ more))) (text : List Char) :
    Prolongs more (short (skipBlank text)) (long (skipBlank (text ++ more))) := by
  rcases skipBlank_extend_cases text more with empty | ⟨mark, rest, first, second⟩
  · rw [empty, ended]
    exact .none _
  · rw [first, second]
    exact inside (mark :: rest)

/-- What is read with some fuel is read with other fuel too, in front of more text. -/
structure Extends (more : List Char) (fuel longer : Nat) : Prop where
  node : ∀ text, ProlongsInside more (readNode fuel text) (readNode longer (text ++ more))
  items : ∀ text, Prolongs more (readItems fuel text) (readItems longer (text ++ more))
  members : ∀ text,
    Prolongs more (readMembers fuel text) (readMembers longer (text ++ more))

namespace Extends

variable {more : List Char} {fuel longer : Nat} (inside : Extends more fuel longer)
  (text : List Char)

include inside

theorem skipped_node :
    ProlongsInside more (readNode fuel (skipBlank text))
      (readNode longer (skipBlank (text ++ more))) := by
  rcases skipBlank_extend_cases text more with ended | ⟨mark, rest, short, long⟩
  · rw [ended, readNode_nil]
    exact (Prolongs.none _).inside
  · rw [short, long]
    exact inside.node (mark :: rest)

theorem skipped_items :
    Prolongs more (readItems fuel (skipBlank text))
      (readItems longer (skipBlank (text ++ more))) :=
  skipped_extend (readItems_nil fuel) inside.items text

theorem skipped_members :
    Prolongs more (readMembers fuel (skipBlank text))
      (readMembers longer (skipBlank (text ++ more))) :=
  skipped_extend (readMembers_nil fuel) inside.members text

theorem bracket :
    Prolongs more (readNode (fuel + 1) ('[' :: text))
      (readNode (longer + 1) ('[' :: (text ++ more))) := by
  have items := inside.skipped_items text
  rw [readNode, readNode]
  rcases skipBlank_extend_cases text more with ended | ⟨mark, rest, short, long⟩
  · rw [ended]
    dsimp only
    rw [readItems_nil]
    exact .none _
  · rw [short, long] at items ⊢
    by_cases closing : mark = ']'
    · subst closing
      exact .some (Node.array []) rest
    · split
      · rename_i same
        exact absurd (List.cons.inj same).1 closing
      · split
        · rename_i same
          exact absurd (List.cons.inj same).1 closing
        · exact items.bind fun items left => .some (Node.array items) left

theorem brace :
    Prolongs more (readNode (fuel + 1) ('\x7b' :: text))
      (readNode (longer + 1) ('\x7b' :: (text ++ more))) := by
  have members := inside.skipped_members text
  rw [readNode, readNode]
  rcases skipBlank_extend_cases text more with ended | ⟨mark, rest, short, long⟩
  · rw [ended]
    dsimp only
    rw [readMembers_nil]
    exact .none _
  · rw [short, long] at members ⊢
    by_cases closing : mark = '\x7d'
    · subst closing
      exact .some (Node.object []) rest
    · split
      · rename_i same
        exact absurd (List.cons.inj same).1 closing
      · split
        · rename_i same
          exact absurd (List.cons.inj same).1 closing
        · exact members.bind fun members left => .some (Node.object members) left

theorem node_succ :
    ProlongsInside more (readNode (fuel + 1) text) (readNode (longer + 1) (text ++ more)) := by
  intro node next rest read
  rw [readNode.eq_def] at read
  dsimp only at read
  split at read
  · cases read
    rfl
  · cases read
    rfl
  · cases read
    rfl
  · rename_i tail
    rw [List.cons_append, readNode]
    exact ((readString_extend tail more).bind fun content left =>
      .some (Node.string content) left) _ _ read
  · rename_i tail
    refine inside.bracket tail _ _ ?_
    rw [readNode]
    exact read
  · rename_i tail
    refine inside.brace tail _ _ ?_
    rw [readNode]
    exact read
  · simp only [Option.bind_eq_bind, Option.bind_eq_some_iff] at read
    obtain ⟨⟨numeral, left⟩, taken, complete⟩ := read
    cases complete
    have longerRead := Numeral.read_extend text more _ _ _ taken
    obtain ⟨head, tail, rfl, leads⟩ := Numeral.leads_of_read taken
    rw [List.cons_append] at longerRead ⊢
    rw [readNode_of_leads leads, longerRead]
    rfl

theorem items_succ :
    Prolongs more (readItems (fuel + 1) text) (readItems (longer + 1) (text ++ more)) := by
  rw [readItems, readItems]
  apply (inside.node text).bind
  · exact fun head => rfl
  · intro head next rest
    dsimp only
    rcases skipBlank_extend_cases (next :: rest) more with ended | ⟨mark, left, short, long⟩
    · rw [ended]
      exact .none _
    · rw [short, long]
      split
      · rename_i same
        cases same
        exact .some [head] left
      · rename_i same
        cases same
        exact (inside.skipped_items left).bind fun tail left => .some (head :: tail) left
      · exact .none _

theorem members_succ :
    Prolongs more (readMembers (fuel + 1) text) (readMembers (longer + 1) (text ++ more)) := by
  rw [readMembers.eq_def]
  dsimp only
  split
  · rename_i tail
    rw [List.cons_append, readMembers]
    refine (readString_extend tail more).bind fun key rest => ?_
    dsimp only
    rcases skipBlank_extend_cases rest more with ended | ⟨colon, rest, short, long⟩
    · rw [ended]
      exact .none _
    rw [short, long]
    split
    · rename_i same
      cases same
      apply (inside.skipped_node rest).bind
      · exact fun head => rfl
      · intro head next rest
        dsimp only
        rcases skipBlank_extend_cases (next :: rest) more with
          ended | ⟨mark, left, short, long⟩
        · rw [ended]
          exact .none _
        · rw [short, long]
          split
          · rename_i same
            cases same
            exact .some [(key, head)] left
          · rename_i same
            cases same
            exact (inside.skipped_members left).bind fun tail left =>
              .some ((key, head) :: tail) left
          · exact .none _
    · exact .none _
  · exact .none _

end Extends

theorem extends_of_le (more : List Char) {fuel longer : Nat} (enough : fuel ≤ longer) :
    Extends more fuel longer := by
  induction fuel generalizing longer with
  | zero =>
      constructor
      · exact fun text => (Prolongs.none _).inside
      · exact fun text => .none _
      · exact fun text => .none _
  | succ fuel induction =>
      obtain ⟨longer, rfl⟩ : ∃ less, longer = less + 1 := ⟨longer - 1, by omega⟩
      have inside := induction (Nat.le_of_succ_le_succ enough)
      exact ⟨inside.node_succ, inside.items_succ, inside.members_succ⟩

/-- A text that is an object from its first character to its last one. -/
structure IsObject (text : List Char) (node : Node) : Prop where
  brace : ∃ tail, text = '\x7b' :: tail
  whole : readNode (2 * text.length + 2) text = some (node, [])

namespace IsObject

variable {text : List Char} {node : Node} (object : IsObject text node)

include object

/-- Blanks may follow an object, nothing else. -/
theorem read?_append (suffix : List Char) :
    Node.read? (text ++ suffix) = if skipBlank suffix = [] then some node else none := by
  obtain ⟨⟨tail, rfl⟩, whole⟩ := object
  have enough : 2 * tail.length + 3 ≤ 2 * (tail ++ suffix).length + 3 := by
    rw [List.length_append]
    omega
  have read : readNode (2 * (tail ++ suffix).length + 4) ('\x7b' :: (tail ++ suffix)) =
      some (node, suffix) :=
    (extends_of_le suffix enough).brace tail node [] whole
  have noBlank : skipBlank ('\x7b' :: (tail ++ suffix)) = '\x7b' :: (tail ++ suffix) := rfl
  have fuel : 2 * ('\x7b' :: (tail ++ suffix)).length + 2 = 2 * (tail ++ suffix).length + 4 :=
    rfl
  rw [List.cons_append, Node.read?, noBlank, fuel, read]
  by_cases blank : skipBlank suffix = []
  · rw [if_pos blank]
    simp [blank]
  · rw [if_neg blank]
    simp [blank]

/-- An object that is cut off is no document. -/
theorem read?_front {front back : List Char} (split : front ++ back = text)
    (lost : back ≠ []) : Node.read? front = none := by
  obtain ⟨⟨tail, begins⟩, whole⟩ := object
  subst split
  cases front with
  | nil => rfl
  | cons first front =>
      obtain ⟨rfl, _⟩ := List.cons.inj begins
      have noBlank : skipBlank ('\x7b' :: front) = '\x7b' :: front := rfl
      have enough : 2 * front.length + 3 ≤ 2 * (front ++ back).length + 3 := by
        rw [List.length_append]
        omega
      have prolongs : Prolongs back
          (readNode (2 * ('\x7b' :: front).length + 2) ('\x7b' :: front)) (some (node, [])) :=
        whole ▸ (extends_of_le back enough).brace front
      rw [Node.read?, noBlank, prolongs.eq_none lost]
      rfl

end IsObject

end Json

end SlotRecord
