import Mathlib.Data.String.Lemmas
import SlotRecord.Json.Reader
import SlotRecord.Proofs.Json.Decoded

/-!
# Sizes of documents

Reading takes at least a byte for each item, for each member and for each byte of a
string. So nothing that a document holds is longer than the text it is read from.
-/

namespace SlotRecord

open Json String

theorem Digits.length_le_of_read {text rest : List Char} {digits : List Digit}
    (taken : Digits.read text = (digits, rest)) :
    digits.length + utf8Len rest ≤ utf8Len text := by
  induction text generalizing digits with
  | nil =>
      cases taken
      exact Nat.le_refl 0
  | cons head tail induction =>
      rw [Digits.read] at taken
      split at taken
      · cases taken
        have shorter := induction rfl
        have positive := head.utf8Size_pos
        rw [List.length_cons, utf8Len_cons]
        omega
      · cases taken
        exact Nat.le_of_eq (Nat.zero_add _)

namespace Numeral

variable {text rest : List Char}

theorem utf8Len_readWhole {whole : Nat} (read : readWhole text = some (whole, rest)) :
    utf8Len rest < utf8Len text := by
  rw [readWhole] at read
  split at read
  · cases read
  · rename_i lead more left taken
    have shorter := Digits.length_le_of_read taken
    rw [List.length_cons] at shorter
    split at read
    · cases read
    · cases read
      omega

theorem utf8Len_readFraction {fraction : List Digit}
    (read : readFraction text = some (fraction, rest)) :
    utf8Len rest ≤ utf8Len text := by
  rw [readFraction.eq_def] at read
  split at read
  · split at read
    · cases read
    · rename_i digits left _ taken
      have shorter := Digits.length_le_of_read taken
      cases read
      rw [utf8Len_cons]
      omega
  · cases read
    exact Nat.le_refl _

theorem utf8Len_readExponentDigits {negative : Bool} {exponent : Option Int}
    (read : readExponentDigits negative text = some (exponent, rest)) :
    utf8Len rest ≤ utf8Len text := by
  rw [readExponentDigits] at read
  split at read
  · cases read
  · rename_i digits left _ taken
    have shorter := Digits.length_le_of_read taken
    cases read
    omega

theorem utf8Len_readExponent {exponent : Option Int}
    (read : readExponent text = some (exponent, rest)) :
    utf8Len rest ≤ utf8Len text := by
  rw [readExponent.eq_def] at read
  split at read
  · split at read
    · split at read
      · have shorter := utf8Len_readExponentDigits read
        rw [utf8Len_cons, utf8Len_cons]
        omega
      · have shorter := utf8Len_readExponentDigits read
        rw [utf8Len_cons, utf8Len_cons]
        omega
      · have shorter := utf8Len_readExponentDigits read
        rw [utf8Len_cons]
        omega
    · cases read
      exact Nat.le_refl _
  · cases read
    exact Nat.le_refl _

theorem utf8Len_readUnsigned {negative : Bool} {numeral : Numeral}
    (read : readUnsigned negative text = some (numeral, rest)) :
    utf8Len rest < utf8Len text := by
  simp only [readUnsigned, Option.bind_eq_bind, Option.bind_eq_some_iff] at read
  obtain ⟨whole, wholeRead, fraction, fractionRead, exponent, exponentRead, complete⟩ :=
    read
  cases complete
  have wholeLess := utf8Len_readWhole wholeRead
  have fractionLess := utf8Len_readFraction fractionRead
  have exponentLess := utf8Len_readExponent exponentRead
  omega

theorem utf8Len_read {numeral : Numeral}
    (read : Numeral.read text = some (numeral, rest)) : utf8Len rest < utf8Len text := by
  rw [Numeral.read.eq_def] at read
  split at read
  · have shorter := utf8Len_readUnsigned read
    rw [utf8Len_cons]
    omega
  · exact utf8Len_readUnsigned read

end Numeral

namespace Json

/-- The bytes that a piece takes in a text at least. -/
def Piece.bytes : Piece → Nat
  | .character value => value.utf8Size
  | .unit _ => 6

theorem utf8Len_skipBlank_le (text : List Char) : utf8Len (skipBlank text) ≤ utf8Len text :=
  utf8Len_le_of_suffix (List.dropWhile_suffix isBlank)

theorem utf8Size_of_simpleEscape? {mark value : Char}
    (escaped : simpleEscape? mark = some value) : value.utf8Size ≤ mark.utf8Size := by
  have positive := mark.utf8Size_pos
  rw [simpleEscape?] at escaped
  split_ifs at escaped <;> cases escaped
  · exact Nat.le_refl _
  all_goals exact positive

/-- The pieces of a string take their bytes, and the closing quote takes one more. -/
theorem bytes_readPieces {text rest : List Char} {pieces : List Piece}
    (read : readPieces text = some (pieces, rest)) :
    (pieces.map Piece.bytes).sum + utf8Len rest < utf8Len text := by
  fun_induction readPieces text generalizing pieces rest with
  | case1 => cases read
  | case2 tail =>
      cases read
      rw [List.map_nil, List.sum_nil, Nat.zero_add, utf8Len_cons]
      exact Nat.lt_add_of_pos_right (Char.utf8Size_pos _)
  | case3 a b c d tail induction =>
      simp only [Option.bind_eq_bind, Option.bind_eq_some_iff] at read
      obtain ⟨code, _, ⟨others, left⟩, inner, complete⟩ := read
      cases complete
      have shorter := induction inner
      -- An escaped code unit is written with six characters.
      have first := Char.utf8Size_pos '\\'
      have second := Char.utf8Size_pos 'u'
      have digits := And.intro a.utf8Size_pos (And.intro b.utf8Size_pos
        (And.intro c.utf8Size_pos d.utf8Size_pos))
      simp only [List.map_cons, List.sum_cons, Piece.bytes, utf8Len_cons]
      omega
  | case4 mark tail _ induction =>
      simp only [Option.bind_eq_bind, Option.bind_eq_some_iff] at read
      obtain ⟨value, escaped, ⟨others, left⟩, inner, complete⟩ := read
      cases complete
      have shorter := induction inner
      have narrow := utf8Size_of_simpleEscape? escaped
      simp only [List.map_cons, List.sum_cons, Piece.bytes, utf8Len_cons]
      omega
  | case5 value tail _ _ _ induction =>
      simp only [Option.bind_eq_bind, Option.bind_eq_some_iff] at read
      obtain ⟨_, _, ⟨others, left⟩, inner, complete⟩ := read
      cases complete
      have shorter := induction inner
      simp only [List.map_cons, List.sum_cons, Piece.bytes, utf8Len_cons]
      omega

theorem utf8Len_joinPieces {pieces : List Piece} {content : List Char}
    (joined : joinPieces pieces = some content) :
    utf8Len content ≤ (pieces.map Piece.bytes).sum := by
  fun_induction joinPieces pieces generalizing content with
  | case1 =>
      cases joined
      exact Nat.le_refl 0
  | case2 value rest induction =>
      obtain ⟨others, inner, rfl⟩ := Option.map_eq_some_iff.mp joined
      have narrow := induction inner
      simp only [List.map_cons, List.sum_cons, Piece.bytes, utf8Len_cons]
      omega
  | case3 code rest _ induction =>
      obtain ⟨others, inner, rfl⟩ := Option.map_eq_some_iff.mp joined
      have narrow := induction inner
      have single := (Char.ofNat code).utf8Size_le_four
      simp only [List.map_cons, List.sum_cons, Piece.bytes, utf8Len_cons]
      omega
  | case4 code _ low rest _ induction =>
      obtain ⟨others, inner, rfl⟩ := Option.map_eq_some_iff.mp joined
      have narrow := induction inner
      have pair := Char.utf8Size_le_four
        (Char.ofNat (0x10000 + (code - 0xd800) * 0x400 + (low - 0xdc00)))
      simp only [List.map_cons, List.sum_cons, Piece.bytes, utf8Len_cons]
      omega
  | case5 => cases joined
  | case6 => cases joined

/-- Whether a text is no longer than a bound, if there is one. -/
def TextWithin (bound : Nat) (content : Option String) : Prop :=
  ∀ found, content = some found → found.utf8ByteSize ≤ bound

theorem TextWithin.mono {bound larger : Nat} {content : Option String}
    (within : TextWithin bound content) (less : bound ≤ larger) :
    TextWithin larger content := by
  intro found present
  exact (within found present).trans less

/-- A string takes more bytes than its content has. -/
theorem utf8Len_readString {text rest : List Char} {content : Option String}
    (read : readString text = some (content, rest)) :
    utf8Len rest < utf8Len text ∧ TextWithin (utf8Len text) content := by
  obtain ⟨pieces, taken, rfl⟩ :=
    exists_of_taken (fun pieces => (joinPieces pieces).map String.ofList) read
  have bytes := bytes_readPieces taken
  constructor
  · omega
  · intro found present
    obtain ⟨characters, joined, rfl⟩ := Option.map_eq_some_iff.mp present
    have narrow := utf8Len_joinPieces joined
    rw [utf8ByteSize_ofList]
    omega

/-- A node whose own lengths are within a bound, those of its keys included. -/
def Node.Within (bound : Nat) : Node → Prop
  | .string content => TextWithin bound content
  | .array items => items.length ≤ bound
  | .object members =>
    members.length ≤ bound ∧ ∀ member ∈ members, TextWithin bound member.1
  | _ => True

/-- What is known of a node that was taken from the front of a text: it takes a byte at
least, and nothing in it exceeds a bound. -/
structure Node.Taken (bound : Nat) (text : List Char) (node : Node) (rest : List Char) :
    Prop where
  shorter : utf8Len rest < utf8Len text
  within : Throughout parts (Within bound) node

theorem utf8Len_lt_append (head : Char) (front rest : List Char) :
    utf8Len rest < utf8Len (head :: front ++ rest) := by
  have positive := head.utf8Size_pos
  rw [utf8Len_append, utf8Len_cons]
  omega

theorem utf8Len_lt_cons (head : Char) (rest : List Char) :
    utf8Len rest < utf8Len (head :: rest) :=
  utf8Len_lt_append head [] rest

theorem utf8Len_lt_of_skipBlank {text rest : List Char} {mark : Char}
    (next : skipBlank text = mark :: rest) : utf8Len rest < utf8Len text := by
  have blank := utf8Len_skipBlank_le text
  rw [next] at blank
  exact Nat.lt_of_lt_of_le (utf8Len_lt_cons mark rest) blank

section

variable {bound : Nat}

namespace Node

theorem taken_of_leaf {text rest : List Char} {node : Node}
    (shorter : utf8Len rest < utf8Len text) (own : node.Within bound)
    (leaf : node.parts = []) : Taken bound text node rest := by
  constructor
  · exact shorter
  · apply Throughout.intro own
    intro part member
    rw [leaf] at member
    cases member

section

variable {mark : Char} {tail rest : List Char} (short : utf8Len (mark :: tail) ≤ bound)

include short

theorem taken_array {items : List Node}
    (sum : items.length + utf8Len rest ≤ utf8Len tail)
    (inside : ∀ item ∈ items, Throughout parts (Within bound) item) :
    Taken bound (mark :: tail) (.array items) rest := by
  have less := utf8Len_lt_cons mark tail
  constructor
  · omega
  · apply Throughout.intro
    · show items.length ≤ bound
      omega
    · exact inside

theorem taken_object {members : List (Option String × Node)}
    (sum : members.length + utf8Len rest ≤ utf8Len tail)
    (inside : ∀ member ∈ members, TextWithin bound member.1 ∧
      Throughout parts (Within bound) member.2) :
    Taken bound (mark :: tail) (.object members) rest := by
  have less := utf8Len_lt_cons mark tail
  constructor
  · omega
  · apply Throughout.intro
    · constructor
      · omega
      · exact fun member here => (inside member here).1
    · intro part partMember
      obtain ⟨member, here, rfl⟩ := List.mem_map.mp partMember
      exact (inside member here).2

end

end Node

mutual

/-- Nothing in a node that is read is longer than the text. -/
theorem taken_readNode {fuel : Nat} {text rest : List Char} {node : Node}
    (read : readNode fuel text = some (node, rest)) (short : utf8Len text ≤ bound) :
    Node.Taken bound text node rest := by
  cases fuel with
  | zero =>
      rw [readNode] at read
      cases read
  | succ fuel =>
      rw [readNode.eq_def] at read
      dsimp only at read
      split at read
      · cases read
        exact Node.taken_of_leaf (utf8Len_lt_append 'n' ['u', 'l', 'l'] rest) trivial rfl
      · cases read
        exact Node.taken_of_leaf (utf8Len_lt_append 't' ['r', 'u', 'e'] rest) trivial rfl
      · cases read
        exact Node.taken_of_leaf (utf8Len_lt_append 'f' ['a', 'l', 's', 'e'] rest) trivial
          rfl
      · rename_i tail
        have less := utf8Len_lt_cons '\x22' tail
        obtain ⟨content, taken, rfl⟩ := exists_of_taken Node.string read
        obtain ⟨shorter, contained⟩ := utf8Len_readString taken
        apply Node.taken_of_leaf
        · exact Nat.lt_trans shorter less
        · exact contained.mono (by omega)
        · rfl
      · rename_i tail
        have less := utf8Len_lt_cons '[' tail
        have blank := utf8Len_skipBlank_le tail
        split at read
        · rename_i closed
          cases read
          have shorter := utf8Len_lt_of_skipBlank closed
          apply Node.taken_array short
          · rw [List.length_nil]
            omega
          · exact fun item absent => nomatch absent
        · obtain ⟨items, taken, rfl⟩ := exists_of_taken Node.array read
          obtain ⟨sum, inside⟩ := within_readItems taken (by omega)
          exact Node.taken_array short (Nat.le_trans sum blank) inside
      · rename_i tail
        have less := utf8Len_lt_cons '\x7b' tail
        have blank := utf8Len_skipBlank_le tail
        split at read
        · rename_i closed
          cases read
          have shorter := utf8Len_lt_of_skipBlank closed
          apply Node.taken_object short
          · rw [List.length_nil]
            omega
          · exact fun member absent => nomatch absent
        · obtain ⟨members, taken, rfl⟩ := exists_of_taken Node.object read
          obtain ⟨sum, inside⟩ := within_readMembers taken (by omega)
          exact Node.taken_object short (Nat.le_trans sum blank) inside
      · obtain ⟨numeral, taken, rfl⟩ := exists_of_taken Node.number read
        exact Node.taken_of_leaf (Numeral.utf8Len_read taken) trivial rfl

theorem within_readItems {fuel : Nat} {text rest : List Char} {items : List Node}
    (read : readItems fuel text = some (items, rest)) (short : utf8Len text ≤ bound) :
    items.length + utf8Len rest ≤ utf8Len text ∧
      ∀ item ∈ items, Throughout Node.parts (Node.Within bound) item := by
  cases fuel with
  | zero =>
      rw [readItems] at read
      cases read
  | succ fuel =>
      rw [readItems] at read
      obtain ⟨⟨head, left⟩, first, others⟩ := Option.bind_eq_some_iff.mp read
      obtain ⟨headLess, headInside⟩ := taken_readNode first short
      dsimp only at others
      split at others
      · rename_i closed
        cases others
        have less := utf8Len_lt_of_skipBlank closed
        constructor
        · rw [List.length_singleton]
          omega
        · exact List.forall_mem_singleton.mpr headInside
      · rename_i more next
        have less := utf8Len_lt_of_skipBlank next
        have blank := utf8Len_skipBlank_le more
        obtain ⟨tail, taken, rfl⟩ := exists_of_taken (List.cons head) others
        obtain ⟨shorter, inside⟩ := within_readItems taken (by omega)
        constructor
        · rw [List.length_cons]
          omega
        · exact List.forall_mem_cons.mpr ⟨headInside, inside⟩
      · cases others

theorem within_readMembers {fuel : Nat} {text rest : List Char}
    {members : List (Option String × Node)}
    (read : readMembers fuel text = some (members, rest)) (short : utf8Len text ≤ bound) :
    members.length + utf8Len rest ≤ utf8Len text ∧
      ∀ member ∈ members, TextWithin bound member.1 ∧
        Throughout Node.parts (Node.Within bound) member.2 := by
  cases fuel with
  | zero =>
      rw [readMembers] at read
      cases read
  | succ fuel =>
      rw [readMembers.eq_def] at read
      dsimp only at read
      split at read
      · rename_i quoted
        rw [utf8Len_cons] at short ⊢
        obtain ⟨⟨key, afterKey⟩, keyRead, member⟩ := Option.bind_eq_some_iff.mp read
        obtain ⟨keyLess, keyWithin⟩ := utf8Len_readString keyRead
        have named := keyWithin.mono (show utf8Len quoted ≤ bound by omega)
        dsimp only at member
        split at member
        · rename_i afterColon colon
          have colonLess := utf8Len_lt_of_skipBlank colon
          have colonBlank := utf8Len_skipBlank_le afterColon
          obtain ⟨⟨head, left⟩, first, others⟩ := Option.bind_eq_some_iff.mp member
          obtain ⟨headLess, headInside⟩ := taken_readNode first (by omega)
          dsimp only at others
          split at others
          · rename_i closed
            cases others
            have less := utf8Len_lt_of_skipBlank closed
            constructor
            · rw [List.length_singleton]
              omega
            · exact List.forall_mem_singleton.mpr ⟨named, headInside⟩
          · rename_i more next
            have less := utf8Len_lt_of_skipBlank next
            have blank := utf8Len_skipBlank_le more
            obtain ⟨tail, taken, rfl⟩ := exists_of_taken (List.cons (key, head)) others
            obtain ⟨shorter, inside⟩ := within_readMembers taken (by omega)
            constructor
            · rw [List.length_cons]
              omega
            · exact List.forall_mem_cons.mpr ⟨⟨named, headInside⟩, inside⟩
          · cases others
        · cases member
      · cases read

end

/-- Nothing in a document is longer than its text. -/
theorem Node.within_read? {text : List Char} {node : Node}
    (read : Node.read? text = some node) (short : utf8Len text ≤ bound) :
    Throughout Node.parts (Node.Within bound) node := by
  simp only [Node.read?, Option.bind_eq_bind, Option.bind_eq_some_iff] at read
  obtain ⟨⟨found, rest⟩, taken, _, _, complete⟩ := read
  cases complete
  have blank := utf8Len_skipBlank_le text
  exact (taken_readNode taken (blank.trans short)).within

end

end Json

end SlotRecord
