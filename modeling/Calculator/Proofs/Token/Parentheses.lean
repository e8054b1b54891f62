import Calculator.Proofs.Grammar.Operand
import Calculator.Proofs.Token.Concatenation
import Mathlib.Data.List.DropRight

/-! Parentheses of a text, counted by its characters. Main statement: a text has its symbols as
tokens in the same order, so that its characters and its tokens agree on how many parentheses
are open, on how many are open at most, and on whether each one that closes has been opened. -/

namespace Calculator
open Grammar

namespace Text

def opened (text : List Char) : Int := text.count '(' - text.count ')'

def deepest : List Char → Int
  | [] => 0
  | character :: rest => max 0 (opened [character] + deepest rest)

theorem opened_append (front back : List Char) :
    opened (front ++ back) = opened front + opened back := by
  simp only [opened, List.count_append]
  omega

theorem opened_cons (character : Char) (rest : List Char) :
    opened (character :: rest) = opened [character] + opened rest :=
  opened_append [character] rest

theorem deepest_nonneg (text : List Char) : 0 ≤ deepest text := by
  cases text with
  | nil => exact Int.le_refl 0
  | cons character rest => exact Int.le_max_left _ _

theorem deepest_append (front back : List Char) :
    deepest (front ++ back) = max (deepest front) (opened front + deepest back) := by
  induction front with
  | nil =>
    have bound := deepest_nonneg back
    have none : opened [] = 0 := rfl
    simp only [List.nil_append, deepest, none]
    omega
  | cons character rest ih =>
    rw [List.cons_append, deepest, ih, deepest, opened_cons character rest]
    omega

theorem deepest_le_iff {text : List Char} {limit : Nat} :
    deepest text ≤ limit ↔ ∀ begun, begun <+: text → opened begun ≤ limit := by
  constructor
  · intro bounded begun begins
    obtain ⟨rest, rfl⟩ := begins
    have later := deepest_nonneg rest
    rw [deepest_append] at bounded
    omega
  · intro bounded
    induction text using List.reverseRecOn with
    | nil => exact Int.natCast_nonneg limit
    | append_singleton front character ih =>
      have inner := ih fun begun begins => bounded begun (begins.trans (List.prefix_append _ _))
      have before := bounded front (List.prefix_append _ _)
      have whole := bounded _ (List.prefix_refl _)
      have last : deepest [character] = max 0 (opened [character] + 0) := rfl
      rw [opened_append] at whole
      rw [deepest_append, last]
      omega

end Text

def Nested (text : List Char) : Prop :=
  ∀ count, (text.take count).count ')' ≤ (text.take count).count '('

namespace Nested

variable {front back text : List Char}

theorem of_notMem (none : ')' ∉ text) : Nested text := by
  intro count
  rw [List.count_eq_zero.2 fun member => none (List.mem_of_mem_take member)]
  exact Nat.zero_le _

theorem append (first : Nested front) (second : Nested back) : Nested (front ++ back) := by
  intro count
  have inFront := first count
  have inBack := second (count - front.length)
  rw [List.take_append, List.count_append, List.count_append]
  omega

theorem parentheses (inner : Nested text) : Nested ('(' :: (text ++ [')'])) := by
  intro count
  cases count with
  | zero => exact Nat.le_refl _
  | succ count =>
    have inside := inner count
    have closing : ([')'].take (count - text.length)).count ')' ≤ 1 :=
      (List.take_sublist _ _).count_le _
    simp only [List.take_succ_cons, List.take_append, List.count_cons, List.count_append]
    simp
    omega

theorem opened_nonneg (nested : Nested text) {begun : List Char} (begins : begun <+: text) :
    0 ≤ Text.opened begun := by
  have counted := nested begun.length
  rw [← List.prefix_iff_eq_take.1 begins] at counted
  rw [Text.opened]
  omega

end Nested

namespace Token.Kind

def isSymbol (kind : Kind) : Bool := kind.symbol?.isSome

theorem ofSymbol?_eq_none_of_isBlank {character : Char} (blank : Text.isBlank character) :
    ofSymbol? character = none := by
  refine Option.eq_none_iff_forall_ne_some.2 fun kind found => ?_
  have visible := (visible_of_symbol? (ofSymbol?_eq_some_iff.1 found)).1
  exact Bool.false_ne_true (visible.symm.trans blank)

theorem ofSymbol?_eq_none_of_isDigit {character : Char} (digit : character.isDigit) :
    ofSymbol? character = none := by
  refine Option.eq_none_iff_forall_ne_some.2 fun kind found => ?_
  have visible := (visible_of_symbol? (ofSymbol?_eq_some_iff.1 found)).2
  exact Bool.false_ne_true (visible.symm.trans digit)

theorem count_filterMap_ofSymbol? {kind : Kind} {character : Char}
    (known : kind.symbol? = some character) (text : List Char) :
    (text.filterMap ofSymbol?).count kind = text.count character := by
  rw [List.count_filterMap, List.count]
  refine List.countP_congr fun other _ => ?_
  rw [beq_iff_eq, beq_iff_eq, ofSymbol?_eq_some_iff, known, Option.some_inj]
  exact eq_comm

theorem balance_filterMap_ofSymbol? (text : List Char) :
    balance (text.filterMap ofSymbol?) = Text.opened text := by
  have opening : symbol? .leftParen = some '(' := rfl
  have closing : symbol? .rightParen = some ')' := rfl
  rw [balance, Text.opened, count_filterMap_ofSymbol? opening, count_filterMap_ofSymbol? closing]

theorem balance_filter_isSymbol (kinds : List Kind) :
    balance (kinds.filter isSymbol) = balance kinds := by
  rw [balance, balance, List.count_filter (by rfl), List.count_filter (by rfl)]

end Token.Kind

open Token.Kind

theorem Lexeme.filterMap_ofSymbol? {lexeme rest : List Char} {reading : Nat → Outcome}
    {position : Nat} {token : Token} (read : Lexeme lexeme rest reading)
    (success : reading position = .ok token) :
    lexeme.filterMap ofSymbol? = [token.kind].filter isSymbol := by
  cases read with
  | digits more digits ends =>
    rw [Cursor.ofDigits] at success
    split at success
    · cases success
      exact List.filterMap_eq_nil_iff.2 fun character member =>
        ofSymbol?_eq_none_of_isDigit (digits character member)
    · cases success
  | @symbol character _ visible other =>
    rw [Cursor.ofSymbol] at success
    split at success
    · rename_i kind found
      cases success
      have isSymbol : kind.isSymbol := Option.isSome_of_eq_some (ofSymbol?_eq_some_iff.1 found)
      rw [List.filterMap_cons_some found, List.filter_cons_of_pos isSymbol]
      rfl
    · cases success

theorem Cursor.filterMap_ofSymbol? {text : List Char} {tokens : List Token} {position last : Nat}
    (whole : stream ⟨text, position⟩ = ⟨tokens, .endOfInput last⟩) :
    text.filterMap ofSymbol? = (tokens.map Token.kind).filter isSymbol := by
  induction text using Lexeme.text_induction generalizing tokens position with
  | blank text blank =>
    rw [stream_all_blank blank] at whole
    cases whole
    exact List.filterMap_eq_nil_iff.2 fun character member =>
      ofSymbol?_eq_none_of_isBlank (blank character member)
  | lexeme blanks lexeme rest reading blank read ih =>
    have skipped : blanks.filterMap ofSymbol? = [] :=
      List.filterMap_eq_nil_iff.2 fun character member =>
        ofSymbol?_eq_none_of_isBlank (blank character member)
    rw [read.stream_eq blank] at whole
    cases outcome : reading (position + blanks.length) with
    | error error =>
      rw [outcome] at whole
      cases whole
    | ok token =>
      rw [outcome] at whole
      obtain ⟨rfl, ends⟩ := TokenStream.mk.inj whole
      have later := ih (congrArg (TokenStream.mk _) ends)
      rw [List.filterMap_append, List.filterMap_append, skipped, List.nil_append,
        read.filterMap_ofSymbol? outcome, later]
      exact (List.filter_append [token.kind] _).symm

namespace Scans

variable {text : List Char} {kinds : List Token.Kind}

theorem filterMap_ofSymbol? (scans : Scans text kinds) :
    text.filterMap ofSymbol? = kinds.filter isSymbol := by
  obtain ⟨tokens, last, whole, rfl⟩ := scans 0
  exact Cursor.filterMap_ofSymbol? whole

theorem opened_eq (scans : Scans text kinds) : Text.opened text = balance kinds := by
  rw [← balance_filterMap_ofSymbol?, scans.filterMap_ofSymbol?, balance_filter_isSymbol]

theorem exists_front (scans : Scans text kinds) {begun : List Char} (begins : begun <+: text) :
    ∃ front, front <+: kinds ∧ balance front = Text.opened begun := by
  have symbols := begins.filterMap ofSymbol?
  rw [scans.filterMap_ofSymbol?, List.prefix_filter_iff] at symbols
  obtain ⟨front, within, same⟩ := symbols
  exact ⟨front, within, by rw [← balance_filterMap_ofSymbol?, same, balance_filter_isSymbol]⟩

theorem exists_begun (scans : Scans text kinds) {front : List Token.Kind}
    (begins : front <+: kinds) : ∃ begun, begun <+: text ∧ Text.opened begun = balance front := by
  have symbols := begins.filter isSymbol
  rw [← scans.filterMap_ofSymbol?, List.prefix_filterMap_iff] at symbols
  obtain ⟨begun, within, same⟩ := symbols
  exact ⟨begun, within, by rw [← balance_filterMap_ofSymbol?, ← same, balance_filter_isSymbol]⟩

/-- The limit on open parentheses may be checked on the characters. -/
theorem within_iff (scans : Scans text kinds) {limit : Nat} :
    Within limit kinds ↔ Text.deepest text ≤ limit := by
  rw [Text.deepest_le_iff]
  constructor
  · intro within begun begins
    obtain ⟨front, inside, same⟩ := scans.exists_front begins
    exact same ▸ within front inside
  · intro bounded front begins
    obtain ⟨begun, inside, same⟩ := scans.exists_begun begins
    exact same ▸ bounded begun inside

theorem balance_nonneg (scans : Scans text kinds) (nested : Nested text)
    {front : List Token.Kind} (begins : front <+: kinds) : 0 ≤ balance front := by
  obtain ⟨begun, inside, same⟩ := scans.exists_begun begins
  exact same ▸ nested.opened_nonneg inside

theorem unique {other : List Token.Kind} (scans : Scans text kinds) (scans' : Scans text other) :
    kinds = other := by
  obtain ⟨tokens, last, whole, rfl⟩ := scans 0
  obtain ⟨tokens', last', whole', rfl⟩ := scans' 0
  cases whole.symm.trans whole'
  rfl

theorem parentheses (scans : Scans text kinds) :
    Scans ('(' :: text ++ [')']) (.leftParen :: kinds ++ [.rightParen]) := by
  have opening : Scans ['('] [.leftParen] := .symbol rfl
  have closing : Scans [')'] [.rightParen] := .symbol rfl
  exact (opening.append scans fun both => Bool.false_ne_true both.1).append closing
    fun both => Bool.false_ne_true both.2

theorem of_parentheses (scans : Scans ('(' :: text ++ [')']) kinds) :
    ∃ inside, Scans text inside ∧ kinds = .leftParen :: inside ++ [.rightParen] := by
  have opening : Scans ['('] [.leftParen] := .symbol rfl
  have closing : Scans [')'] [.rightParen] := .symbol rfl
  obtain ⟨front, last, inFront, closing', rfl⟩ := scans.of_append fun both =>
    Bool.false_ne_true both.2
  have inFront' : Scans (['('] ++ text) front := inFront
  obtain ⟨first, inside, opening', within, rfl⟩ := inFront'.of_append fun both =>
    Bool.false_ne_true both.1
  rw [opening'.unique opening, closing'.unique closing]
  exact ⟨inside, within, rfl⟩

end Scans
end Calculator
