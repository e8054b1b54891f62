import Calculator.Proofs.Token.Relocation
import Calculator.Token.Scanner
import Mathlib.Control.Monad.Basic

/-! Texts that are written one behind the other. Main statement: they are read one after the
other, unless the first one is not read to its end or a run of digits goes on from the one into
the other. -/

namespace Calculator

namespace TokenStream

/-- Reading goes on where it came to the end of the input, and not behind an error. -/
def append (front back : TokenStream) : TokenStream :=
  match front.ending with
  | .endOfInput _ => ⟨front.tokens ++ back.tokens, back.ending⟩
  | .failed _ => front

theorem outcomes_append {front back : TokenStream} {position : Nat}
    (whole : front.ending = .endOfInput position) :
    (front.append back).outcomes = front.outcomes.dropLast ++ back.outcomes := by
  have joined : front.append back = ⟨front.tokens ++ back.tokens, back.ending⟩ := by
    rw [append, whole]
  rw [joined, outcomes, outcomes, outcomes, List.dropLast_concat, List.map_append,
    List.append_assoc]

theorem outcomes_relocate (move : Nat → Nat) (stream : TokenStream) :
    (stream.relocate move).outcomes = stream.outcomes.map (Outcome.relocate move) := by
  simp only [outcomes, relocate, List.map_append, List.map_map, List.map_cons, List.map_nil]
  rw [Ending.outcome_relocate]
  rfl

theorem ending_of_forall_isOk {stream : TokenStream}
    (clean : ∀ outcome ∈ stream.outcomes, outcome.isOk) :
    ∃ position, stream.ending = .endOfInput position := by
  obtain ⟨tokens, ending⟩ := stream
  cases ending with
  | endOfInput position => exact ⟨position, rfl⟩
  | failed error =>
    have impossible := clean (.error error) (List.mem_append_right _ List.mem_cons_self)
    cases impossible

end TokenStream

theorem Outcome.followedBy_append (outcome : Outcome) (later back : TokenStream) :
    (outcome.followedBy later).append back = outcome.followedBy (later.append back) := by
  cases outcome with
  | error error => rfl
  | ok token =>
    obtain ⟨tokens, ending⟩ := later
    cases ending <;> rfl

namespace Cursor

theorem stream_append {front back : List Char} (apart : Text.Apart front back)
    (position : Nat) :
    stream ⟨front ++ back, position⟩ =
      (stream ⟨front, position⟩).append (stream ⟨back, position + front.length⟩) := by
  induction front using Lexeme.text_induction generalizing position with
  | blank front blank =>
    rw [stream_all_blank blank, stream_blanks blank]
    rfl
  | lexeme blanks lexeme rest reading blank read ih =>
    have cut : Text.Apart (lexeme ++ rest) back := apart.of_shorter
    have place : position + blanks.length + lexeme.length + rest.length =
        position + (blanks ++ (lexeme ++ rest)).length := by
      rw [List.length_append, List.length_append]
      omega
    rw [List.append_assoc, List.append_assoc, (read.append cut).stream_eq blank,
      read.stream_eq blank, ih cut.of_shorter, place, Outcome.followedBy_append]

end Cursor

def Scans (text : List Char) (kinds : List Token.Kind) : Prop :=
  ∀ position, ∃ tokens last, Cursor.stream ⟨text, position⟩ = ⟨tokens, .endOfInput last⟩ ∧
    tokens.map Token.kind = kinds

namespace Scans

theorem of_stream {text : List Char} {tokens : List Token} {start last : Nat}
    (whole : Cursor.stream ⟨text, start⟩ = ⟨tokens, .endOfInput last⟩) :
    Scans text (tokens.map Token.kind) := by
  have moved (position : Nat) : Cursor.stream ⟨text, position⟩ =
      (Cursor.stream ⟨text, 0⟩).relocate fun place => place + position := by
    have further := Cursor.stream_moved position text 0 fun _ _ => rfl
    rwa [Nat.zero_add] at further
  generalize Cursor.stream ⟨text, 0⟩ = origin at moved
  obtain ⟨tokens', ending⟩ := origin
  have same := (moved start).symm.trans whole
  cases ending with
  | failed error => cases same
  | endOfInput place =>
    obtain ⟨rfl, -⟩ := TokenStream.mk.inj same
    intro position
    refine ⟨_, _, moved position, ?_⟩
    rw [List.map_map, List.map_map]
    rfl

theorem append {front back : List Char} {first second : List Token.Kind}
    (inFront : Scans front first) (behind : Scans back second) (apart : Text.Apart front back) :
    Scans (front ++ back) (first ++ second) := by
  intro position
  obtain ⟨tokens, last, whole, rfl⟩ := inFront position
  obtain ⟨tokens', last', whole', rfl⟩ := behind (position + front.length)
  refine ⟨tokens ++ tokens', last', ?_, List.map_append⟩
  rw [Cursor.stream_append apart, whole, whole']
  rfl

theorem of_append {front back : List Char} {kinds : List Token.Kind}
    (scans : Scans (front ++ back) kinds) (apart : Text.Apart front back) :
    ∃ first second, Scans front first ∧ Scans back second ∧ kinds = first ++ second := by
  obtain ⟨tokens, last, whole, rfl⟩ := scans 0
  rw [Cursor.stream_append apart] at whole
  cases inFront : Cursor.stream ⟨front, 0⟩ with
  | mk first ending =>
    rw [inFront] at whole
    cases ending with
    | failed error => cases whole
    | endOfInput position =>
      obtain ⟨rfl, ends⟩ := TokenStream.mk.inj whole
      have behind : Cursor.stream ⟨back, 0 + front.length⟩ = ⟨_, .endOfInput last⟩ :=
        congrArg (TokenStream.mk _) ends
      exact ⟨_, _, of_stream inFront, of_stream behind, List.map_append⟩

theorem symbol {kind : Token.Kind} {character : Char} (known : kind.symbol? = some character) :
    Scans [character] [kind] := by
  intro position
  have step : Cursor.nextToken ⟨[character], position⟩ =
      (.ok ⟨kind, position⟩, ⟨[], position + 1⟩) :=
    Cursor.nextToken_symbol known (List.forall_mem_nil _) [] position
  have inner : kind ≠ .endOfInput := by
    rintro rfl
    cases known
  refine ⟨[⟨kind, position⟩], position + 1, ?_, rfl⟩
  rw [Cursor.stream_eq_of_nextToken step fun _ same => Except.ok.inj same ▸ inner,
    Cursor.stream_all_blank (List.forall_mem_nil _)]
  rfl

end Scans

namespace Scanner

/-- A text without lexical errors is handed out token by token in front of what another text is
handed out as, whose positions move by its length. -/
theorem drain_append {front back : String}
    (clean : ∀ outcome ∈ (start front).drain.1, outcome.isOk)
    (apart : Text.Apart front.toList back.toList) :
    (start (front ++ back)).drain.1 =
      (start front).drain.1.dropLast ++
        (start back).drain.1.map (Outcome.relocate fun place => place + front.length) := by
  have drained (text : String) : (start text).drain.1 = (Cursor.start text).stream.outcomes := rfl
  rw [drained] at clean
  obtain ⟨last, whole⟩ := TokenStream.ending_of_forall_isOk clean
  have moved : Cursor.stream ⟨back.toList, 0 + front.toList.length⟩ =
      (Cursor.start back).stream.relocate fun place => place + front.length :=
    Cursor.stream_moved front.toList.length back.toList 0 fun _ _ => by
      rw [String.length_toList]
  have joined : (Cursor.start (front ++ back)).stream =
      (Cursor.start front).stream.append
        ((Cursor.start back).stream.relocate fun place => place + front.length) := by
    rw [← moved, Cursor.start, String.toList_append]
    exact Cursor.stream_append apart 0
  rw [drained, drained, drained, joined, TokenStream.outcomes_append whole,
    TokenStream.outcomes_relocate]

/-- A blank at the seam belongs to neither text, and an error in the second one is met behind
the tokens of both. -/
theorem drain_append_unexpected :
    (∀ outcome ∈ (start "1+ ").drain.1, outcome.isOk) ∧ Text.Apart "1+ ".toList " 2$3".toList ∧
      (start ("1+ " ++ " 2$3")).drain.1 =
        [.ok ⟨.integer ⟨1⟩, 0⟩, .ok ⟨.operator .add, 1⟩, .ok ⟨.integer ⟨2⟩, 4⟩,
          .error (.unexpectedCharacter '$' 5)] := by
  have clean : ∀ outcome ∈ (start "1+ ").drain.1, outcome.isOk := by decide +kernel
  have apart : Text.Apart "1+ ".toList " 2$3".toList := by decide
  refine ⟨clean, apart, ?_⟩
  rw [drain_append clean apart]
  decide +kernel

end Scanner
end Calculator
