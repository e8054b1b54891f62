import Calculator.Proofs.Parser.Relocation
import Calculator.Proofs.Token.Requests

/-! Formulas that are read from the middle of a text. Main statement: wherever requests have moved
a scanner, what it has in front of it is read as a text of its own, with errors as much further on
as characters lie behind. -/

namespace Calculator

namespace Cursor

theorem parse_rest (cursor : Cursor) :
    cursor.parse =
      (Calculator.parse (String.ofList cursor.rest)).mapError
        (ParseError.relocate fun place => place + cursor.position) := by
  show cursor.parse = (start (String.ofList cursor.rest)).parse.mapError _
  apply parse_relocate
  have moved := stream_moved cursor.position cursor.rest 0 fun _ _ => rfl
  rw [Nat.zero_add] at moved
  rw [start, String.toList_ofList]
  exact moved

end Cursor

namespace Scanner

structure StandsIn (text : String) (scanner : Scanner) : Prop where
  characters : scanner.characters = text.toList
  index_le : scanner.index ≤ text.length

namespace StandsIn

variable {text : String} {scanner : Scanner}

theorem start (text : String) : StandsIn text (start text) := ⟨rfl, Nat.zero_le _⟩

theorem nextToken (stands : StandsIn text scanner) : StandsIn text scanner.nextToken.2 := by
  obtain ⟨passed, split, place⟩ := scanner.cursor.nextToken_passes
  have left : text.length - scanner.index = scanner.cursor.rest.length := by
    rw [cursor, List.length_drop, stands.characters, String.length_toList]
  refine ⟨stands.characters, ?_⟩
  change scanner.cursor.nextToken.2.position ≤ text.length
  rw [place]
  rw [split, List.length_append] at left
  have inside := stands.index_le
  change scanner.index + passed.length ≤ text.length
  omega

theorem respond (stands : StandsIn text scanner) (request : Request) :
    StandsIn text (scanner.respond request).2 := by
  cases request with
  | nextToken => exact stands.nextToken
  | next =>
    cases ended : scanner.finished with
    | true =>
      rw [Scanner.respond, next, if_pos ended]
      exact stands
    | false =>
      rw [Scanner.respond, next_eq ended]
      exact ⟨stands.nextToken.characters, stands.nextToken.index_le⟩

theorem behind (stands : StandsIn text scanner) (history : List Request) :
    StandsIn text (scanner.behind history) := by
  induction history generalizing scanner with
  | nil => exact stands
  | cons request later ih => exact ih (stands.respond request)

end StandsIn

/-- The outcomes that a formula is read from are the answers to requests for tokens, whether or not
the scanner has come to its end. -/
theorem outcomes_stream (scanner : Scanner) :
    let outcomes := scanner.cursor.stream.outcomes
    outcomes = (List.range outcomes.length).map scanner.outcome := by
  intro outcomes
  let fresh : Scanner := { scanner with finished := false }
  have same : fresh.cursor = scanner.cursor := rfl
  obtain ⟨last, -, -, drained⟩ := exists_last (show fresh.finished = false from rfl)
  change outcomes = _ at drained
  have length : outcomes.length = last + 1 := by
    rw [drained, List.length_map, List.length_range]
  rw [length, drained]
  exact List.map_congr_left fun number _ => (after_congr same number).1

/-- From wherever requests have moved a scanner, also behind errors and whether or not it has come
to its end, a formula is read as it is from the rest of the text alone, except that the position of
an error is as much further on as the scanner stands in the text. -/
theorem parse_behind (text : String) (history : List Request) (finished : Bool) :
    let scanner : Scanner := { (start text).behind history with finished := finished }
    scanner.characters = text.toList ∧ scanner.index ≤ text.length ∧
    scanner.parse =
      (Calculator.parse (String.ofList (text.toList.drop scanner.index))).mapError
        (ParseError.relocate fun position => position + scanner.index) ∧
    let outcomes := scanner.cursor.stream.outcomes
    outcomes = (List.range outcomes.length).map scanner.outcome := by
  intro scanner
  obtain ⟨characters, inside⟩ := (StandsIn.start text).behind history
  refine ⟨characters, inside, ?_, scanner.outcomes_stream⟩
  rw [← show scanner.characters = text.toList from characters]
  exact scanner.cursor.parse_rest

end Scanner
end Calculator
