import Calculator.Proofs.Token.Span
import Mathlib.Data.List.ReduceOption

/-! Requests to a scanner in any order, for what is still to be handed out or for a token in any
case. Main statement: both are answered from one and the same sequence of outcomes, and the first
kind of request is left without an answer exactly if an answer to an earlier one of its kind was
the last. -/

namespace Calculator.Scanner

/-- What is asked of a scanner: the next outcome if there is one, or a token in any case. -/
inductive Request where
  | next
  | nextToken
deriving DecidableEq, Repr

def respond (scanner : Scanner) : Request → Option Outcome × Scanner
  | .next => scanner.next
  | .nextToken => scanner.nextToken.map some id

/-- The scanner behind some requests, of which the latest comes last. -/
def behind (scanner : Scanner) (history : List Request) : Scanner :=
  history.foldl (fun scanner request => (scanner.respond request).2) scanner

theorem behind_cons (scanner : Scanner) (request : Request) (later : List Request) :
    scanner.behind (request :: later) = (scanner.respond request).2.behind later := rfl

def replies (scanner : Scanner) : List Request → List (Option Outcome)
  | [] => []
  | request :: later => (scanner.respond request).1 :: (scanner.respond request).2.replies later

def outcome (scanner : Scanner) (number : Nat) : Outcome := (scanner.after number).nextToken.1

theorem respond_cases (scanner : Scanner) (request : Request) :
    ((request = .next ∧ scanner.finished) ∧ scanner.respond request = (none, scanner)) ∨
    (¬(request = .next ∧ scanner.finished) ∧
      ∃ after, scanner.respond request = (some (scanner.outcome 0), after) ∧
        after.cursor = scanner.nextToken.2.cursor ∧
        (after.finished ↔ scanner.finished ∨ request = .next ∧ (scanner.outcome 0).isLast)) := by
  obtain ⟨characters, index, finished⟩ := scanner
  cases request with
  | next =>
    cases finished with
    | true => exact .inl ⟨⟨rfl, rfl⟩, rfl⟩
    | false =>
      refine .inr ⟨by simp, _, rfl, rfl, ?_⟩
      simp only [Bool.false_eq_true, false_or, true_and]
      rfl
  | nextToken =>
    -- a request for a token leaves the flag as it is, whatever it is answered
    exact .inr ⟨by simp, _, rfl, rfl, by simp⟩

theorem after_congr {first second : Scanner} (same : first.cursor = second.cursor)
    (number : Nat) :
    first.outcome number = second.outcome number ∧
      (first.after number).cursor = (second.after number).cursor := by
  induction number generalizing first second with
  | zero => exact ⟨congrArg (fun cursor => cursor.nextToken.1) same, same⟩
  | succ number ih =>
    refine ih ?_
    rw [cursor_nextToken, cursor_nextToken, same]

theorem after_add (scanner : Scanner) (first second : Nat) :
    scanner.after (first + second) = (scanner.after first).after second := by
  induction first generalizing scanner with
  | zero => rw [Nat.zero_add]; rfl
  | succ first ih =>
    rw [Nat.add_right_comm]
    exact ih scanner.nextToken.2

section History

variable (scanner : Scanner) (history : List Request)

/-- All answers that are given come from one sequence, and so does the place that is reached. By
induction on the requests, of which the first one takes at most one outcome from the sequence. -/
theorem reduceOption_replies :
    let given := (scanner.replies history).reduceOption
    given = (List.range given.length).map scanner.outcome ∧
      (scanner.behind history).cursor = (scanner.after given.length).cursor := by
  induction history generalizing scanner with
  | nil => exact ⟨rfl, rfl⟩
  | cons request later ih =>
    rw [replies, behind_cons]
    rcases scanner.respond_cases request with ⟨-, silent⟩ | ⟨-, next, taken, moved, -⟩
    · rw [silent]
      exact ih scanner
    · obtain ⟨given, reached⟩ := ih next
      rw [taken]
      refine ⟨?_, ?_⟩
      · rw [List.reduceOption_cons_of_some, List.length_cons, List.range_succ_eq_map,
          List.map_cons, List.map_map]
        exact congrArg _ (given.trans (List.map_congr_left fun number _ =>
          (after_congr moved number).1))
      · rw [reached, List.reduceOption_cons_of_some]
        exact (after_congr moved _).2

theorem finished_behind :
    (scanner.behind history).finished ↔
      scanner.finished ∨ ∃ outcome : Outcome,
        (.next, some outcome) ∈ history.zip (scanner.replies history) ∧ outcome.isLast := by
  induction history generalizing scanner with
  | nil => simp [behind]
  | cons request later ih =>
    rw [replies, behind_cons, ih, List.zip_cons_cons]
    rcases scanner.respond_cases request with ⟨⟨-, finished⟩, silent⟩ | ⟨-, next, taken, -, ended⟩
    · rw [silent]
      simp [finished]
    · rw [taken, ended, or_assoc]
      refine or_congr_right ?_
      constructor
      · rintro (⟨rfl, last⟩ | ⟨outcome, earlier, last⟩)
        · exact ⟨_, List.mem_cons_self, last⟩
        · exact ⟨outcome, List.mem_cons_of_mem _ earlier, last⟩
      · rintro ⟨outcome, member, last⟩
        rcases List.mem_cons.1 member with first | earlier
        · obtain ⟨rfl, same⟩ := Prod.mk.inj first
          exact .inl ⟨rfl, Option.some.inj same ▸ last⟩
        · exact .inr ⟨outcome, earlier, last⟩

end History

theorem next_eq {scanner : Scanner} (goesOn : scanner.finished = false) :
    scanner.next = (some scanner.nextToken.1,
      { scanner.nextToken.2 with finished := scanner.nextToken.1.isLast }) := by
  rw [next, if_neg (Bool.eq_false_iff.1 goesOn)]

theorem drain_cons {scanner : Scanner} (goesOn : scanner.finished = false) :
    scanner.drain.1 = scanner.nextToken.1 ::
      { scanner.nextToken.2 with finished := scanner.nextToken.1.isLast }.drain.1 := by
  rw [drain_eq, next_eq goesOn]

theorem exists_last {scanner : Scanner} (goesOn : scanner.finished = false) :
    ∃ last, (∀ number < last, (scanner.outcome number).isLast = false) ∧
      (scanner.outcome last).isLast ∧
      scanner.drain.1 = (List.range (last + 1)).map scanner.outcome := by
  induction size : scanner.cursor.rest.length using Nat.strongRecOn generalizing scanner with
  | ind count ih =>
    cases ends : scanner.nextToken.1.isLast with
    | true =>
      refine ⟨0, fun number none => absurd none (Nat.not_lt_zero _), ends, ?_⟩
      rw [drain_cons goesOn, ends]
      rfl
    | false =>
      have shorter : scanner.nextToken.2.cursor.rest.length < count := by
        rw [cursor_nextToken, ← size]
        exact Cursor.nextToken_shorter _ ends
      have behind : { scanner.nextToken.2 with finished := false } = scanner.nextToken.2 :=
        congrArg (Scanner.mk _ _) goesOn.symm
      obtain ⟨last, before, atLast, drained⟩ := @ih _ shorter scanner.nextToken.2 goesOn rfl
      refine ⟨last + 1, fun number earlier => ?_, atLast, ?_⟩
      · cases number with
        | zero => exact ends
        | succ number => exact before number (Nat.lt_of_succ_lt_succ earlier)
      · rw [drain_cons goesOn, ends, behind, drained, List.range_succ_eq_map (n := last + 1),
          List.map_cons, List.map_map]
        rfl

theorem replies_replicate (scanner : Scanner) (count : Nat) :
    scanner.replies (List.replicate count .next) =
      (scanner.drain.1.map some).take count ++
        List.replicate (count - scanner.drain.1.length) none := by
  induction count generalizing scanner with
  | zero => rw [List.take_zero, Nat.zero_sub]; rfl
  | succ count ih =>
    rw [List.replicate_succ, replies, ih]
    cases ended : scanner.finished with
    | true => simp [respond, next, drain, ended, List.replicate_succ]
    | false =>
      rw [respond, next_eq ended, drain_cons ended, List.map_cons, List.take_succ_cons,
        List.length_cons, Nat.add_sub_add_right]
      rfl

theorem behind_replicate (scanner : Scanner) {count : Nat}
    (enough : scanner.drain.1.length ≤ count) :
    (scanner.behind (List.replicate count .next)).cursor =
      (scanner.after scanner.drain.1.length).cursor := by
  have given : (scanner.replies (List.replicate count .next)).reduceOption = scanner.drain.1 := by
    rw [replies_replicate, List.take_of_length_le (by rwa [List.length_map]),
      List.reduceOption_append, List.reduceOption_replicate_none, List.append_nil,
      List.reduceOption, List.filterMap_map]
    exact List.filterMap_some
  have reached := (reduceOption_replies scanner (List.replicate count .next)).2
  rwa [given] at reached

/-- Behind any requests for outcomes and for tokens, all answers of both kinds are the first ones
of one sequence, that of requests for tokens alone. A request has no answer exactly if it is for
an outcome and the answer to an earlier one of its kind was the last, and then it moves nothing.
Hence requests for outcomes alone are answered up to the first outcome that is the last, and then
no more, while requests for tokens go on behind it. -/
theorem replies_interleaved (text : String) :
    let scanner := start text
    (∀ history request,
      let given := (scanner.replies history).reduceOption
      given = (List.range given.length).map scanner.outcome ∧
      (((scanner.behind history).respond request).1 = none ↔
        request = .next ∧ ∃ outcome : Outcome,
          (.next, some outcome) ∈ history.zip (scanner.replies history) ∧ outcome.isLast) ∧
      (((scanner.behind history).respond request).1 = none →
        ((scanner.behind history).respond request).2 = scanner.behind history)) ∧
    ∃ last, (∀ number < last, (scanner.outcome number).isLast = false) ∧
      (scanner.outcome last).isLast ∧
      scanner.drain.1 = (List.range (last + 1)).map scanner.outcome ∧
      (∀ count, scanner.replies (List.replicate count .next) =
        (scanner.drain.1.map some).take count ++ List.replicate (count - (last + 1)) none) ∧
      ∀ count number, last < count →
        (scanner.behind (List.replicate count .next)).outcome number =
          scanner.outcome (last + 1 + number) := by
  intro scanner
  refine ⟨fun history request => ?_, ?_⟩
  · have ended := finished_behind scanner history
    rw [or_iff_right (by exact Bool.false_ne_true)] at ended
    refine ⟨(reduceOption_replies scanner history).1, ?_, ?_⟩
    · rw [← ended]
      rcases respond_cases (scanner.behind history) request with
        ⟨passed, silent⟩ | ⟨asked, next, taken, -⟩
      · rw [silent]
        exact iff_of_true rfl passed
      · rw [taken]
        exact iff_of_false (Option.some_ne_none _) asked
    · rcases respond_cases (scanner.behind history) request with
        ⟨passed, silent⟩ | ⟨asked, next, taken, -⟩
      · rw [silent]
        exact fun _ => rfl
      · rw [taken]
        exact fun none => absurd none (Option.some_ne_none _)
  · obtain ⟨last, before, atLast, drained⟩ := exists_last (show scanner.finished = false from rfl)
    have length : scanner.drain.1.length = last + 1 := by
      rw [drained, List.length_map, List.length_range]
    refine ⟨last, before, atLast, drained, fun count => ?_, fun count number beyond => ?_⟩
    · rw [replies_replicate, length]
    · have enough : scanner.drain.1.length ≤ count := by omega
      have reached := behind_replicate scanner enough
      rw [(after_congr reached number).1, length]
      exact congrArg (fun behind => behind.nextToken.1) (after_add scanner (last + 1) number).symm

end Calculator.Scanner
