import Calculator.Proofs.Command.Content
import Mathlib.Data.List.Basic
import Mathlib.Logic.Relation

/-! How lines are ended, and lines with nothing but blanks. Main statement: the command answers
alike whether its lines end in line feeds alone or also in carriage returns, whether the last line
is ended, and wherever blank lines are put between the others. -/

namespace Calculator.Command

namespace Lines

def withReturns (bytes : Bytes) : Bytes :=
  bytes.flatMap fun byte => if byte = lineFeed then [carriageReturn, lineFeed] else [byte]

/-- Nothing but lines that are ended, so that another line can begin. -/
def Ended (bytes : Bytes) : Prop := bytes = [] ∨ ∃ front, bytes = front ++ [lineFeed]

def Blank (line : Bytes) : Prop :=
  ∃ text : String, line = bytesOf text ∧ Text.isBlankText text ∧ '\n' ∉ text.toList

@[elab_as_elim]
theorem bytes_induction {motive : Bytes → Prop}
    (unended : ∀ line, lineFeed ∉ line → motive line)
    (ended : ∀ line rest, lineFeed ∉ line → motive rest → motive (line ++ lineFeed :: rest))
    (bytes : Bytes) : motive bytes := by
  induction size : bytes.length using Nat.strongRecOn generalizing bytes with
  | ind count ih =>
    by_cases broken : lineFeed ∈ bytes
    · obtain ⟨line, rest, rfl, inside⟩ := List.eq_append_cons_of_mem broken
      rw [List.length_append, List.length_cons] at size
      exact ended line rest inside (ih rest.length (by omega) rest rfl)
    · exact unended bytes broken

theorem withoutReturn_of_getLast? {line : Bytes} (plain : line.getLast? ≠ some carriageReturn) :
    withoutReturn line = line :=
  if_neg plain

theorem withoutReturn_concat (line : Bytes) : withoutReturn (line ++ [carriageReturn]) = line := by
  unfold withoutReturn
  rw [if_pos List.getLast?_concat, List.dropLast_concat]

theorem getLast?_ne_of_notMem {byte : UInt8} {line : Bytes} (other : byte ∉ line) :
    line.getLast? ≠ some byte :=
  fun last => other (List.mem_of_getLast? last)

theorem lines_withReturns {bytes : Bytes} (plain : carriageReturn ∉ bytes) :
    lines (withReturns bytes) = lines bytes := by
  have unbroken {line : Bytes} (inside : lineFeed ∉ line) : withReturns line = line := by
    unfold withReturns
    calc line.flatMap (fun byte => if byte = lineFeed then [carriageReturn, lineFeed] else [byte])
      _ = line.flatMap (fun byte => [byte]) :=
        List.flatMap_congr fun byte member =>
          if_neg fun (same : byte = lineFeed) => inside (same ▸ member)
      _ = line := List.flatMap_singleton' line
  induction bytes using bytes_induction with
  | unended line inside => rw [unbroken inside]
  | ended line rest inside ih =>
    have plainLine : carriageReturn ∉ line :=
      fun member => plain (List.mem_append_left _ member)
    have plainRest : carriageReturn ∉ rest :=
      fun member => plain (List.mem_append_right _ (List.mem_cons_of_mem _ member))
    have broken : withReturns (line ++ lineFeed :: rest) =
        (line ++ [carriageReturn]) ++ lineFeed :: withReturns rest := calc
      _ = withReturns line ++ withReturns (lineFeed :: rest) := List.flatMap_append
      _ = line ++ ([carriageReturn, lineFeed] ++ withReturns rest) := by
        rw [unbroken inside]
        rfl
      _ = (line ++ [carriageReturn]) ++ lineFeed :: withReturns rest := by simp
    have inside' : lineFeed ∉ line ++ [carriageReturn] :=
      List.not_mem_append inside (by decide)
    rw [broken, lines_ended _ _ inside', withoutReturn_concat, lines_ended _ _ inside,
      withoutReturn_of_getLast? (getLast?_ne_of_notMem plainLine), ih plainRest]

theorem lines_append {front : Bytes} (ended : Ended front) (back : Bytes) :
    lines (front ++ back) = lines front ++ lines back := by
  rcases ended with rfl | ⟨front, rfl⟩
  · rfl
  · induction front using bytes_induction with
    | unended line inside =>
      rw [List.append_assoc, List.singleton_append, lines_ended _ _ inside,
        lines_ended _ _ inside]
      rfl
    | ended line rest inside ih =>
      have regrouped (middle behind : Bytes) :
          line ++ lineFeed :: middle ++ behind = line ++ lineFeed :: (middle ++ behind) := by
        rw [List.append_assoc, List.cons_append]
      rw [regrouped rest [lineFeed], regrouped (rest ++ [lineFeed]) back, lines_ended _ _ inside,
        lines_ended _ _ inside, ih]
      rfl

theorem lines_concat {bytes : Bytes} (plain : bytes.getLast? ≠ some carriageReturn) :
    lines (bytes ++ [lineFeed]) = lines bytes ∨
      lines (bytes ++ [lineFeed]) = lines bytes ++ [[]] := by
  induction bytes using bytes_induction with
  | unended line inside =>
    rw [lines_ended _ _ inside, lines_unended _ inside, withoutReturn_of_getLast? plain]
    by_cases empty : line = []
    · subst empty
      exact .inr rfl
    · rw [if_neg empty]
      exact .inl rfl
  | ended line rest inside ih =>
    have plainRest : rest.getLast? ≠ some carriageReturn := by
      intro last
      rw [List.getLast?_append, List.getLast?_cons, last] at plain
      exact plain rfl
    rw [List.append_assoc, List.cons_append, lines_ended _ _ inside, lines_ended _ _ inside]
    exact (ih plainRest).imp (congrArg _) (congrArg _)

theorem bytesOf_append (front back : String) :
    bytesOf (front ++ back) = bytesOf front ++ bytesOf back := by
  rw [bytesOf_eq, bytesOf_eq, bytesOf_eq, String.toList_append, List.flatMap_append]

theorem exists_front_of_getLast? {text : String}
    (last : (bytesOf text).getLast? = some carriageReturn) : ∃ front, text = front ++ "\r" := by
  rw [bytesOf_eq] at last
  rcases List.eq_nil_or_concat text.toList with empty | ⟨front, character, split⟩
  · rw [empty] at last
    cases last
  · rw [split, List.concat_eq_append, List.flatMap_append, List.flatMap_singleton,
      List.getLast?_append_of_ne_nil _ String.utf8EncodeChar_ne_nil] at last
    have isReturn : character = '\r' := Char.toNat_inj.1
      (toNat_eq_of_mem_utf8EncodeChar (by decide) (List.mem_of_getLast? last))
    refine ⟨String.ofList front, String.toList_injective ?_⟩
    rw [split, isReturn, List.concat_eq_append, String.toList_append, String.toList_ofList]
    rfl

namespace Blank

variable {line : Bytes}

theorem nil : Blank [] := ⟨"", rfl, rfl, List.not_mem_nil⟩

theorem lineFeed_notMem (blank : Blank line) : lineFeed ∉ line := by
  obtain ⟨text, rfl, -, unbroken⟩ := blank
  exact lineFeed_notMem_bytesOf unbroken

theorem withoutReturn (blank : Blank line) : Blank (withoutReturn line) := by
  by_cases last : line.getLast? = some carriageReturn
  · obtain ⟨text, rfl, blanks, unbroken⟩ := blank
    obtain ⟨front, rfl⟩ := exists_front_of_getLast? last
    have encoded : bytesOf (front ++ "\r") = bytesOf front ++ [carriageReturn] :=
      bytesOf_append front "\r"
    rw [Text.isBlankText, String.toList_append, List.all_append, Bool.and_eq_true] at blanks
    rw [String.toList_append] at unbroken
    rw [encoded, withoutReturn_concat]
    exact ⟨front, rfl, blanks.1, fun member => unbroken (List.mem_append_left _ member)⟩
  · rwa [withoutReturn_of_getLast? last]

end Blank

/-- Two lists of lines have the same answer, whatever has been answered in front of them. -/
def Alike (first second : List Bytes) : Prop :=
  ∀ display progress,
    Progress.follow display first progress = Progress.follow display second progress

namespace Alike

variable {first second third : List Bytes} {line : Bytes}

theorem of_eq (same : first = second) : Alike first second := fun _ _ => same ▸ rfl

theorem symm (alike : Alike first second) : Alike second first :=
  fun display progress => (alike display progress).symm

theorem trans (alike : Alike first second) (alike' : Alike second third) : Alike first third :=
  fun display progress => (alike display progress).trans (alike' display progress)

theorem behind (alike : Alike first second) (front : List Bytes) :
    Alike (front ++ first) (front ++ second) := by
  induction front with
  | nil => exact alike
  | cons line front ih =>
    intro display progress
    simp only [List.cons_append, Progress.follow]
    split
    · rfl
    · exact ih display _

theorem blank (isBlank : Blank line) (rest : List Bytes) : Alike (line :: rest) rest := by
  intro display progress
  obtain ⟨text, rfl, blanks, -⟩ := isBlank
  have valid : String.fromUTF8? (bytesOf text).toByteArray = some text := text?_bytesOf text
  simp only [Progress.follow, valid, Progress.read, blanks, if_true]

end Alike
end Lines

open Lines

inductive Restyles : Bytes → Bytes → Prop
  | returns {bytes : Bytes} : carriageReturn ∉ bytes → Restyles bytes (withReturns bytes)
  | ended {bytes : Bytes} : carriageReturn ∉ bytes → Restyles bytes (bytes ++ [lineFeed])
  | unended {bytes : Bytes} : carriageReturn ∉ bytes → Restyles (bytes ++ [lineFeed]) bytes
  | blank {front line back : Bytes} : Ended front → Blank line →
      Restyles (front ++ back) (front ++ (line ++ lineFeed :: back))
  | blankLast {front line : Bytes} : Ended front → Blank line → Restyles front (front ++ line)

namespace Restyles

variable {bytes bytes' : Bytes}

theorem ended_alike (plain : carriageReturn ∉ bytes) :
    Alike (lines (bytes ++ [lineFeed])) (lines bytes) := by
  rcases lines_concat (getLast?_ne_of_notMem plain) with same | more
  · exact .of_eq same
  · have passed := (Alike.blank .nil []).behind (lines bytes)
    rwa [← more, List.append_nil] at passed

theorem alike (restyles : Restyles bytes bytes') : Alike (lines bytes') (lines bytes) := by
  cases restyles with
  | returns plain => exact .of_eq (lines_withReturns plain)
  | ended plain => exact ended_alike plain
  | unended plain => exact (ended_alike plain).symm
  | @blank front line back ended isBlank =>
    rw [lines_append ended, lines_append ended, lines_ended _ _ isBlank.lineFeed_notMem]
    exact (Alike.blank isBlank.withoutReturn _).behind _
  | @blankLast front line ended isBlank =>
    have passed : Alike (lines line) [] := by
      rw [lines_unended _ isBlank.lineFeed_notMem]
      split
      · exact .of_eq rfl
      · exact .blank isBlank []
    have whole := passed.behind (lines bytes)
    rwa [List.append_nil, ← lines_append ended] at whole

theorem alike_of_steps (steps : Relation.ReflTransGen Restyles bytes bytes') :
    Alike (lines bytes') (lines bytes) := by
  induction steps with
  | refl => exact .of_eq rfl
  | tail earlier step ih => exact step.alike.trans ih

end Restyles

/-- The command gives the same answer to content in which every line feed, where there is no
carriage return, gets one in front of it, in which the last line is ended or no longer ended, and
between whose lines there are more blank ones, however many of these changes are made one after
the other. -/
theorem evaluate_restyled {environment environment' : Environment} {options : Options}
    {bytes bytes' : Bytes} (supplied : Supplies environment options bytes)
    (supplied' : Supplies environment' options bytes')
    (restyled : Relation.ReflTransGen Restyles bytes bytes') :
    evaluate environment' options = evaluate environment options := by
  have same := Restyles.alike_of_steps restyled options.display {}
  calc evaluate environment' options
    _ = Response.ofBytes options.display bytes' := supplied'.evaluate_eq
    _ = Response.ofBytes options.display bytes := by
      rw [Response.ofBytes, Response.ofBytes, same]
    _ = evaluate environment options := supplied.evaluate_eq.symm

/-- The first line is in error at its end, where a carriage return left on it would be counted. -/
theorem evaluate_restyled_sums :
    let bytes := bytesOf "1+\n2*3"
    let bytes' := bytesOf "1+\r\n\u3000\r\n2*3\r\n"
    let environment (content : Bytes) : Environment := ⟨fun _ => .content content, []⟩
    let options : Options := ⟨none, some "sums", true, true⟩
    Supplies (environment bytes) options bytes ∧ Supplies (environment bytes') options bytes' ∧
      Relation.ReflTransGen Restyles bytes bytes' ∧
      evaluate (environment bytes') options = evaluate (environment bytes) options := by
  intro bytes bytes' environment options
  have supplied : Supplies (environment bytes) options bytes := .file rfl
  have supplied' : Supplies (environment bytes') options bytes' := .file rfl
  have ended : Restyles bytes (bytesOf "1+\n2*3\n") := by
    have same : bytesOf "1+\n2*3\n" = bytes ++ [lineFeed] := by decide +kernel
    exact same ▸ .ended (by decide +kernel)
  have returns : Restyles (bytesOf "1+\n2*3\n") (bytesOf "1+\r\n2*3\r\n") := by
    have same : bytesOf "1+\r\n2*3\r\n" = withReturns (bytesOf "1+\n2*3\n") := by decide +kernel
    exact same ▸ .returns (by decide +kernel)
  have blank : Restyles (bytesOf "1+\r\n2*3\r\n") bytes' := by
    have same : bytesOf "1+\r\n2*3\r\n" = bytesOf "1+\r\n" ++ bytesOf "2*3\r\n" := by
      decide +kernel
    have same' : bytes' =
        bytesOf "1+\r\n" ++ (bytesOf "\u3000\r" ++ lineFeed :: bytesOf "2*3\r\n") := by
      decide +kernel
    rw [same, same']
    exact .blank (.inr ⟨bytesOf "1+\r", by decide +kernel⟩)
      ⟨"\u3000\r", rfl, by decide +kernel, by decide +kernel⟩
  have restyled : Relation.ReflTransGen Restyles bytes bytes' :=
    ((Relation.ReflTransGen.single ended).tail returns).tail blank
  exact ⟨supplied, supplied', restyled, evaluate_restyled supplied supplied' restyled⟩

end Calculator.Command
