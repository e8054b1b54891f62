import Calculator.Command.Response
import Calculator.Proofs.Token.Lexeme
import Calculator.Token.Scanner
import Mathlib.Tactic.SplitIfs

/-! What the command answers to some content. Main statement: wherever the content comes from,
the answer is made of what each line that holds a token is answered alone, up to the first line
that is no valid text, and such a line is the only error of the input. -/

namespace Calculator.Command

def text? (line : Bytes) : Option String := String.fromUTF8? line.toByteArray

def Readable (bytes : Bytes) : Prop := ∀ line ∈ lines bytes, (text? line).isSome

instance (bytes : Bytes) : Decidable (Readable bytes) :=
  inferInstanceAs (Decidable (∀ line ∈ lines bytes, _))

def texts (bytes : Bytes) : List String :=
  ((lines bytes).takeWhile fun line => (text? line).isSome).filterMap text?

def Silent (text : String) : Prop :=
  ∃ position, (Scanner.start text).drain.1 = [.ok ⟨.endOfInput, position⟩]

theorem isBlankText_iff_silent (text : String) : Text.isBlankText text ↔ Silent text := by
  have drained : (Scanner.start text).drain.1 = (Cursor.start text).stream.outcomes := rfl
  rw [Silent, drained, Cursor.start, Text.isBlankText, List.all_eq_true]
  constructor
  · intro blank
    rw [Cursor.stream_all_blank blank]
    exact ⟨_, rfl⟩
  · intro ⟨position, silent⟩
    rcases Cursor.exists_lexeme text.toList with
      blank | ⟨blanks, lexeme, rest, reading, same, blank, read⟩
    · exact blank
    · rw [same, read.stream_eq blank] at silent
      cases outcome : reading (0 + blanks.length) with
      | error error =>
        rw [outcome] at silent
        cases silent
      | ok token =>
        rw [outcome] at silent
        obtain ⟨first, -⟩ := List.cons.inj silent
        cases first
        exact absurd rfl (read.kind_ne_endOfInput outcome)

instance : DecidablePred Silent := fun text => decidable_of_iff _ (isBlankText_iff_silent text)

def spoken (bytes : Bytes) : List String := (texts bytes).filter fun text => ¬Silent text

/-- What is answered to some content, told by what its lines are answered alone. -/
def answered (display : Display) (bytes : Bytes) : Response where
  exitCode :=
    if Readable bytes ∧ ∀ text ∈ spoken bytes, (report display {} text).1.success then 0 else 1
  output := String.join ((spoken bytes).map fun text => (report display {} text).1.text)
  errors := if Readable bytes then "" else errorLine "stream did not contain valid UTF-8"

theorem report_eq_new (display : Display) (session : Session) (line : String) :
    (report display session line).1 = (report display {} line).1 := by
  unfold report
  cases parse line with
  | error error => rfl
  | ok tree => simp only [Session.runExpr_eq]

namespace Progress

theorem follow_eq (display : Display) (lines : List Bytes) (progress : Progress) :
    follow display lines progress =
      (((lines.takeWhile fun line => (text? line).isSome).filterMap text?).foldl
        (read display) progress, decide (∀ line ∈ lines, (text? line).isSome)) := by
  induction lines generalizing progress with
  | nil => rfl
  | cons line rest ih =>
    rw [follow]
    cases found : text? line with
    | none =>
      have invalid : String.fromUTF8? line.toByteArray = none := found
      simp [invalid, found]
    | some text =>
      have valid : String.fromUTF8? line.toByteArray = some text := found
      simp [valid, found, ih]

theorem read_eq (display : Display) (progress : Progress) (line : String) :
    (read display progress line).printed = progress.printed ++
        (if Silent line then "" else (report display {} line).1.text) ∧
      (read display progress line).success =
        (progress.success && (decide (Silent line) || (report display {} line).1.success)) := by
  rw [read]
  by_cases blank : Text.isBlankText line
  · have silent := (isBlankText_iff_silent line).1 blank
    simp [blank, silent]
  · have loud := mt (isBlankText_iff_silent line).2 blank
    simp [blank, loud, answer, report_eq_new display progress.session]

theorem foldl_read (display : Display) (lines : List String) (progress : Progress) :
    (lines.foldl (read display) progress).printed = progress.printed ++
        String.join ((lines.filter fun line => ¬Silent line).map fun line =>
          (report display {} line).1.text) ∧
      (lines.foldl (read display) progress).success = (progress.success &&
        (lines.filter fun line => ¬Silent line).all fun line =>
          (report display {} line).1.success) := by
  induction lines generalizing progress with
  | nil => simp
  | cons line lines ih =>
    obtain ⟨printed, success⟩ := read_eq display progress line
    rw [List.foldl_cons, (ih _).1, (ih _).2, printed, success]
    by_cases silent : Silent line
    · simp [silent]
    · simp [silent, String.append_assoc, Bool.and_assoc]

end Progress

theorem Response.ofBytes_eq (display : Display) (bytes : Bytes) :
    ofBytes display bytes = answered display bytes := by
  have followed : Progress.follow display (lines bytes) {} =
      ((texts bytes).foldl (Progress.read display) {}, decide (Readable bytes)) :=
    Progress.follow_eq display (lines bytes) {}
  obtain ⟨printed, success⟩ := Progress.foldl_read display (texts bytes) {}
  have printed' : _ = _ ++ String.join ((spoken bytes).map _) := printed
  have success' : _ = (true && (spoken bytes).all _) := success
  rw [ofBytes, followed, answered]
  by_cases readable : Readable bytes
  · simp [readable, ofProgress, printed', success']
  · simp [readable, printed']

def bytesOf (text : String) : Bytes := text.toUTF8.data.toList

theorem text?_bytesOf (text : String) : text? (bytesOf text) = some text := by
  have whole : (bytesOf text).toByteArray = text.toUTF8 := by
    apply ByteArray.ext
    simp [bytesOf]
  rw [text?, whole, String.fromUTF8?]
  exact dif_pos text.isValidUTF8

theorem bytesOf_eq (text : String) : bytesOf text = text.toList.flatMap String.utf8EncodeChar := by
  have encoded : text.toUTF8 = text.toList.utf8Encode := by
    rw [← String.toByteArray_ofList, String.ofList_toList]
    rfl
  rw [bytesOf, encoded, List.utf8Encode, List.toList_data_toByteArray]

/-- No other character has the byte of one that takes a single byte: all bytes of a character that
takes several are at least 128. -/
theorem toNat_eq_of_mem_utf8EncodeChar {byte : UInt8} {character : Char}
    (single : byte.toNat < 128) (member : byte ∈ String.utf8EncodeChar character) :
    character.toNat = byte.toNat := by
  simp only [String.utf8EncodeChar, Char.toNat_val] at member
  split_ifs at member <;> simp [← UInt8.toNat_inj] at member <;> omega

theorem lineFeed_notMem_bytesOf {text : String} (unbroken : '\n' ∉ text.toList) :
    Lines.lineFeed ∉ bytesOf text := by
  rw [bytesOf_eq, List.mem_flatMap]
  intro ⟨character, member, found⟩
  have codePoint : character = '\n' :=
    Char.toNat_inj.1 (toNat_eq_of_mem_utf8EncodeChar (by decide) found)
  exact unbroken (codePoint ▸ member)

theorem Response.ofBytes_bytesOf (display : Display) {text : String}
    (unbroken : '\n' ∉ text.toList) (loud : ¬Text.isBlankText text) :
    ofBytes display (bytesOf text) = ofProgress (Progress.answer display {} text) := by
  have nonempty : bytesOf text ≠ [] := by
    intro empty
    have same := text?_bytesOf text
    rw [empty] at same
    cases same
    exact loud rfl
  have oneLine : lines (bytesOf text) = [bytesOf text] := by
    rw [Lines.lines_unended _ (lineFeed_notMem_bytesOf unbroken), if_neg nonempty]
  have valid : String.fromUTF8? (bytesOf text).toByteArray = some text := text?_bytesOf text
  simp [ofBytes, oneLine, Progress.follow, valid, Progress.read, loud]

/-- Where the content that options ask about comes from: a file, the standard input, or one
expression given as an argument. -/
inductive Supplies (environment : Environment) : Options → Bytes → Prop
  | file {path : String} {bytes : Bytes} {quiet showTree : Bool} :
      environment.file path = .content bytes →
      Supplies environment ⟨none, some path, quiet, showTree⟩ bytes
  | standardInput {quiet showTree : Bool} :
      Supplies environment ⟨none, none, quiet, showTree⟩ environment.standardInput
  | expression {text : String} {quiet showTree : Bool} :
      '\n' ∉ text.toList → ¬Text.isBlankText text →
      Supplies environment ⟨some text, none, quiet, showTree⟩ (bytesOf text)

theorem Supplies.evaluate_eq {environment : Environment} {options : Options} {bytes : Bytes}
    (supplied : Supplies environment options bytes) :
    evaluate environment options = Response.ofBytes options.display bytes := by
  cases supplied with
  | file found =>
    simp only [evaluate, found]
    rfl
  | standardInput => rfl
  | expression unbroken loud => exact (Response.ofBytes_bytesOf _ unbroken loud).symm

/-- Content is answered line by line, as each of its lines is answered alone, up to the first one
that is no valid text. It does not matter where it comes from and what stands behind such a
line. -/
theorem evaluate_supplied {environment : Environment} {options : Options} {bytes : Bytes}
    (supplied : Supplies environment options bytes) :
    evaluate environment options = answered options.display bytes ∧
    ∀ environment' options' bytes',
      Supplies environment' options' bytes' → options'.display = options.display →
      texts bytes' = texts bytes → (Readable bytes' ↔ Readable bytes) →
        evaluate environment' options' = evaluate environment options := by
  constructor
  · rw [supplied.evaluate_eq, Response.ofBytes_eq]
  · intro environment' options' bytes' supplied' sameDisplay sameTexts sameEnd
    have sameSpoken : spoken bytes' = spoken bytes := congrArg (List.filter _) sameTexts
    rw [supplied.evaluate_eq, supplied'.evaluate_eq, Response.ofBytes_eq, Response.ofBytes_eq]
    simp only [answered, sameDisplay, sameSpoken, sameEnd]

/-- The line behind the one that is no valid text has no value any more, and the blank line in
front of it counts for nothing. -/
theorem evaluate_unreadable_line :
    let bytes := bytesOf "1+1\r\n \n" ++ [0xFF, Lines.lineFeed] ++ bytesOf "2\n"
    let environment : Environment := ⟨fun _ => .content bytes, []⟩
    let options : Options := ⟨none, some "sums", true, false⟩
    Supplies environment options bytes ∧
      evaluate environment options =
        ⟨1, "2\n", "error: stream did not contain valid UTF-8\n"⟩ := by
  intro bytes environment options
  have supplied : Supplies environment options bytes := .file rfl
  refine ⟨supplied, ?_⟩
  rw [(evaluate_supplied supplied).1]
  decide +kernel

end Calculator.Command
