/-! Bytes cut into lines. A line feed ends a line; together with one carriage return in front
of it, it does not belong to the line. What stands behind the last line feed is a line of its
own, kept as it is, unless there is nothing. Main statements: a line that is ended comes
first, and bytes without a line feed are at most one line. -/

namespace Calculator.Command

abbrev Bytes := List UInt8

namespace Lines

def lineFeed : UInt8 := 10

def carriageReturn : UInt8 := 13

def attach (byte : UInt8) : List Bytes → List Bytes
  | [] => if byte = lineFeed then [[], []] else [[byte]]
  | first :: pieces =>
      if byte = lineFeed then [] :: first :: pieces else (byte :: first) :: pieces

/-- The pieces around the line feeds, one more than there are line feeds. -/
def pieces (bytes : Bytes) : List Bytes := bytes.foldr attach [[]]

def withoutReturn (line : Bytes) : Bytes :=
  if line.getLast? = some carriageReturn then line.dropLast else line

end Lines

open Lines in
def lines (bytes : Bytes) : List Bytes :=
  let unended := match (pieces bytes).getLast? with
    | none | some [] => []
    | some line => [line]
  (pieces bytes).dropLast.map withoutReturn ++ unended

namespace Lines

theorem pieces_ne_nil (bytes : Bytes) : pieces bytes ≠ [] := by
  induction bytes with
  | nil => simp [pieces]
  | cons byte rest ih =>
    change attach byte (pieces rest) ≠ []
    cases shape : pieces rest with
    | nil => exact absurd shape ih
    | cons first others =>
      simp only [attach]
      split <;> simp

theorem pieces_ended (line rest : Bytes) (inside : lineFeed ∉ line) :
    pieces (line ++ lineFeed :: rest) = line :: pieces rest := by
  induction line with
  | nil =>
    change attach lineFeed (pieces rest) = [] :: pieces rest
    cases shape : pieces rest with
    | nil => exact absurd shape (pieces_ne_nil rest)
    | cons first others => simp [attach]
  | cons byte line ih =>
    have other : byte ≠ lineFeed := fun same => inside (same ▸ List.mem_cons_self)
    change attach byte (pieces (line ++ lineFeed :: rest)) = _
    rw [ih (fun member => inside (List.mem_cons_of_mem _ member))]
    simp [attach, other]

theorem pieces_unended (line : Bytes) (inside : lineFeed ∉ line) : pieces line = [line] := by
  induction line with
  | nil => rfl
  | cons byte line ih =>
    have other : byte ≠ lineFeed := fun same => inside (same ▸ List.mem_cons_self)
    change attach byte (pieces line) = _
    rw [ih (fun member => inside (List.mem_cons_of_mem _ member))]
    simp [attach, other]

theorem lines_ended (line rest : Bytes) (inside : lineFeed ∉ line) :
    lines (line ++ lineFeed :: rest) = withoutReturn line :: lines rest := by
  simp only [lines]
  rw [pieces_ended line rest inside]
  cases shape : pieces rest with
  | nil => exact absurd shape (pieces_ne_nil rest)
  | cons first others => simp [List.getLast?_cons_cons]

theorem lines_unended (line : Bytes) (inside : lineFeed ∉ line) :
    lines line = if line = [] then [] else [line] := by
  simp only [lines]
  rw [pieces_unended line inside]
  cases line <;> simp

end Lines
end Calculator.Command
