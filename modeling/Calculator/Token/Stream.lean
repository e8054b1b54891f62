import Calculator.Token.Cursor

/-! The tokens of a whole text, and what ended them. Main statement: reading all of a text
is reading one token and then all of what it leaves. -/

namespace Calculator

inductive Ending where
  | endOfInput (position : Nat)
  | failed (error : LexicalError)
deriving DecidableEq, Repr

def Ending.outcome : Ending → Outcome
  | endOfInput position => .ok ⟨.endOfInput, position⟩
  | failed error => .error error

structure TokenStream where
  tokens : List Token
  ending : Ending
deriving DecidableEq, Repr

namespace TokenStream

def cons (token : Token) (stream : TokenStream) : TokenStream :=
  ⟨token :: stream.tokens, stream.ending⟩

def outcomes (stream : TokenStream) : List Outcome :=
  stream.tokens.map .ok ++ [stream.ending.outcome]

end TokenStream

namespace Cursor

private theorem length_lt_of_nextToken {cursor next : Cursor} {token : Token}
    (step : cursor.nextToken = (.ok token, next)) (more : ¬token.kind = .endOfInput) :
    next.rest.length < cursor.rest.length := by
  have shorter := nextToken_shorter cursor
  rw [step] at shorter
  exact shorter (by simp [Outcome.isLast, more])

/-- Reads on to the end behind tokens already read, of which the latest comes first. -/
def readBehind (cursor : Cursor) (done : List Token) : TokenStream × Cursor :=
  match step : cursor.nextToken with
  | (.error error, next) => (⟨done.reverse, .failed error⟩, next)
  | (.ok token, next) =>
      if last : token.kind = .endOfInput then
        (⟨done.reverse, .endOfInput token.position⟩, next)
      else
        have := length_lt_of_nextToken step last
        next.readBehind (token :: done)
termination_by cursor.rest.length

def readAll (cursor : Cursor) : TokenStream × Cursor := cursor.readBehind []

private theorem readBehind_eq (cursor : Cursor) (done : List Token) :
    cursor.readBehind done =
      (⟨done.reverse ++ cursor.readAll.1.tokens, cursor.readAll.1.ending⟩,
        cursor.readAll.2) := by
  induction size : cursor.rest.length using Nat.strongRecOn generalizing cursor done with
  | ind size ih =>
    rw [readAll, readBehind.eq_1 cursor done, readBehind.eq_1 cursor []]
    split
    · simp
    · rename_i token next step
      split
      · simp
      · rename_i more
        have fewer := length_lt_of_nextToken step more
        rw [ih _ (size ▸ fewer) next (token :: done) rfl,
          ih _ (size ▸ fewer) next [token] rfl]
        simp

theorem readAll_eq (cursor : Cursor) :
    cursor.readAll =
      match cursor.nextToken with
      | (.error error, next) => (⟨[], .failed error⟩, next)
      | (.ok token, next) =>
          if token.kind = .endOfInput then (⟨[], .endOfInput token.position⟩, next)
          else (next.readAll.1.cons token, next.readAll.2) := by
  rw [readAll, readBehind]
  split
  · rename_i step
    simp [step]
  · rename_i token next step
    by_cases last : token.kind = .endOfInput
    · simp [step, last]
    · simp [step, last, readBehind_eq next [token], TokenStream.cons]

def stream (cursor : Cursor) : TokenStream := cursor.readAll.1

theorem kind_ne_endOfInput (cursor : Cursor) :
    ∀ token ∈ cursor.stream.tokens, token.kind ≠ .endOfInput := by
  induction size : cursor.rest.length using Nat.strongRecOn generalizing cursor with
  | ind size ih =>
    rw [stream, readAll_eq]
    split
    · simp
    · rename_i token next step
      split
      · simp
      · rename_i more
        have fewer := length_lt_of_nextToken step more
        intro other member
        rcases List.mem_cons.1 member with rfl | later
        · exact more
        · exact ih _ (size ▸ fewer) next rfl other later

end Cursor
end Calculator
