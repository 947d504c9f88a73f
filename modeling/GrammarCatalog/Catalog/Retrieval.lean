import GrammarCatalog.Catalog.Interning
import GrammarCatalog.TokenSet.Basic

/-! Tokens by symbol, one at a time or as a set. The end of the input has a token in every language,
defined or not; asking for it may be what makes it. Any other symbol has the token that is listed
for it, if there is one. -/
namespace GrammarCatalog.State

/-- The token of a symbol. -/
def token? (state : State) (language : Language) (symbol : Symbol) :
    Outcome (Option TokenElement) :=
  if symbol.isEndOfInput then (state.endToken language).map some
  else .silent (state.catalog.listedToken? language symbol) state

/-- Asking for the token of a symbol changes nothing unless the symbol is the end of the input. -/
theorem token?_of_not_end (state : State) (language : Language) {symbol : Symbol}
    (hOther : symbol.isEndOfInput = false) :
    state.token? language symbol = .silent (state.catalog.listedToken? language symbol) state := by
  simp [token?, hOther]

/-- Adds the tokens of the symbols to a set. The listed tokens are those of the start and are not
looked up again; a symbol that is not listed adds nothing. -/
def collect (state : State) (language : Language) (listed : List TokenElement) (set : TokenSet) :
    List Symbol → Outcome TokenSet
  | [] => .silent set state
  | symbol :: rest =>
    if symbol.isEndOfInput then
      (state.endToken language).andThen fun token state =>
        state.collect language listed (set.insert token) rest
    else
      match symbol.position?.bind (listed[·]?) with
      | some token => state.collect language listed (set.insert token) rest
      | none => state.collect language listed set rest

/-- The set of the tokens of the symbols. -/
def tokenSet (state : State) (language : Language) (symbols : List Symbol) : Outcome TokenSet :=
  state.collect language (state.catalog.tokens language) .empty symbols

/-- However often a list of symbols has the end of the input, it is asked for once. -/
theorem state_collect (state : State) (language : Language) (listed : List TokenElement)
    (set : TokenSet) (symbols : List Symbol) :
    (state.collect language listed set symbols).state =
      if symbols.any Symbol.isEndOfInput then (state.endToken language).state else state := by
  induction symbols generalizing state set with
  | nil => rfl
  | cons symbol rest ih =>
      cases hEnd : symbol.isEndOfInput with
      | true =>
          simp only [collect, hEnd, ↓reduceIte, Outcome.andThen, List.any_cons, Bool.true_or]
          rw [ih, endToken_again]
          split <;> rfl
      | false =>
          simp only [collect, hEnd, Bool.false_eq_true, ↓reduceIte, List.any_cons, Bool.false_or]
          split
          · exact ih _ _
          · exact ih _ _

/-- The members that collecting adds are the listed tokens of the symbols and, where the symbols
have it, the end of the input. -/
theorem mem_collect (state : State) (language : Language) (listed : List TokenElement)
    (set : TokenSet) (symbols : List Symbol) (token : TokenElement) :
    token ∈ (state.collect language listed set symbols).answer.members ↔
      token ∈ set.members ∨
      (∃ symbol ∈ symbols, symbol.isEndOfInput = false ∧
        symbol.position?.bind (listed[·]?) = some token) ∨
      (∃ symbol ∈ symbols, symbol.isEndOfInput = true ∧
        token = (state.endToken language).answer) := by
  induction symbols generalizing state set with
  | nil => simp [collect, Outcome.silent]
  | cons symbol rest ih =>
      cases hEnd : symbol.isEndOfInput with
      | true =>
          simp only [collect, hEnd, ↓reduceIte, Outcome.andThen, ih, endToken_again,
            Outcome.silent, TokenSet.mem_insert, List.mem_cons, exists_eq_or_imp, reduceCtorEq,
            false_and, false_or, true_and]
          rw [or_assoc, or_left_comm (a := token = _)]
      | false =>
          simp only [collect, hEnd, Bool.false_eq_true, ↓reduceIte, List.mem_cons,
            exists_eq_or_imp, true_and, false_and, false_or]
          cases hListed : symbol.position?.bind (listed[·]?) with
          | some other =>
              simp only [ih, TokenSet.mem_insert, Option.some.injEq, eq_comm (a := token),
                or_assoc]
          | none => simp only [ih, reduceCtorEq, false_or]

end GrammarCatalog.State
