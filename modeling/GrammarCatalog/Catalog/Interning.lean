import GrammarCatalog.Catalog.State

/-! Tokens that are made on demand and then kept. In each scope a name has one token, made for the
first who asks; what later ones say about symbol, owner or registration has no effect. Each
language has one end of the input, made when it is first asked for. -/
namespace GrammarCatalog.State

/-- The token of a name in the scope of its owner. A new token takes all its properties from this
request, and a notice says so. -/
def intern (state : State) (symbol : Symbol) (name : String) (owner : Option Language)
    (registered : Bool) : Outcome TokenElement :=
  let scope := Language.scopeOf owner
  match state.catalog.interned? scope name with
  | some token => .silent token state
  | none =>
    let (token, supply) := state.supply.token symbol name owner registered
    ⟨token, [⟨.interned symbol name, []⟩], ⟨supply, state.catalog.addInterned scope name token⟩⟩

/-- The tokens of several names of one owner, asked for one after the other. -/
def internAll (state : State) (owner : Option Language) (registered : Bool) :
    List (Symbol × String) → Outcome (List TokenElement)
  | [] => .silent [] state
  | (symbol, name) :: rest =>
    (state.intern symbol name owner registered).andThen fun token state =>
      (state.internAll owner registered rest).map (token :: ·)

/-- The end of the input of exactly this language, defined or not. It is never registered, and
dialects do not share it. -/
def endToken (state : State) (language : Language) : Outcome TokenElement :=
  match state.catalog.end? language with
  | some token => .silent token state
  | none =>
    let (token, supply) :=
      state.supply.token .endOfInput Symbol.endOfInputName (some language) false
    .silent token ⟨supply, state.catalog.addEnd language token⟩

/-- A name that has its token keeps it, and asking for it changes nothing. -/
theorem intern_of_interned (state : State) (symbol : Symbol) (name : String)
    (owner : Option Language) (registered : Bool) (token : TokenElement)
    (hInterned : state.catalog.interned? (Language.scopeOf owner) name = some token) :
    state.intern symbol name owner registered = .silent token state := by
  simp [intern, hInterned]

/-- Whoever asks for a name is given the token that is kept for it, and no other name is
concerned. -/
theorem interned?_intern (state : State) (symbol : Symbol) (name : String)
    (owner : Option Language) (registered : Bool) (scope : Language) (other : String) :
    (state.intern symbol name owner registered).state.catalog.interned? scope other =
      if (scope, other) = (Language.scopeOf owner, name) then
        some (state.intern symbol name owner registered).answer
      else state.catalog.interned? scope other := by
  cases hInterned : state.catalog.interned? (Language.scopeOf owner) name with
  | some token =>
    rw [intern_of_interned _ _ _ _ _ _ hInterned]
    split
    · next hKey =>
      obtain ⟨rfl, rfl⟩ := Prod.mk.inj hKey
      exact hInterned
    · rfl
  | none => simp only [intern, hInterned, Catalog.interned?_addInterned]

/-- Whoever asks for the end of the input is given the token that is kept for it, and no other
language is concerned. -/
theorem end?_endToken (state : State) (language other : Language) :
    (state.endToken language).state.catalog.end? other =
      if other = language then some (state.endToken language).answer
      else state.catalog.end? other := by
  cases hEnd : state.catalog.end? language with
  | some token =>
    simp only [endToken, hEnd, Outcome.silent]
    split
    · next hLanguage => rw [hLanguage, hEnd]
    · rfl
  | none => simp only [endToken, hEnd, Outcome.silent, Catalog.end?_addEnd]

/-- Once there is an end of the input, asking for it changes nothing. -/
theorem endToken_of_end? (state : State) (language : Language) (token : TokenElement)
    (hEnd : state.catalog.end? language = some token) :
    state.endToken language = .silent token state := by
  simp only [endToken, hEnd]

theorem endToken_again (state : State) (language : Language) :
    (state.endToken language).state.endToken language =
      .silent (state.endToken language).answer (state.endToken language).state := by
  apply endToken_of_end?
  rw [end?_endToken, if_pos rfl]

end GrammarCatalog.State
