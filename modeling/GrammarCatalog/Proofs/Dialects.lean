import GrammarCatalog.Proofs.History

/-! Dialects and the languages they derive from. Each resolves its scope by one step along the chain
of bases, so the two meet in one scope exactly when the base is a root. A dialect of a dialect has
its own base for a scope, while that base has gone one step further. -/
namespace GrammarCatalog.World

/-- The answer to the call that is made at a moment of a run. -/
def answerAt? (moves : List Move) (moment : Nat) : Option Answer :=
  match moves[moment]? with
  | some (.call number made) => some ((after (moves.take moment)).take number made).1
  | _ => none

/-- What is answered to one who interns a name is what is kept for the name in the end. -/
theorem answerAt?_intern {moves : List Move} {moment number : Nat} {symbol : Symbol}
    {name : String} {owner : Option Language} {registered : Bool}
    (hMove : moves[moment]? = some (.call number (.intern symbol name owner registered))) :
    ∃ token, answerAt? moves moment = some (.token (some token)) ∧
      ((after moves).catalogs number).interned? (Language.scopeOf owner) name = some token := by
  let world := after (moves.take moment)
  refine ⟨((world.stateOf number).intern symbol name owner registered).answer, ?_, ?_⟩
  · rw [answerAt?, hMove]
    rfl
  · have hKept := interned?_next_intern world number symbol name owner registered
    rw [after_eq_run_next hMove]
    exact tokenAt?_run _ (moves.drop (moment + 1)) (.interned _ name) hKept

/-- Tokens of one name are the same instance exactly when they are kept in one scope. -/
theorem Sound.eq_iff_scope_eq {world : World} (hSound : world.Sound) {number : Nat}
    {scope scope' : Language} {name : String} {token token' : TokenElement}
    (hToken : (world.catalogs number).interned? scope name = some token)
    (hToken' : (world.catalogs number).interned? scope' name = some token') :
    token = token' ↔ scope = scope' := by
  constructor
  · intro hEqual
    subst hEqual
    have hKey := hSound.eq_of_serial_eq (number, .interned scope name)
      (number, .interned scope' name) hToken hToken' rfl
    cases hKey
    rfl
  · intro hEqual
    subst hEqual
    exact Option.some.inj (hToken.symm.trans hToken')

/-- A dialect shares its tokens with the language that it derives from exactly when that language is
a root: the slots of the token lists that go by one name, and the answers to those who intern one
name for the two languages at any two moments. When the language is itself a dialect, the two are
never the same instance. -/
theorem dialect_shares_iff_base_root (moves : List Move) (number serial : Nat) (id : String)
    (base : Language) :
    let dialect := Language.dialect serial id base
    let catalog := (after moves).catalogs number
    let history := demandsTo number moves
    (∀ blueprint blueprint', History.blueprint? history dialect = some blueprint →
      History.blueprint? history base = some blueprint' →
      ∀ (place place' : Nat) symbol symbol' name,
        blueprint.names[place]? = some (symbol, name) →
        blueprint'.names[place']? = some (symbol', name) →
        ∃ token token', (catalog.tokens dialect)[place]? = some token ∧
          (catalog.tokens base)[place']? = some token' ∧
          (token = token' ↔ base.base? = none)) ∧
    (∀ (moment moment' : Nat) symbol symbol' name registered registered',
      moves[moment]? = some (Move.call number (.intern symbol name (some dialect) registered)) →
      moves[moment']? = some (Move.call number (.intern symbol' name (some base) registered')) →
      ∃ token token', answerAt? moves moment = some (.token (some token)) ∧
        answerAt? moves moment' = some (.token (some token')) ∧
        (token = token' ↔ base.base? = none)) := by
  intro dialect catalog history
  have hSound := sound_after moves
  have hRecords := records_after moves number
  have hScopes : dialect.scope = base.scope ↔ base.base? = none := by
    rw [← base.scope_eq_self_iff, Language.scope_dialect]
    exact eq_comm
  constructor
  · intro blueprint blueprint' hDialect hBase place place' symbol symbol' name hName hName'
    obtain ⟨token, hSlot, hToken⟩ := hRecords.getElem?_tokens hDialect hName
    obtain ⟨token', hSlot', hToken'⟩ := hRecords.getElem?_tokens hBase hName'
    exact ⟨token, token', hSlot, hSlot', (hSound.eq_iff_scope_eq hToken hToken').trans hScopes⟩
  · intro moment moment' symbol symbol' name registered registered' hMove hMove'
    obtain ⟨token, hAnswer, hToken⟩ := answerAt?_intern hMove
    obtain ⟨token', hAnswer', hToken'⟩ := answerAt?_intern hMove'
    exact ⟨token, token', hAnswer, hAnswer',
      (hSound.eq_iff_scope_eq hToken hToken').trans hScopes⟩

/-- A root that shares with its dialect, although the two number the name differently and the name
is interned for the dialect first. -/
theorem root_shares_with_dialect :
    let root := Language.root 1 "sql"
    let dialect := Language.dialect 2 "postgres" root
    let moves : List Move :=
      [.root "sql", .dialect "postgres" root,
        .call 0 (.intern ⟨7⟩ "X" (some dialect) true),
        .call 0 (.define dialect (.ofNames ⟨1⟩ [(⟨0⟩, "Y"), (⟨1⟩, "X")]) [] false),
        .call 0 (.define root (.ofNames ⟨0⟩ [(⟨0⟩, "X")]) [] false),
        .call 0 (.intern ⟨0⟩ "X" (some root) false)]
    let catalog := (after moves).catalogs 0
    (∃ token, (catalog.tokens dialect)[1]? = some token ∧
      (catalog.tokens root)[0]? = some token) ∧
    ∃ token, answerAt? moves 2 = some (.token (some token)) ∧
      answerAt? moves 5 = some (.token (some token)) := by
  intro root dialect moves catalog
  obtain ⟨hSlots, hAnswers⟩ := dialect_shares_iff_base_root moves 0 2 "postgres" root
  obtain ⟨token, _, hSlot, hSlot', hSame⟩ := hSlots _ _ rfl rfl 1 0 ⟨1⟩ ⟨0⟩ "X" rfl rfl
  obtain ⟨answer, _, hAnswer, hAnswer', hSameAnswer⟩ :=
    hAnswers 2 5 ⟨7⟩ ⟨0⟩ "X" true false rfl rfl
  obtain rfl := hSame.mpr rfl
  obtain rfl := hSameAnswer.mpr rfl
  exact ⟨⟨token, hSlot, hSlot'⟩, answer, hAnswer, hAnswer'⟩

/-- A dialect of a dialect and its base are both defined from one vocabulary and hold two instances
of its only name, and whoever interns the name is given one or the other. -/
theorem dialect_of_dialect_shares_nothing :
    let root := Language.root 1 "sql"
    let base := Language.dialect 2 "postgres" root
    let dialect := Language.dialect 3 "plpgsql" base
    let vocabulary := Vocabulary.ofNames ⟨0⟩ [(⟨0⟩, "X")]
    let moves : List Move :=
      [.root "sql", .dialect "postgres" root, .dialect "plpgsql" base,
        .call 0 (.define base vocabulary [] false),
        .call 0 (.define dialect vocabulary [] false),
        .call 0 (.intern ⟨0⟩ "X" (some dialect) false),
        .call 0 (.intern ⟨0⟩ "X" (some base) false)]
    let catalog := (after moves).catalogs 0
    ∃ token token' : TokenElement,
      catalog.tokens dialect = [token] ∧ catalog.tokens base = [token'] ∧
      token.name = "X" ∧ token'.name = "X" ∧
      answerAt? moves 5 = some (.token (some token)) ∧
      answerAt? moves 6 = some (.token (some token')) ∧ token ≠ token' := by
  intro root base dialect vocabulary moves catalog
  exact ⟨⟨1, ⟨0⟩, "X", some dialect, false⟩, ⟨0, ⟨0⟩, "X", some base, false⟩, rfl, rfl, rfl, rfl,
    rfl, rfl, by decide⟩

end GrammarCatalog.World
